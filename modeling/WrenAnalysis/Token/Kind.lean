/-
# Kinds of tokens

A token is a symbol, a keyword, a name, a number, a string, a newline or the
end of the text.  Symbols and keywords have one spelling each; the spelling is
the definition, and reading a symbol (`Symbol.read`) takes the longest one that
starts the text.
-/

namespace WrenAnalysis

/-- The operators and the punctuation. -/
inductive Symbol where
  | leftParen | rightParen | leftBracket | rightBracket | leftBrace | rightBrace
  | colon | dot | dotDot | dotDotDot | comma | star | slash | percent | hash | plus | minus
  | ltLt | gtGt | pipe | pipePipe | amp | ampAmp | caret | bang | tilde | question
  | eq | lt | gt | ltEq | gtEq | eqEq | bangEq
  deriving DecidableEq, Repr, Inhabited

namespace Symbol

/-- The characters a symbol is written with. -/
def spelling : Symbol → List Char
  | leftParen => ['('] | rightParen => [')'] | leftBracket => ['['] | rightBracket => [']']
  | leftBrace => ['\x7b'] | rightBrace => ['\x7d']
  | colon => [':'] | dot => ['.'] | dotDot => ['.', '.'] | dotDotDot => ['.', '.', '.']
  | comma => [','] | star => ['*'] | slash => ['/'] | percent => ['%'] | hash => ['#']
  | plus => ['+'] | minus => ['-'] | ltLt => ['<', '<'] | gtGt => ['>', '>']
  | pipe => ['|'] | pipePipe => ['|', '|'] | amp => ['&'] | ampAmp => ['&', '&']
  | caret => ['^'] | bang => ['!'] | tilde => ['~'] | question => ['?']
  | eq => ['='] | lt => ['<'] | gt => ['>'] | ltEq => ['<', '='] | gtEq => ['>', '=']
  | eqEq => ['=', '='] | bangEq => ['!', '=']

/-- The name of a symbol in listings. -/
def label : Symbol → String
  | leftParen => "LeftParen" | rightParen => "RightParen" | leftBracket => "LeftBracket"
  | rightBracket => "RightBracket" | leftBrace => "LeftBrace" | rightBrace => "RightBrace"
  | colon => "Colon" | dot => "Dot" | dotDot => "DotDot" | dotDotDot => "DotDotDot"
  | comma => "Comma" | star => "Star" | slash => "Slash" | percent => "Percent" | hash => "Hash"
  | plus => "Plus" | minus => "Minus" | ltLt => "LtLt" | gtGt => "GtGt" | pipe => "Pipe"
  | pipePipe => "PipePipe" | amp => "Amp" | ampAmp => "AmpAmp" | caret => "Caret"
  | bang => "Bang" | tilde => "Tilde" | question => "Question" | eq => "Eq" | lt => "Lt"
  | gt => "Gt" | ltEq => "LtEq" | gtEq => "GtEq" | eqEq => "EqEq" | bangEq => "BangEq"

/-- Every symbol, the longer ones first, so that the first match is the longest. -/
def longestFirst : List Symbol :=
  [dotDotDot, dotDot, ltLt, gtGt, pipePipe, ampAmp, ltEq, gtEq, eqEq, bangEq,
   leftParen, rightParen, leftBracket, rightBracket, leftBrace, rightBrace,
   colon, dot, comma, star, slash, percent, hash, plus, minus, pipe, amp, caret, bang, tilde,
   question, eq, lt, gt]

/-- The longest symbol that starts `cs`. -/
def read (cs : List Char) : Option Symbol :=
  longestFirst.find? fun s => s.spelling.isPrefixOf cs

/-- Every symbol is tried. -/
theorem mem_longestFirst (s : Symbol) : s ∈ longestFirst := by cases s <;> decide

/-- Every symbol takes a character. -/
theorem spelling_ne_nil (s : Symbol) : s.spelling ≠ [] := by cases s <;> decide

/-- What is read stands at the front of the text. -/
theorem spelling_prefix_of_read {cs : List Char} {s : Symbol} (h : read cs = some s) :
    s.spelling <+: cs := by
  have found := List.find?_some h
  exact List.isPrefixOf_iff_prefix.mp found

end Symbol

/-- The reserved words. -/
inductive Keyword where
  | as_ | break_ | class_ | construct_ | continue_ | else_ | false_ | for_ | foreign_ | if_
  | import_ | in_ | is_ | null_ | return_ | static_ | super_ | this_ | true_ | var_ | while_
  deriving DecidableEq, Repr, Inhabited

namespace Keyword

/-- The word itself. -/
def spelling : Keyword → String
  | as_ => "as" | break_ => "break" | class_ => "class" | construct_ => "construct"
  | continue_ => "continue" | else_ => "else" | false_ => "false" | for_ => "for"
  | foreign_ => "foreign" | if_ => "if" | import_ => "import" | in_ => "in" | is_ => "is"
  | null_ => "null" | return_ => "return" | static_ => "static" | super_ => "super"
  | this_ => "this" | true_ => "true" | var_ => "var" | while_ => "while"

/-- The name of a keyword in listings. -/
def label : Keyword → String
  | as_ => "As" | break_ => "Break" | class_ => "Class" | construct_ => "Construct"
  | continue_ => "Continue" | else_ => "Else" | false_ => "False" | for_ => "For"
  | foreign_ => "Foreign" | if_ => "If" | import_ => "Import" | in_ => "In" | is_ => "Is"
  | null_ => "Null" | return_ => "Return" | static_ => "Static" | super_ => "Super"
  | this_ => "This" | true_ => "True" | var_ => "Var" | while_ => "While"

/-- Every keyword. -/
def all : List Keyword :=
  [as_, break_, class_, construct_, continue_, else_, false_, for_, foreign_, if_, import_, in_,
   is_, null_, return_, static_, super_, this_, true_, var_, while_]

/-- The keyword spelled `word`. -/
def ofWord? (word : String) : Option Keyword := all.find? fun k => k.spelling = word

end Keyword

/-- What a token is. -/
inductive Kind where
  | symbol (s : Symbol)
  | keyword (k : Keyword)
  | name
  | number
  | string
  /-- A newline, which ends a statement. -/
  | line
  /-- The end of the text. -/
  | eof
  deriving DecidableEq, Repr, Inhabited

namespace Kind

/-- The name of a kind in listings. -/
def label : Kind → String
  | symbol s => s.label
  | keyword k => k.label
  | name => "Name"
  | number => "Number"
  | string => "String"
  | line => "Line"
  | eof => "Eof"

/-- The kind is one of the reserved words. -/
def isKeyword : Kind → Bool
  | keyword _ => true
  | _ => false

/-- The kind of a word: a keyword if it is one, else a name. -/
def ofWord (word : String) : Kind :=
  match Keyword.ofWord? word with
  | some k => keyword k
  | none => name

end Kind
end WrenAnalysis
