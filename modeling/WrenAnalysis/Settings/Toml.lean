/-
# The settings format

Settings are written in the part of TOML that they need: lines of the form
`key = value`, where a value is an integer or an array of strings.  Reading is all
or nothing, and any other value makes the whole text unusable.

The program reads its settings files so (`Settings.parse`, `Settings.load`).
-/

import WrenAnalysis.Settings.Basic

namespace WrenAnalysis
namespace Toml

open Settings (Value)

/-- A control character other than a tab, which may stand nowhere. -/
def isControl (c : Char) : Bool := (c.toNat < 0x20 && c != '\t') || c.toNat = 0x7f

/-- The text behind spaces and tabs. -/
def skipBlanks (cs : List Char) : List Char := cs.dropWhile fun c => c = ' ' || c = '\t'

/-- The text behind a line break. -/
def lineBreak? : List Char → Option (List Char)
  | '\n' :: cs => some cs
  | '\r' :: '\n' :: cs => some cs
  | _ => none

/-- The text behind blanks, line breaks and comments. -/
def skipFiller? : (inComment : Bool) → List Char → Option (List Char)
  | _, [] => some []
  | _, '\n' :: cs => skipFiller? false cs
  | _, '\r' :: '\n' :: cs => skipFiller? false cs
  | true, c :: cs => if isControl c then none else skipFiller? true cs
  | false, ' ' :: cs => skipFiller? false cs
  | false, '\t' :: cs => skipFiller? false cs
  | false, '#' :: cs => skipFiller? true cs
  | false, cs => some cs

/-- The text from the end of a line on, behind blanks and a comment. -/
def lineEnd? (cs : List Char) : Option (List Char) :=
  match skipBlanks cs with
  | [] => some []
  | '#' :: cs => skipFiller? true cs
  | cs => lineBreak? cs

/-! ## Strings -/

/-- The value of a hexadecimal digit. -/
def digit? (c : Char) : Option Nat :=
  if '0' ≤ c ∧ c ≤ '9' then some (c.toNat - '0'.toNat)
  else if 'a' ≤ c ∧ c ≤ 'f' then some (c.toNat - 'a'.toNat + 10)
  else if 'A' ≤ c ∧ c ≤ 'F' then some (c.toNat - 'A'.toNat + 10)
  else none

/-- The character whose code is written by hexadecimal digits. -/
def character? (digits : List Char) : Option Char := do
  let code ← digits.foldlM (fun n c => (digit? c).map (n * 16 + ·)) 0
  if code.isValidChar then some (Char.ofNat code) else none

/-- The character that a letter behind a backslash stands for. -/
def escaped? : Char → Option Char
  | 'b' => some '\x08'
  | 't' => some '\t'
  | 'n' => some '\n'
  | 'f' => some '\x0c'
  | 'r' => some '\r'
  | 'e' => some '\x1b'
  | '"' => some '"'
  | '\\' => some '\\'
  | _ => none

/-- Characters read so far from a string, and the text behind it. -/
abbrev Scanned := Option (List Char × List Char)

/-- One more character in front of a string. -/
def Scanned.push (c : Option Char) (s : Scanned) : Scanned := do
  let c ← c
  let (cs, rest) ← s
  return (c :: cs, rest)

/-- A character that stands for itself, unless it is a control character. -/
def plain? (c : Char) : Option Char := if isControl c then none else some c

/-- A string in double quotes, behind the first. -/
def basic : List Char → Scanned
  | [] => none
  | '"' :: cs => some ([], cs)
  | '\\' :: 'x' :: a :: b :: cs => .push (character? [a, b]) (basic cs)
  | '\\' :: 'u' :: a :: b :: c :: d :: cs => .push (character? [a, b, c, d]) (basic cs)
  | '\\' :: 'U' :: a :: b :: c :: d :: e :: f :: g :: h :: cs =>
    .push (character? [a, b, c, d, e, f, g, h]) (basic cs)
  | '\\' :: e :: cs => .push (escaped? e) (basic cs)
  | c :: cs => .push (plain? c) (basic cs)

/-- A string in single quotes, behind the first. -/
def literal : List Char → Scanned
  | [] => none
  | '\x27' :: cs => some ([], cs)
  | c :: cs => .push (plain? c) (literal cs)

/-- Only blanks are left of the line. -/
def endsLine (cs : List Char) : Bool := (lineBreak? (skipBlanks cs)).isSome

/-- A string in three double quotes, behind them.  Line breaks are kept as they
are written, but a backslash at the end of a line hides the blanks and line breaks
up to the next character. -/
def multiBasic : (hidden : Bool) → List Char → Scanned
  | _, [] => none
  | true, ' ' :: cs => multiBasic true cs
  | true, '\t' :: cs => multiBasic true cs
  | true, '\n' :: cs => multiBasic true cs
  | true, '\r' :: '\n' :: cs => multiBasic true cs
  | _, '"' :: '"' :: '"' :: '"' :: '"' :: cs => some (['"', '"'], cs)
  | _, '"' :: '"' :: '"' :: '"' :: cs => some (['"'], cs)
  | _, '"' :: '"' :: '"' :: cs => some ([], cs)
  | _, '\\' :: 'x' :: a :: b :: cs => .push (character? [a, b]) (multiBasic false cs)
  | _, '\\' :: 'u' :: a :: b :: c :: d :: cs =>
    .push (character? [a, b, c, d]) (multiBasic false cs)
  | _, '\\' :: 'U' :: a :: b :: c :: d :: e :: f :: g :: h :: cs =>
    .push (character? [a, b, c, d, e, f, g, h]) (multiBasic false cs)
  | _, '\\' :: e :: cs =>
    if endsLine (e :: cs) then multiBasic true (e :: cs)
    else .push (escaped? e) (multiBasic false cs)
  | _, '\r' :: '\n' :: cs => .push (some '\r') (.push (some '\n') (multiBasic false cs))
  | _, '\n' :: cs => .push (some '\n') (multiBasic false cs)
  | _, c :: cs => .push (plain? c) (multiBasic false cs)

/-- A string in three single quotes, behind them.  Line breaks are kept as they are
written. -/
def multiLiteral : List Char → Scanned
  | [] => none
  | '\x27' :: '\x27' :: '\x27' :: '\x27' :: '\x27' :: cs => some (['\x27', '\x27'], cs)
  | '\x27' :: '\x27' :: '\x27' :: '\x27' :: cs => some (['\x27'], cs)
  | '\x27' :: '\x27' :: '\x27' :: cs => some ([], cs)
  | '\r' :: '\n' :: cs => .push (some '\r') (.push (some '\n') (multiLiteral cs))
  | '\n' :: cs => .push (some '\n') (multiLiteral cs)
  | c :: cs => .push (plain? c) (multiLiteral cs)

/-- A line break directly behind three quotes does not count. -/
def skipFirstBreak (cs : List Char) : List Char := (lineBreak? cs).getD cs

/-- A string of one line. -/
def lineString? : List Char → Scanned
  | '"' :: cs => basic cs
  | '\x27' :: cs => literal cs
  | _ => none

/-- A string. -/
def string? : List Char → Scanned
  | '"' :: '"' :: '"' :: cs => multiBasic false (skipFirstBreak cs)
  | '\x27' :: '\x27' :: '\x27' :: cs => multiLiteral (skipFirstBreak cs)
  | cs => lineString? cs

/-! ## Integers -/

/-- The number written by digits; single underscores may stand between them. -/
def digits? (base : Nat) : (value : Nat) → (afterDigit : Bool) → List Char → Option Nat
  | value, true, [] => some value
  | _, false, [] => none
  | value, true, '_' :: cs => digits? base value false cs
  | value, _, c :: cs =>
    match digit? c with
    | none => none
    | some d => if d < base then digits? base (value * base + d) true cs else none

/-- A decimal number, which has no zeros in front. -/
def decimal? : List Char → Option Nat
  | ['0'] => some 0
  | '0' :: _ => none
  | cs => digits? 10 0 false cs

/-- An integer.  Only decimal ones have signs. -/
def integer? : List Char → Option Int
  | '0' :: 'x' :: cs => (digits? 16 0 false cs).map Int.ofNat
  | '0' :: 'o' :: cs => (digits? 8 0 false cs).map Int.ofNat
  | '0' :: 'b' :: cs => (digits? 2 0 false cs).map Int.ofNat
  | '+' :: cs => (decimal? cs).map Int.ofNat
  | '-' :: cs => (decimal? cs).map fun n => -(n : Int)
  | cs => (decimal? cs).map Int.ofNat

/-! ## Documents -/

/-- Strings up to the closing bracket, with commas between them and perhaps one
behind the last. -/
def items? (done : List String) (cs : List Char) : Option (List String × List Char) :=
  match skipFiller? false cs with
  | none => none
  | some (']' :: rest) => some (done, rest)
  | some start =>
    match string? start with
    | none => none
    | some (s, rest) =>
      let done := done ++ [String.ofList s]
      match skipFiller? false rest with
      | some (']' :: rest) => some (done, rest)
      | some (',' :: rest) => if rest.length < cs.length then items? done rest else none
      | _ => none
termination_by cs.length

/-- A character of a word or a number. -/
def isWordPart (c : Char) : Bool := c.isAlphanum || c = '_' || c = '-'

/-- A value and the text behind it. -/
def value? : List Char → Option (Value × List Char)
  | '[' :: cs => (items? [] cs).map fun (items, rest) => (.strings items, rest)
  | cs =>
    let isPart := fun c => isWordPart c || c = '+'
    (integer? (cs.takeWhile isPart)).map fun n => (.integer n, cs.dropWhile isPart)

/-- A key and the text behind it. -/
def key? (cs : List Char) : Option (String × List Char) :=
  match lineString? cs with
  | some (key, rest) => some (String.ofList key, rest)
  | none =>
    let key := cs.takeWhile isWordPart
    if key.isEmpty then none else some (String.ofList key, cs.dropWhile isWordPart)

/-- A key, its value and the text behind their line. -/
def pair? (cs : List Char) : Option ((String × Value) × List Char) := do
  let (key, rest) ← key? cs
  match skipBlanks rest with
  | '=' :: rest =>
    let (value, rest) ← value? (skipBlanks rest)
    return ((key, value), ← lineEnd? rest)
  | _ => none

/-- Entries up to the end of the text, in order. -/
def entries? (done : List (String × Value)) (cs : List Char) : Option (List (String × Value)) :=
  match skipFiller? false cs with
  | none => none
  | some [] => some done
  | some start =>
    match pair? start with
    | none => none
    | some (e, rest) =>
      if done.any (·.1 = e.1) then none
      else if rest.length < cs.length then entries? (done ++ [e]) rest
      else none
termination_by cs.length

/-- The entries of a text.  Each key is set at most once. -/
def parse? : Settings.Reader := fun text =>
  match text.toList with
  | '\ufeff' :: cs => entries? [] cs
  | cs => entries? [] cs

end Toml

namespace Settings

/-- The settings written by a text of this format. -/
def parse (text base : String) : Except SettingsError Settings := parseWith Toml.parse? text base

/-- The settings in a file of this format. -/
def load (d : Disk) (path : String) : Except SettingsError Settings := loadWith Toml.parse? d path

end Settings
end WrenAnalysis
