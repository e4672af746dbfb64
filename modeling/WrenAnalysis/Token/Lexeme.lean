/-
# The characters of one token

Each function here takes the text from some character on and tells how far a
construct reaches: the number of characters up to the end of the blanks and
comments (`triviaEnd`), of a name, a number, a string.  Nothing here knows about
positions.  A fault comes with the number of characters before the construct that
is at fault, so its place can be found later.

Strings nest through interpolations, `"a %(f("b")) c"`.  The strings that are
open at a character form a stack, and the scan runs once along the characters
with that stack.
-/

import WrenAnalysis.Token.Fault
import WrenAnalysis.Token.Kind
import WrenAnalysis.Token.Name

namespace WrenAnalysis
namespace Lexeme

/-- A fault, and the number of characters before the construct it is in. -/
structure Failure where
  fault : LexicalFault
  offset : Nat
  deriving DecidableEq, Repr

/-- What a scan of blanks and comments is in the middle of. -/
inductive Gap where
  /-- Between two constructs. -/
  | blank
  /-- In a comment that ends before the next newline. -/
  | line
  /-- In `depth + 1` nested block comments, with `start` characters before the
  outermost one. -/
  | block (depth : Nat) (start : Nat)
  deriving DecidableEq, Repr

/-- The end of the blanks and comments, `n` characters of which have been passed. -/
def gapEnd : Gap → (n : Nat) → List Char → Except Failure Nat
  | .blank, n, ' ' :: cs => gapEnd .blank (n + 1) cs
  | .blank, n, '\t' :: cs => gapEnd .blank (n + 1) cs
  | .blank, n, '\r' :: cs => gapEnd .blank (n + 1) cs
  | .blank, n, '/' :: '/' :: cs => gapEnd .line (n + 2) cs
  | .blank, n, '/' :: '*' :: cs => gapEnd (.block 0 n) (n + 2) cs
  | .blank, n, _ => .ok n
  | .line, n, [] => .ok n
  | .line, n, '\n' :: _ => .ok n
  | .line, n, _ :: cs => gapEnd .line (n + 1) cs
  | .block _ start, _, [] => .error ⟨.unterminatedComment, start⟩
  | .block depth start, n, '/' :: '*' :: cs => gapEnd (.block (depth + 1) start) (n + 2) cs
  | .block 0 _, n, '*' :: '/' :: cs => gapEnd .blank (n + 2) cs
  | .block (depth + 1) start, n, '*' :: '/' :: cs => gapEnd (.block depth start) (n + 2) cs
  | .block depth start, n, _ :: cs => gapEnd (.block depth start) (n + 1) cs

/-- The end of the blanks and comments in front of a token.  At the very start of
a text, a line that starts with `#!` is a comment too. -/
def triviaEnd (atStart : Bool) : List Char → Except Failure Nat
  | '#' :: '!' :: cs => if atStart then gapEnd .line 2 cs else .ok 0
  | cs => gapEnd .blank 0 cs

/-- The end of a run of characters of a class. -/
def runEnd (p : Char → Bool) (cs : List Char) : Nat := (cs.takeWhile p).length

/-- The end of a name. -/
def nameEnd (cs : List Char) : Nat := runEnd Text.isNamePart cs

/-- A digit of a hexadecimal number. -/
def isHexDigit (c : Char) : Bool :=
  c.isDigit || ('a' ≤ c && c ≤ 'f') || ('A' ≤ c && c ≤ 'F')

/-- The end of a point and digits, if a digit follows the point: in `1..2` and
`1.abs` the point is no part of the number. -/
def fractionEnd : List Char → Nat
  | '.' :: c :: cs => if c.isDigit then runEnd Char.isDigit cs + 2 else 0
  | _ => 0

/-- The end of the digits of an exponent, of which there is at least one.  A sign
may stand before them. -/
def exponentDigitsEnd : List Char → Nat
  | [] => 0
  | c :: cs =>
    if c.isDigit then runEnd Char.isDigit cs + 1
    else if c = '+' ∨ c = '-' then
      match cs with
      | [] => 0
      | d :: ds => if d.isDigit then runEnd Char.isDigit ds + 2 else 0
    else 0

/-- The end of an exponent.  Without digits there is none. -/
def exponentEnd : List Char → Nat
  | [] => 0
  | e :: cs =>
    if e = 'e' ∨ e = 'E' then
      match exponentDigitsEnd cs with
      | 0 => 0
      | n + 1 => n + 2
    else 0

/-- The end of a decimal number that starts `cs`. -/
def decimalEnd (cs : List Char) : Nat :=
  let whole := runEnd Char.isDigit cs
  let fraction := fractionEnd (cs.drop whole)
  whole + fraction + exponentEnd (cs.drop (whole + fraction))

/-- The end of a number that starts `cs`. -/
def numberEnd : List Char → Nat
  | '0' :: 'x' :: cs => runEnd isHexDigit cs + 2
  | '0' :: 'X' :: cs => runEnd isHexDigit cs + 2
  | cs => decimalEnd cs

/-- The end of the three quotes that close a raw string, `n` characters of which
have been passed. -/
def rawStringEnd? : (n : Nat) → List Char → Option Nat
  | _, [] => none
  | n, '"' :: '"' :: '"' :: _ => some (n + 3)
  | n, _ :: cs => rawStringEnd? (n + 1) cs

/-- A string around another one, which stands in its interpolation. -/
structure OpenString where
  /-- The number of characters before its opening quote. -/
  start : Nat
  /-- The parentheses open in its interpolation. -/
  depth : Nat
  deriving DecidableEq, Repr

/-- The end of the outermost open string, `n` characters of which have been
passed.  The innermost one has `depth` parentheses open in its interpolation, none
outside of one, and `start` characters before it; `outer` are those around it, from
the inside out. -/
def stringEnd :
    (depth : Nat) → (start : Nat) → (outer : List OpenString) → (n : Nat) → List Char →
      Except Failure Nat
  | 0, start, _, _, [] => .error ⟨.unterminatedString, start⟩
  | 0, _, [], n, '"' :: _ => .ok (n + 1)
  | 0, _, o :: outer, n, '"' :: cs => stringEnd o.depth o.start outer (n + 1) cs
  | 0, start, _, _, ['\\'] => .error ⟨.incompleteEscape, start⟩
  | 0, start, outer, n, '\\' :: _ :: cs => stringEnd 0 start outer (n + 2) cs
  | 0, start, outer, n, '%' :: '(' :: cs => stringEnd 1 start outer (n + 2) cs
  | 0, start, outer, n, _ :: cs => stringEnd 0 start outer (n + 1) cs
  | _ + 1, start, _, _, [] => .error ⟨.unterminatedInterpolation, start⟩
  | depth + 1, start, outer, n, '(' :: cs => stringEnd (depth + 2) start outer (n + 1) cs
  | depth + 1, start, outer, n, ')' :: cs => stringEnd depth start outer (n + 1) cs
  | depth + 1, start, outer, n, '"' :: cs => stringEnd 0 n (⟨start, depth + 1⟩ :: outer) (n + 1) cs
  | depth + 1, start, outer, n, _ :: cs => stringEnd (depth + 1) start outer (n + 1) cs

/-- The end of a string that starts a text with its opening quote, which is not part
of `cs`.  Three quotes open a raw string. -/
def anyStringEnd : (cs : List Char) → Except Failure Nat
  | '"' :: '"' :: cs =>
    match rawStringEnd? 3 cs with
    | some n => .ok n
    | none => .error ⟨.unterminatedRawString, 0⟩
  | cs => stringEnd 0 0 [] 1 cs

/-- The kind of the token that starts a text, and its end; the text starts with
neither a blank nor a comment.  At the end of the text there is no token. -/
def scan : List Char → Except Failure (Option (Kind × Nat))
  | [] => .ok none
  | '\n' :: _ => .ok (some (.line, 1))
  | '"' :: cs => (anyStringEnd cs).map fun n => some (.string, n)
  | c :: cs =>
    if c.isDigit then .ok (some (.number, numberEnd (c :: cs)))
    else if Text.isNameStart c then
      let n := nameEnd (c :: cs)
      .ok (some (.ofWord (String.ofList ((c :: cs).take n)), n))
    else
      match Symbol.read (c :: cs) with
      | some s => .ok (some (.symbol s, s.spelling.length))
      | none => .error ⟨.unrecognized c, 0⟩

end Lexeme
end WrenAnalysis
