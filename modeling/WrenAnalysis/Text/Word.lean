/-
# Numbers of a machine word

Columns and budgets are numbers below `2 ^ 64`.
-/

namespace WrenAnalysis
namespace Text

/-- The first number that is too large for a word of 64 bits. -/
def wordLimit : Nat := 0x10000000000000000

/-- A number that fits a word, in decimal digits, with a plus sign in front or none. -/
def word? (text : String) : Option Nat :=
  let digits := match text.toList with
    | '+' :: cs => cs
    | cs => cs
  if digits.isEmpty ∨ !digits.all Char.isDigit then none
  else
    let n := digits.foldl (fun n c => n * 10 + (c.toNat - '0'.toNat)) 0
    if n < wordLimit then some n else none

end Text
end WrenAnalysis
