/-
# Character classes as ranges of code points

A character class outside ASCII is a table of closed ranges of code points in
increasing order.  Asking for one is a walk along the table; no table is long
enough for anything faster to pay.
-/

namespace WrenAnalysis
namespace Text

/-- A closed range of code points, first and last. -/
abbrev CodeRange := Nat × Nat

/-- The code point of `c` lies in one of the ranges. -/
def inRanges (ranges : List CodeRange) (c : Char) : Bool :=
  ranges.any fun r => r.1 ≤ c.toNat && c.toNat ≤ r.2

/-- ASCII characters have code points below 128. -/
def isAscii (c : Char) : Bool := c.toNat < 128

end Text
end WrenAnalysis
