/-
# Positions in a text

A position is a line, a column and an offset, all counted in characters.  It
only ever moves over characters of the text (`Position.next`, `Position.after`),
so that the three numbers always describe the same place.
-/

namespace WrenAnalysis

/-- A place in a text: the line from 1, the column in that line from 0, and the
number of characters before it. -/
structure Position where
  line : Nat
  column : Nat
  offset : Nat
  deriving DecidableEq, Repr, Inhabited

namespace Position

/-- The place before the first character. -/
def start : Position := ⟨1, 0, 0⟩

/-- The place behind `c` when `c` stands at `p`. -/
def next (p : Position) (c : Char) : Position :=
  if c = '\n' then ⟨p.line + 1, 0, p.offset + 1⟩ else ⟨p.line, p.column + 1, p.offset + 1⟩

/-- The place behind the characters `cs` when they stand at `p`. -/
def after (p : Position) (cs : List Char) : Position := cs.foldl next p

/-- The place `n` characters further on in the same line. -/
def advance (p : Position) (n : Nat) : Position := ⟨p.line, p.column + n, p.offset + n⟩

/-- Line and column, as messages name a place. -/
def text (p : Position) : String := s!"{p.line}:{p.column}"

/-- Nothing is passed over no characters. -/
@[simp]
theorem after_nil (p : Position) : p.after [] = p := rfl

/-- The characters are passed one by one. -/
@[simp]
theorem after_cons (p : Position) (c : Char) (cs : List Char) :
    p.after (c :: cs) = (p.next c).after cs := rfl

/-- A text is passed by its parts. -/
theorem after_append (p : Position) (cs ds : List Char) :
    p.after (cs ++ ds) = (p.after cs).after ds := List.foldl_append

/-- Every character counts for the offset, newlines included. -/
@[simp]
theorem next_offset (p : Position) (c : Char) : (p.next c).offset = p.offset + 1 := by
  unfold next; split <;> rfl

/-- The offset counts characters. -/
@[simp]
theorem after_offset (p : Position) (cs : List Char) :
    (p.after cs).offset = p.offset + cs.length := by
  induction cs generalizing p with
  | nil => rfl
  | cons c cs ih => simp only [after_cons, ih, next_offset, List.length_cons]; omega

end Position
end WrenAnalysis
