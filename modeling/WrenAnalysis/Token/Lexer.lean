/-
# The token stream of a text

A lexer is the text still ahead and the position it has reached.  A step
(`Lexer.next?`) skips the blanks and comments, cuts off one token, and moves the
position over every character it leaves behind.  The stream ends behind the one
token that marks the end of the text, and behind the first error.
-/

import WrenAnalysis.Token.Basic
import WrenAnalysis.Token.Extent

namespace WrenAnalysis

/-- A place in the token stream of a text. -/
structure Lexer where
  /-- The text still ahead. -/
  ahead : List Char
  /-- The place of its first character. -/
  position : Position
  /-- Nothing more will come. -/
  finished : Bool := false
  deriving DecidableEq, Repr

namespace Lexer

/-- The stream of all characters `cs`. -/
def ofChars (cs : List Char) : Lexer := { ahead := cs, position := .start }

/-- The stream of a whole text. -/
def ofText (text : String) : Lexer := ofChars text.toList

/-- The stream moved on by `n` characters. -/
def moveBy (l : Lexer) (n : Nat) : Lexer :=
  { l with ahead := l.ahead.drop n, position := l.position.after (l.ahead.take n) }

/-- The characters passed at a fault.  A character that starts no token stays
ahead; every other fault shows only at the end of the text. -/
def stop (l : Lexer) (e : Lexeme.Failure) : Nat :=
  match e.fault with
  | .unrecognized _ => e.offset
  | _ => l.ahead.length

/-- The stream ended by a fault. -/
def fail (l : Lexer) (e : Lexeme.Failure) : Except LexicalError Token × Lexer :=
  (.error ⟨e.fault, (l.moveBy e.offset).position⟩, { l.moveBy (l.stop e) with finished := true })

/-- The token at the front of the stream, with no blanks or comments before it. -/
def readToken (l : Lexer) : Except LexicalError Token × Lexer :=
  match Lexeme.scan l.ahead with
  | .error e => l.fail e
  | .ok none => (.ok (.eof l.position), { l with finished := true })
  | .ok (some (kind, n)) =>
    (.ok ⟨kind, String.ofList (l.ahead.take n), l.position⟩, l.moveBy n)

/-- The next token or the error that ends the stream, with the stream behind
it; nothing once the stream has ended. -/
def next? (l : Lexer) : Option (Except LexicalError Token × Lexer) :=
  if l.finished then none
  else
    match Lexeme.triviaEnd (l.position.offset = 0) l.ahead with
    | .error e => some (l.fail e)
    | .ok n => some (l.moveBy n).readToken

/-- What a stream can still give: nothing once it has ended. -/
def weight (l : Lexer) : Nat := if l.finished then 0 else l.ahead.length + 1

/-- A stream that has ended gives nothing more. -/
theorem weight_eq_zero {l : Lexer} (h : l.finished = true) : l.weight = 0 := by simp [weight, h]

/-- Until then it can give a token for each character ahead, and the end of the text. -/
theorem weight_eq {l : Lexer} (h : ¬l.finished = true) : l.weight = l.ahead.length + 1 := by
  simp [weight, h]

/-- A token takes at least one character, and the end of the text ends the stream. -/
theorem weight_readToken {l : Lexer} (h : ¬l.finished = true) :
    l.readToken.2.weight < l.ahead.length + 1 := by
  unfold readToken
  split
  · rw [weight_eq_zero rfl]; omega
  · rw [weight_eq_zero rfl]; omega
  · next hscan =>
    rw [weight_eq (by simpa [moveBy] using h)]
    have := Lexeme.scan_bounds hscan
    simp only [moveBy, List.length_drop]
    omega

/-- Every step takes something from the stream. -/
theorem weight_lt_of_next? {l l' : Lexer} {r : Except LexicalError Token}
    (h : l.next? = some (r, l')) : l'.weight < l.weight := by
  unfold next? at h
  split at h
  · simp at h
  next hf =>
  rw [weight_eq hf]
  split at h
  · cases h; rw [weight_eq_zero rfl]; omega
  next n _ =>
  have lt := weight_readToken (l := l.moveBy n) (by simpa [moveBy] using hf)
  rw [Option.some.inj h] at lt
  simp only [moveBy, List.length_drop] at lt
  omega

/-- All tokens still to come, and the error that ends them, if one does. -/
def run (l : Lexer) : List Token × Option LexicalError :=
  match _h : l.next? with
  | none => ([], none)
  | some (.error e, _) => ([], some e)
  | some (.ok t, l') =>
    let (ts, e) := l'.run
    (t :: ts, e)
termination_by l.weight
decreasing_by exact weight_lt_of_next? _h

end Lexer

namespace Token

/-- The tokens of a text, the end of the text included, or the first error. -/
def tokenize (text : String) : Except LexicalError (List Token) :=
  match (Lexer.ofText text).run with
  | (ts, none) => .ok ts
  | (_, some e) => .error e

/-- The tokens in front of the first error: the best that can be said of a text
that is still being written. -/
def tokenizePrefix (text : String) : List Token := (Lexer.ofText text).run.1

end Token
end WrenAnalysis
