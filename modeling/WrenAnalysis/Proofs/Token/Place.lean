/-
# Positions are true

Line and column are kept by counting along with every move of a stream.  They are what
they would be if they were counted anew from the start of the text: the newlines before
the offset, and the characters behind the last of these (`Position.IsPlace`).

Every stream of a text stands at a place of this sort, whatever has been taken from it
(`Lexer.At`), and so do the tokens and errors it gives.  A cursor that goes on one
character at a time would count on behind the end of the text; no scan sends it there
(`Lexer.Moves.le`), so nothing is lost by cutting the text instead
(`Lexer.advanceChar_iterate`).

The numbers are unbounded here.  Words of 32 bits would do for every text of fewer than
`2 ^ 32` characters but one: behind `2 ^ 32 - 1` newlines the line is `2 ^ 32`
(`Lexer.tail_iterate_fits`).
-/

import Mathlib.Data.List.DropRight
import WrenAnalysis.Proofs.Token.Joining
import WrenAnalysis.Proofs.Token.Tiling

namespace WrenAnalysis

/-! ### Places of a text -/

namespace Position

/-- The line, the column and the offset all say where one character of `cs` stands, or
where `cs` ends. -/
structure IsPlace (cs : List Char) (p : Position) : Prop where
  offset_le : p.offset ≤ cs.length
  /-- The line counts the newlines before the offset. -/
  line_eq : p.line = 1 + (cs.take p.offset).count '\n'
  /-- The column counts the characters behind the last newline before the offset. -/
  column_eq : p.column = ((cs.take p.offset).rtakeWhile (· ≠ '\n')).length

variable {cs : List Char} {p : Position}

/-- Behind some characters the column is the length of their last line. -/
theorem start_after_column (cs : List Char) :
    (start.after cs).column = (cs.rtakeWhile (· ≠ '\n')).length := by
  induction cs using List.reverseRecOn with
  | nil => rfl
  | append_singleton cs c ih =>
    have hlast : start.after (cs ++ [c]) = (start.after cs).next c := after_append _ _ _
    rw [hlast, next]
    by_cases hc : c = '\n'
    · rw [if_pos hc, List.rtakeWhile_concat_neg _ _ _ (by simpa using hc)]
      rfl
    · rw [if_neg hc, List.rtakeWhile_concat_pos _ _ _ (by simpa using hc), List.length_append, ← ih]
      rfl

/-- Counting from the start leads to a place. -/
theorem isPlace_start_after (pre rest : List Char) : (start.after pre).IsPlace (pre ++ rest) := by
  have hoffset : (start.after pre).offset = pre.length := by
    rw [after_offset]
    exact Nat.zero_add _
  have htake : (pre ++ rest).take (start.after pre).offset = pre := by
    rw [hoffset, List.take_left]
  refine ⟨?_, ?_, ?_⟩
  · rw [hoffset, List.length_append]
    exact Nat.le_add_right _ _
  · rw [htake, after_line]
    rfl
  · rw [htake, start_after_column]

/-- The newlines before a place and the characters of its line are different characters, so
no number at a place exceeds the length of the text by more than one. -/
theorem IsPlace.line_add_column_le (h : p.IsPlace cs) : p.line + p.column ≤ p.offset + 1 := by
  have hlast : ((cs.take p.offset).rtakeWhile (· ≠ '\n')).count '\n' = 0 := by
    refine List.count_eq_zero.2 fun hmem => ?_
    simpa using List.mem_rtakeWhile_imp hmem
  obtain ⟨front, hfront⟩ := List.rtakeWhile_suffix (· ≠ '\n') (cs.take p.offset)
  have hcount := congrArg (List.count '\n') hfront
  have hlength := congrArg List.length hfront
  rw [List.count_append, hlast] at hcount
  rw [List.length_append, List.length_take_of_le h.offset_le] at hlength
  have hle : front.count '\n' ≤ front.length := List.count_le_length
  rw [h.line_eq, h.column_eq]
  omega

/-- A line number as large as the text is long, and one more, leaves nothing but newlines. -/
theorem IsPlace.eq_replicate_of_lt_line (h : p.IsPlace cs) (hline : cs.length < p.line) :
    cs = List.replicate cs.length '\n' := by
  have hcount : (cs.take p.offset).count '\n' ≤ (cs.take p.offset).length := List.count_le_length
  have hlength : (cs.take p.offset).length = p.offset := List.length_take_of_le h.offset_le
  have hoffset := h.offset_le
  have hline_eq := h.line_eq
  have hall : (cs.take p.offset).count '\n' = (cs.take p.offset).length := by omega
  rw [List.take_of_length_le (by omega)] at hall
  exact List.eq_replicate_iff.2 ⟨rfl, fun c hc => (List.count_eq_length.1 hall c hc).symm⟩

/-- Line and column are words of 32 bits. -/
structure Fits (p : Position) : Prop where
  line_lt : p.line < UInt32.size
  column_lt : p.column < UInt32.size

/-- **Places fit in words.**  Only behind `2 ^ 32 - 1` newlines a text of fewer than `2 ^ 32`
characters has a place whose line is too large. -/
theorem IsPlace.fits (h : p.IsPlace cs) (hlen : cs.length < UInt32.size)
    (hcs : cs ≠ List.replicate (UInt32.size - 1) '\n') : p.Fits := by
  have hsum := h.line_add_column_le
  have hoffset := h.offset_le
  have hline_eq := h.line_eq
  refine ⟨?_, by omega⟩
  by_contra hline
  have hnewlines := h.eq_replicate_of_lt_line (by omega)
  have hlength : cs.length = UInt32.size - 1 := by omega
  rw [hlength] at hnewlines
  exact hcs hnewlines

end Position

namespace Lexer

open Lexeme (triviaEnd scan)

/-! ### Going on one character at a time -/

/-- The stream moved over one character.  At the end of the text the numbers go on. -/
def advanceChar (l : Lexer) : Lexer :=
  match l.ahead with
  | [] => { l with position := l.position.advance 1 }
  | c :: cs => { l with ahead := cs, position := l.position.next c }

/-- A move leaves less ahead. -/
theorem moveBy_ahead_length (l : Lexer) (n : Nat) :
    (l.moveBy n).ahead.length = l.ahead.length - n := List.length_drop

/-- Inside the text, a cut is a move over every character before it. -/
theorem advanceChar_iterate {l : Lexer} {n : Nat} (h : n ≤ l.ahead.length) :
    advanceChar^[n] l = l.moveBy n := by
  induction n generalizing l with
  | zero => rfl
  | succ n ih =>
    obtain ⟨ahead, p, finished⟩ := l
    cases ahead with
    | nil => cases h
    | cons c cs => exact (Function.iterate_succ_apply _ _ _).trans (ih (Nat.le_of_succ_le_succ h))

/-- The next step of the stream goes on by `n` characters, and may go on from there. -/
inductive Moves (l : Lexer) : (n : Nat) → Prop
  /-- Over blanks and comments. -/
  | gap {n : Nat} : triviaEnd (l.position.offset = 0) l.ahead = .ok n → Moves l n
  /-- To a comment that has no end. -/
  | openComment {e : Lexeme.Failure} :
      triviaEnd (l.position.offset = 0) l.ahead = .error e → Moves l e.offset
  /-- Over blanks, comments and a token. -/
  | token {n m : Nat} {k : Kind} :
      triviaEnd (l.position.offset = 0) l.ahead = .ok n →
      scan (l.ahead.drop n) = .ok (some (k, m)) → Moves l (n + m)
  /-- Over a comment that has no end. -/
  | unclosed {e : Lexeme.Failure} :
      triviaEnd (l.position.offset = 0) l.ahead = .error e → Moves l (l.stop e)
  /-- Over blanks and comments to what is at fault. -/
  | noToken {n : Nat} {e : Lexeme.Failure} :
      triviaEnd (l.position.offset = 0) l.ahead = .ok n →
      scan (l.ahead.drop n) = .error e → Moves l (n + e.offset)
  /-- Over blanks, comments and all that a fault takes up. -/
  | fault {n : Nat} {e : Lexeme.Failure} :
      triviaEnd (l.position.offset = 0) l.ahead = .ok n →
      scan (l.ahead.drop n) = .error e → Moves l (n + (l.moveBy n).stop e)

/-- A stream that a fault ends stops in the text. -/
theorem stop_le {l : Lexer} {e : Lexeme.Failure} (h : e.offset ≤ l.ahead.length) :
    l.stop e ≤ l.ahead.length := by
  unfold stop
  split
  · exact h
  · exact le_rfl

/-- A comment that has no end begins in the text. -/
theorem offset_le_of_triviaEnd {l : Lexer} {e : Lexeme.Failure}
    (h : triviaEnd (l.position.offset = 0) l.ahead = .error e) : e.offset ≤ l.ahead.length := by
  obtain ⟨gap, body, hahead, hoffset, -⟩ := Lexeme.unclosed_of_triviaEnd h
  rw [hahead, List.length_append, hoffset]
  exact Nat.le_add_right _ _

/-- Behind blanks and comments, what is at fault begins in the text. -/
theorem offset_le_of_scan {l : Lexer} {n : Nat} {e : Lexeme.Failure}
    (hgap : triviaEnd (l.position.offset = 0) l.ahead = .ok n)
    (hscan : scan (l.ahead.drop n) = .error e) : e.offset ≤ (l.moveBy n).ahead.length := by
  obtain ⟨gap, rest, hahead, rfl⟩ := exists_cut (Lexeme.triviaEnd_le hgap)
  have hrest : (l.moveBy gap.length).ahead = rest := by
    rw [moveBy, hahead, List.drop_left]
  rw [hahead] at hgap hscan
  rw [List.drop_left] at hscan
  rw [hrest]
  exact (Lexeme.faulty_of_scan (Lexeme.skipped_of_triviaEnd hgap).2 hscan).place_le

/-- No step goes on behind the end of the text. -/
theorem Moves.le {l : Lexer} {n : Nat} (h : l.Moves n) : n ≤ l.ahead.length := by
  cases h with
  | gap hgap => exact Lexeme.triviaEnd_le hgap
  | openComment hgap => exact offset_le_of_triviaEnd hgap
  | unclosed hgap => exact stop_le (offset_le_of_triviaEnd hgap)
  | token hgap hscan =>
    have hle := Lexeme.triviaEnd_le hgap
    have htoken := (Lexeme.scan_bounds hscan).2
    rw [List.length_drop] at htoken
    omega
  | noToken hgap hscan =>
    have hle := Lexeme.triviaEnd_le hgap
    have hfault := offset_le_of_scan hgap hscan
    rw [moveBy_ahead_length] at hfault
    omega
  | fault hgap hscan =>
    have hle := Lexeme.triviaEnd_le hgap
    have hstop := stop_le (offset_le_of_scan hgap hscan)
    rw [moveBy_ahead_length] at hstop
    omega

/-! ### The streams of a text -/

/-- The stream behind its next token or error; one that has ended stays as it is. -/
def tail (l : Lexer) : Lexer := (l.next?.map Prod.snd).getD l

/-- The stream stands somewhere in `cs`, with the position that counting gives. -/
def At (cs : List Char) (l : Lexer) : Prop :=
  ∃ pre, cs = pre ++ l.ahead ∧ l.position = Position.start.after pre

variable {cs : List Char} {l l' : Lexer} {r : Except LexicalError Token}

/-- A stream in a text is at a place of the text. -/
theorem At.isPlace (h : l.At cs) : l.position.IsPlace cs := by
  obtain ⟨pre, hcs, hposition⟩ := h
  rw [hposition, hcs]
  exact Position.isPlace_start_after pre l.ahead

/-- The stream of a text begins in it. -/
theorem at_ofText (text : String) : (ofText text).At text.toList := ⟨[], rfl, rfl⟩

/-- Whether more will come says nothing of the place. -/
theorem At.finish (h : l.At cs) : At cs { l with finished := true } := h

/-- A move stays in the text. -/
theorem At.moveBy (h : l.At cs) (n : Nat) : (l.moveBy n).At cs := by
  obtain ⟨pre, hcs, hposition⟩ := h
  refine ⟨pre ++ l.ahead.take n, ?_, ?_⟩
  · rw [List.append_assoc, hcs]
    exact congrArg (pre ++ ·) (List.take_append_drop n l.ahead).symm
  · rw [Position.after_append, ← hposition]
    rfl

/-- What a step gives, and the stream behind it, are at places of the text; a token ends
where the stream goes on. -/
structure Placed (cs : List Char) (r : Except LexicalError Token) (l' : Lexer) : Prop where
  token : ∀ t, r = .ok t → t.position.IsPlace cs ∧ t.range.2 = l'.position.offset
  error : ∀ e, r = .error e → e.position.IsPlace cs
  behind : l'.At cs

/-- A fault is at a place of the text, and the stream behind it too. -/
theorem At.placed_fail (h : l.At cs) (e : Lexeme.Failure) :
    Placed cs (l.fail e).1 (l.fail e).2 where
  token := nofun
  error := by
    rintro _ ⟨⟩
    exact (h.moveBy e.offset).isPlace
  behind := (h.moveBy (l.stop e)).finish

/-- A token is at a place of the text, and the stream behind it too. -/
theorem At.placed_readToken (h : l.At cs) : Placed cs l.readToken.1 l.readToken.2 := by
  unfold readToken
  split
  · exact h.placed_fail _
  · exact ⟨by rintro _ ⟨⟩; exact ⟨h.isPlace, rfl⟩, nofun, h.finish⟩
  · next k n hscan =>
    refine ⟨?_, nofun, h.moveBy n⟩
    rintro _ ⟨⟩
    refine ⟨h.isPlace, ?_⟩
    simp [Token.range, Token.length, Lexer.moveBy]

/-- One step. -/
theorem At.placed_next? (h : l.At cs) (hnext : l.next? = some (r, l')) : Placed cs r l' := by
  unfold next? at hnext
  split at hnext
  · cases hnext
  · split at hnext
    · next e _ =>
      cases hnext
      exact h.placed_fail e
    · next n _ =>
      have hplaced := (h.moveBy n).placed_readToken
      rw [Option.some.inj hnext] at hplaced
      exact hplaced

/-- One step stays in the text. -/
theorem At.tail (h : l.At cs) : l.tail.At cs := by
  unfold Lexer.tail
  cases hnext : l.next? with
  | none => exact h
  | some step => exact (h.placed_next? hnext).behind

/-- Any number of steps. -/
theorem at_tail_iterate (text : String) (n : Nat) : (tail^[n] (ofText text)).At text.toList := by
  induction n with
  | zero => exact at_ofText text
  | succ n ih =>
    rw [Function.iterate_succ_apply']
    exact ih.tail

/-- **Positions are true.**  However often a stream has been asked for its next token, its
cursor, the token or the error that comes next and the end of that token are at places of
the text, and no scan has sent the cursor behind the end of the text. -/
theorem tail_iterate_places (text : String) (n : Nat) :
    let l := tail^[n] (ofText text)
    l.position.IsPlace text.toList ∧
      (∀ m, l.Moves m → advanceChar^[m] l = l.moveBy m) ∧
      match l.next? with
      | none => True
      | some (.ok t, l') => t.position.IsPlace text.toList ∧ t.range.2 = l'.position.offset
      | some (.error e, _) => e.position.IsPlace text.toList := by
  intro l
  have hat : l.At text.toList := at_tail_iterate text n
  refine ⟨hat.isPlace, fun m hm => advanceChar_iterate hm.le, ?_⟩
  split
  · trivial
  · next t l' hnext => exact (hat.placed_next? hnext).token t rfl
  · next e l' hnext => exact (hat.placed_next? hnext).error e rfl

/-- **Positions fit in words** of 32 bits, and so do the lengths of tokens, in every text of
fewer than `2 ^ 32` characters that is not `2 ^ 32 - 1` newlines. -/
theorem tail_iterate_fits (text : String) (n : Nat) (hlen : text.toList.length < UInt32.size)
    (htext : text.toList ≠ List.replicate (UInt32.size - 1) '\n') :
    let l := tail^[n] (ofText text)
    l.position.Fits ∧ ∀ r l', l.next? = some (r, l') →
      (∀ t, r = .ok t → t.position.Fits ∧ t.length < UInt32.size) ∧
        ∀ e, r = .error e → e.position.Fits := by
  intro l
  have hat : l.At text.toList := at_tail_iterate text n
  refine ⟨hat.isPlace.fits hlen htext, fun r l' hnext => ?_⟩
  have hplaced := hat.placed_next? hnext
  refine ⟨fun t ht => ?_, fun e he => (hplaced.error e he).fits hlen htext⟩
  obtain ⟨hplace, hrange⟩ := hplaced.token t ht
  have hend := hplaced.behind.isPlace.offset_le
  refine ⟨hplace.fits hlen htext, ?_⟩
  rw [Token.range] at hrange
  dsimp only at hrange
  omega

/-- Behind a string of two lines. -/
example : (tail (ofText "\"a\nb\" c")).position = ⟨2, 2, 5⟩ := by decide

end Lexer
end WrenAnalysis
