/-
# Texts joined by a newline

A newline behind a text that is cut into tokens is a token of its own: no comment, string
or number goes on behind it.  What follows the newline is cut as if it stood alone, its
tokens moved down and forward (`Token.tokenize_join`).
-/

import WrenAnalysis.Proofs.Token.Stream

namespace WrenAnalysis

/-! ### Moved positions -/

namespace Position

/-- The place `lines` lines further down and `n` characters further on, in the same
column. -/
def moved (lines n : Nat) (p : Position) : Position := ⟨p.line + lines, p.column, p.offset + n⟩

variable {lines n : Nat}

/-- Moved places move on alike. -/
theorem next_moved (p : Position) (c : Char) :
    (p.moved lines n).next c = (p.next c).moved lines n := by
  unfold next
  split <;> simp only [moved, Nat.add_right_comm]

/-- Moved places stay moved behind any characters. -/
theorem after_moved (p : Position) (cs : List Char) :
    (p.moved lines n).after cs = (p.after cs).moved lines n := by
  induction cs generalizing p with
  | nil => rfl
  | cons c cs ih => rw [after_cons, next_moved, ih, after_cons]

/-- The line counts newlines. -/
theorem after_line (p : Position) (cs : List Char) :
    (p.after cs).line = p.line + cs.count '\n' := by
  induction cs generalizing p with
  | nil => rfl
  | cons c cs ih =>
    rw [after_cons, ih, List.count_cons, next]
    split
    · next hc =>
      rw [hc, beq_self_eq_true, if_pos rfl]
      show p.line + 1 + cs.count '\n' = p.line + (cs.count '\n' + 1)
      omega
    · next hc => simp [hc]

/-- Behind a newline, a text starts again further down. -/
theorem next_newline (p : Position) : p.next '\n' = start.moved p.line (p.offset + 1) := by
  simp [next, moved, start, Nat.add_comm]

end Position

/-- The token at a place that is `lines` lines down and `n` characters on. -/
def Token.moved (lines n : Nat) (t : Token) : Token :=
  { t with position := t.position.moved lines n }

/-- The error at a place that is `lines` lines down and `n` characters on. -/
def LexicalError.moved (lines n : Nat) (e : LexicalError) : LexicalError :=
  { e with position := e.position.moved lines n }

/-! ### A newline behind a text -/

namespace Lexeme

variable {cs : List Char}

/-- What stands at the front of a text with a newline behind it, and holds no newline,
stands at the front of the text. -/
theorem isPrefix_of_newline {u after : List Char} (hu : '\n' ∉ u)
    (h : u <+: cs ++ '\n' :: after) : u <+: cs := by
  obtain ⟨t, ht⟩ := h
  rcases List.append_eq_append_iff.1 ht with ⟨r, rfl, -⟩ | ⟨_ | ⟨c, r⟩, rfl, hr⟩
  · exact List.prefix_append u r
  · rw [List.append_nil]
  · obtain ⟨rfl, -⟩ := List.cons.inj hr
    exact absurd (List.mem_append_right cs List.mem_cons_self) hu

/-- Blanks and comments that end with a text end at the newline behind it, and those that
end before end there still. -/
theorem gapEnd_newline {g : Gap} {n m : Nat} (h : gapEnd g n cs = .ok m) (after : List Char) :
    gapEnd g n (cs ++ '\n' :: after) = .ok m := by
  fun_induction gapEnd g n cs with
  | case1 n cs ih | case2 n cs ih | case3 n cs ih | case4 n cs ih | case5 n cs ih
  | case11 depth start n cs ih | case12 start n cs ih | case13 depth start n cs ih =>
    simpa [gapEnd] using ih h
  | case6 cs n hblank htab hreturn hline hblock =>
    have hline' : ∀ u ∈ [[' '], ['\t'], ['\r'], ['/', '/'], ['/', '*']], '\n' ∉ u := by decide
    have hfront : ∀ u ∈ [[' '], ['\t'], ['\r'], ['/', '/'], ['/', '*']],
        ∀ ds, cs ++ '\n' :: after ≠ u ++ ds := by
      intro u hu ds hds
      obtain ⟨t, rfl⟩ : u <+: cs := isPrefix_of_newline (hline' u hu) ⟨ds, hds.symm⟩
      simp only [List.mem_cons, List.not_mem_nil, or_false] at hu
      rcases hu with rfl | rfl | rfl | rfl | rfl
      · exact hblank t rfl
      · exact htab t rfl
      · exact hreturn t rfl
      · exact hline t rfl
      · exact hblock t rfl
    rw [gapEnd]
    · exact h
    · exact hfront [' '] (by simp)
    · exact hfront ['\t'] (by simp)
    · exact hfront ['\r'] (by simp)
    · exact hfront ['/', '/'] (by simp)
    · exact hfront ['/', '*'] (by simp)
  | case7 n => exact h
  | case8 n cs => exact h
  | case9 n c cs hc ih =>
    rw [List.cons_append, gapEnd]
    · exact ih h
    · exact hc
  | case10 n depth start => cases h
  | case14 depth start n c cs hopen hlast hclose ih =>
    have hfront : ∀ a b, a ≠ '\n' → b ≠ '\n' → (∀ ds, c = a → cs = b :: ds → False) →
        ∀ ds, c = a → cs ++ '\n' :: after = b :: ds → False := by
      rintro a b ha hb hno ds rfl hds
      obtain ⟨t, rfl⟩ : [b] <+: cs := isPrefix_of_newline (by simpa using hb.symm) ⟨ds, hds.symm⟩
      exact hno t rfl rfl
    rw [List.cons_append, gapEnd]
    · exact ih h
    · exact hfront '/' '*' (by decide) (by decide) hopen
    · rintro ds rfl
      exact hfront '*' '/' (by decide) (by decide) (fun es => hlast es rfl) ds
    · rintro d ds rfl
      exact hfront '*' '/' (by decide) (by decide) (fun es => hclose d es rfl) ds

/-- A newline ends the blanks and comments before it at the latest. -/
theorem triviaEnd_newline {atStart : Bool} {m : Nat} (h : triviaEnd atStart cs = .ok m)
    (after : List Char) : triviaEnd atStart (cs ++ '\n' :: after) = .ok m := by
  unfold triviaEnd at h
  split at h
  · next ds =>
    cases atStart with
    | true => exact gapEnd_newline h after
    | false => exact h
  · next hno =>
    rw [triviaEnd]
    · exact gapEnd_newline h after
    · intro ds hds
      obtain ⟨t, rfl⟩ := isPrefix_of_newline (u := ['#', '!']) (by decide) ⟨ds, hds.symm⟩
      exact hno t rfl

end Lexeme

namespace Lexer

open Lexeme (triviaEnd)

variable {p : Position} {cs after : List Char} {ts us : List Token} {e : Option LexicalError}

/-- A newline ends the tokens before it and starts those behind it. -/
theorem Streams.join (h : Streams p cs ts none)
    (hafter : Streams ((p.after cs).next '\n') after us e) :
    ∃ before, ts = before ++ [.eof (p.after cs)] ∧
      Streams p (cs ++ '\n' :: after) (before ++ ⟨.line, "\n", p.after cs⟩ :: us) e := by
  generalize he : (none : Option LexicalError) = e' at h
  induction h with
  | @eof p gap hgap =>
    have hnext : Streams (p.after (gap ++ ['\n'])) after us e := by
      rwa [Position.after_append]
    exact ⟨[], rfl, .token (Lexeme.triviaEnd_newline hgap after) rfl hnext⟩
  | @token p gap u rest k ts _ hgap hscan _ ih =>
    have hend : (p.after (gap ++ u)).after rest = p.after (gap ++ (u ++ rest)) := by
      rw [← Position.after_append, List.append_assoc]
    rw [hend] at ih
    obtain ⟨before, rfl, hrest⟩ := ih hafter he
    refine ⟨⟨k, .ofList u, p.after gap⟩ :: before, rfl, ?_⟩
    have hgap' := Lexeme.triviaEnd_newline hgap after
    have hseen := Lexeme.lookahead_unseen rest (c := '\n') (by decide) after
    have hshares : Lexeme.Shares u.length (u ++ rest) (u ++ (rest ++ '\n' :: after)) :=
      Lexeme.shares_append u (hseen ▸ List.prefix_refl _)
    have hscan' := Lexeme.scan_eq_ok_iff.2 ((Lexeme.scan_eq_ok_iff.1 hscan).shares hshares)
    rw [List.append_assoc, List.append_assoc] at hgap' ⊢
    exact .token hgap' hscan' hrest
  | openComment | noToken => cases he

/-- Whether a text starts here is of no matter but for a line that starts with `#!`. -/
theorem triviaEnd_of_not_shebang (h : ¬ ['#', '!'] <+: cs) (atStart atStart' : Bool) :
    triviaEnd atStart cs = triviaEnd atStart' cs := by
  have hno : ∀ ds, cs = '#' :: '!' :: ds → False := by
    rintro ds rfl
    exact h (List.prefix_append ['#', '!'] ds)
  rw [triviaEnd, triviaEnd]
  all_goals exact hno

/-- Where a text is moved to matters only for a first line that starts with `#!`. -/
theorem triviaEnd_moved {lines n : Nat}
    (hstart : p.offset = 0 → ¬ ['#', '!'] <+: cs) :
    triviaEnd ((p.moved lines n).offset = 0) cs = triviaEnd (p.offset = 0) cs := by
  by_cases h0 : p.offset = 0
  · exact triviaEnd_of_not_shebang (hstart h0) _ _
  · have hmoved : (p.moved lines n).offset ≠ 0 := by
      simp only [Position.moved]
      omega
    simp only [h0, hmoved]

/-- A stream that starts elsewhere is the same stream elsewhere. -/
theorem Streams.moved (h : Streams p cs ts e) (lines n : Nat)
    (hstart : p.offset = 0 → ¬ ['#', '!'] <+: cs) :
    Streams (p.moved lines n) cs (ts.map (.moved lines n)) (e.map (.moved lines n)) := by
  induction h with
  | eof hgap =>
    rw [← triviaEnd_moved hstart] at hgap
    have := Streams.eof hgap
    rwa [Position.after_moved] at this
  | @token p gap u rest k ts _ hgap hscan _ ih =>
    rw [← triviaEnd_moved hstart] at hgap
    have hpos := (Lexeme.scan_bounds hscan).1
    have hrest := ih (by rw [Position.after_offset, List.length_append]; omega)
    rw [← Position.after_moved] at hrest
    have := Streams.token hgap hscan hrest
    rwa [Position.after_moved] at this
  | openComment hgap =>
    rw [← triviaEnd_moved hstart] at hgap
    have := Streams.openComment hgap
    rwa [Position.after_moved] at this
  | noToken hgap hscan =>
    rw [← triviaEnd_moved hstart] at hgap
    have := Streams.noToken hgap hscan
    rwa [Position.after_moved] at this

end Lexer

namespace Token

variable {text text' : String} {ts ts' : List Token}

/-- **Two texts joined by a newline** have the tokens of the first, the newline where the
first one ends, and the tokens of the second, moved. -/
theorem tokenize_join (h : tokenize text = .ok ts) (h' : tokenize text' = .ok ts')
    (hstart : ¬ ['#', '!'] <+: text'.toList) :
    ∃ us p, ts = us ++ [.eof p] ∧ (∀ t ∈ us, t.Proper) ∧
      tokenize (text ++ "\n" ++ text') = .ok (us ++ ⟨.line, "\n", p⟩ ::
        ts'.map (.moved (1 + text.toList.count '\n') (text.length + 1))) := by
  have hstream := tokenize_eq_ok_iff.1 h
  have hmoved := (tokenize_eq_ok_iff.1 h').moved (1 + text.toList.count '\n') (text.length + 1)
    fun _ => hstart
  have hnext : (Position.start.after text.toList).next '\n' =
      Position.start.moved (1 + text.toList.count '\n') (text.length + 1) := by
    rw [Position.next_newline, Position.after_line, Position.after_offset, String.length_toList]
    simp [Position.start]
  rw [← hnext] at hmoved
  obtain ⟨us, hts, hus⟩ := hstream.ends
  obtain ⟨before, hbefore, hjoin⟩ := hstream.join hmoved
  rw [hts, List.append_left_inj] at hbefore
  subst hbefore
  refine ⟨us, _, hts, hus, tokenize_eq_ok_iff.2 ?_⟩
  simpa using hjoin

end Token
end WrenAnalysis
