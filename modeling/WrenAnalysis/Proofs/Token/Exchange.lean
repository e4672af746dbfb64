/-
# What stands behind a token may be exchanged

Where a token ends in front of a character that a scan never has to look at, the characters
from there on may be exchanged for others: what is skipped is skipped in front of them as
well (`Lexeme.gapEnd_exchange`), and the tokens up to there are the same
(`Lexer.Streams.exchange`).
-/

import WrenAnalysis.Proofs.Token.Cutting
import WrenAnalysis.Proofs.Token.Spacing

namespace WrenAnalysis
namespace Lexeme

variable {gap rest rest' : List Char} {n m : Nat}

/-- A comment that is open ends behind the characters passed so far. -/
theorem lt_of_gapEnd_block {depth start : Nat} {cs : List Char}
    (h : gapEnd (.block depth start) n cs = .ok m) : n < m := by
  generalize hg : Gap.block depth start = g at h
  fun_induction gapEnd g n cs generalizing depth start with
  | case10 => cases h
  | case11 _ _ n _ ih | case13 _ _ n _ ih => exact Nat.lt_of_succ_lt (Nat.lt_of_succ_lt (ih rfl h))
  | case12 => exact Nat.lt_of_succ_lt (le_of_gapEnd h)
  | case14 _ _ _ _ _ _ _ _ ih => exact Nat.lt_of_succ_lt (ih rfl h)
  | _ => cases hg

/-- A line comment ends where its line does. -/
theorem gapEnd_of_lineEnd (h : LineEnd rest) : gapEnd .line n rest = .ok n := by
  cases rest with
  | nil => rfl
  | cons c rest =>
    obtain rfl := h c rfl
    rfl

/-- Of two ways to cut a text, the shorter front is that of the longer one. -/
theorem exists_behind {u cs : List Char} (h : u ++ cs = gap ++ rest) (hle : u.length ≤ gap.length) :
    ∃ gap', gap = u ++ gap' ∧ cs = gap' ++ rest := by
  obtain ⟨gap', rfl⟩ :=
    List.prefix_of_prefix_length_le ⟨cs, h⟩ (List.prefix_append gap rest) hle
  exact ⟨gap', rfl, by simpa using h⟩

/-- **Blanks and comments that end in front of some characters** end in front of others that
start with neither, unless a line comment goes on in them. -/
theorem gapEnd_exchange {g : Gap} (h : gapEnd g n (gap ++ rest) = .ok (n + gap.length))
    (hbare : Bare rest') (hline : LineEnd rest → LineEnd rest') :
    gapEnd g n (gap ++ rest') = .ok (n + gap.length) := by
  generalize hcs : gap ++ rest = cs at h
  fun_induction gapEnd g n cs generalizing gap with
  | case1 n cs ih | case2 n cs ih | case3 n cs ih | case9 n c cs hc ih =>
    have hle := le_of_gapEnd h
    obtain ⟨gap, rfl, rfl⟩ := exists_behind (u := [_]) hcs.symm (by simp; omega)
    rw [List.length_append, ← Nat.add_assoc] at h ⊢
    rw [List.append_assoc, List.singleton_append, gapEnd]
    · exact ih rfl h
    all_goals assumption
  | case4 n cs ih | case5 n cs ih =>
    have hle := le_of_gapEnd h
    obtain ⟨gap, rfl, rfl⟩ := exists_behind (u := [_, _]) hcs.symm (by simp; omega)
    rw [List.length_append, ← Nat.add_assoc] at h ⊢
    exact ih rfl h
  | case6 cs n =>
    obtain rfl : gap = [] := List.eq_nil_of_length_eq_zero (by have := Except.ok.inj h; omega)
    exact gapEnd_of_bare hbare
  | case7 n =>
    obtain ⟨rfl, rfl⟩ := List.append_eq_nil_iff.1 hcs
    exact gapEnd_of_lineEnd (hline fun c hc => by cases hc)
  | case8 n cs =>
    obtain rfl : gap = [] := List.eq_nil_of_length_eq_zero (by have := Except.ok.inj h; omega)
    obtain rfl : rest = '\n' :: cs := hcs
    exact gapEnd_of_lineEnd (hline fun c hc => (Option.some.inj hc).symm)
  | case10 n depth start => cases h
  | case11 depth start n cs ih | case12 start n cs ih | case13 depth start n cs ih =>
    have hle := le_of_gapEnd h
    obtain ⟨gap, rfl, rfl⟩ := exists_behind (u := [_, _]) hcs.symm (by simp; omega)
    rw [List.length_append, ← Nat.add_assoc] at h ⊢
    exact ih rfl h
  | case14 depth start n c cs hopen hlast hclose ih =>
    -- The comment is still open, so it goes on with one more character at least.
    have hlt := lt_of_gapEnd_block h
    obtain ⟨_ | ⟨d, gap⟩, rfl, rfl⟩ := exists_behind (u := [c]) hcs.symm (by simp; omega)
    · simp at hlt
    · rw [List.length_append, ← Nat.add_assoc] at h ⊢
      rw [List.append_assoc, List.singleton_append, gapEnd]
      · exact ih rfl h
      · rintro ds rfl hds
        obtain ⟨rfl, -⟩ := List.cons.inj hds
        exact hopen (gap ++ rest) rfl rfl
      · rintro ds rfl rfl hds
        obtain ⟨rfl, -⟩ := List.cons.inj hds
        exact hlast (gap ++ rest) rfl rfl rfl
      · rintro e ds rfl rfl hds
        obtain ⟨rfl, -⟩ := List.cons.inj hds
        exact hclose e (gap ++ rest) rfl rfl rfl

/-- Behind the start of a text, `#!` starts no comment. -/
theorem triviaEnd_inside (cs : List Char) : triviaEnd false cs = gapEnd .blank 0 cs := by
  unfold triviaEnd
  split
  · rfl
  · rfl

/-- Nothing can be seen of these characters behind a token, and they are no blank and start no
comment. -/
structure Plain (cs : List Char) : Prop where
  unseen : ∀ c ∈ cs.head?, c ∈ unseen
  bare : Bare cs

/-- A character that is no blank and no slash starts neither blanks nor comments. -/
theorem bare_cons {c : Char} {cs : List Char} (hc : c ∉ [' ', '\t', '\r', '/']) :
    Bare (c :: cs) := by
  simp only [List.mem_cons, List.not_mem_nil, or_false, not_or] at hc
  obtain ⟨hblank, htab, hreturn, hslash⟩ := hc
  refine ⟨fun d hd => ?_, ?_, ?_⟩
  · cases hd
    simp [hblank, htab, hreturn]
  · exact fun h => hslash (List.cons_prefix_cons.1 h).1.symm
  · exact fun h => hslash (List.cons_prefix_cons.1 h).1.symm

/-- A character that is not looked at ends what stands before it. -/
theorem plain_cons {c : Char} {cs : List Char} (hunseen : c ∈ unseen)
    (hc : c ∉ [' ', '\t', '\r', '/']) : Plain (c :: cs) where
  unseen d hd := by
    cases hd
    exact hunseen
  bare := bare_cons hc

/-- Plain characters add nothing to what is looked at. -/
theorem lookahead_plain (h : Plain rest) (cs : List Char) :
    lookahead (cs ++ rest) = lookahead cs := by
  cases rest with
  | nil => rw [List.append_nil]
  | cons c rest => exact lookahead_unseen cs (h.unseen c rfl) rest

end Lexeme

namespace Lexer

open Lexeme (triviaEnd scan Bare Plain LineEnd)

variable {p : Position} {cs gap r r' : List Char} {t : Token} {ts us vs ws : List Token}
  {e e' : Option LexicalError}

/-- No token stands in front of where its stream starts. -/
theorem Streams.offset_le (h : Streams p cs ts e) : ∀ t ∈ ts, p.offset ≤ t.position.offset := by
  intro t ht
  obtain ⟨front, rest, -, hposition⟩ := h.placed t ht
  rw [hposition, Position.after_offset]
  exact Nat.le_add_right _ _

/-- Blanks and comments in front of a stream. -/
theorem Streams.behind (h : Streams (p.after gap) cs ts e)
    (hgap : triviaEnd (p.offset = 0) (gap ++ cs) = .ok gap.length) :
    Streams p (gap ++ cs) ts e := by
  obtain ⟨ts', e', h'⟩ := exists_streams p (gap ++ cs)
  obtain ⟨rfl, rfl⟩ := (h'.skip hgap).unique h
  exact h'

/-- What is skipped inside a text is skipped in front of other characters. -/
theorem triviaEnd_exchange {rest rest' : List Char} (hp : p.offset ≠ 0)
    (hgap : triviaEnd (p.offset = 0) (gap ++ rest) = .ok gap.length) (hbare : Bare rest')
    (hline : LineEnd rest → LineEnd rest') :
    triviaEnd (p.offset = 0) (gap ++ rest') = .ok gap.length := by
  rw [decide_eq_false hp, Lexeme.triviaEnd_inside, ← Nat.zero_add gap.length] at hgap ⊢
  exact Lexeme.gapEnd_exchange hgap hbare hline

/-- **What follows the tokens of a text is exchanged**, inside the text and from a place on
where a token starts. -/
theorem Streams.exchange (h : Streams p (cs ++ r) (us ++ t :: vs) e) (hp : p.offset ≠ 0)
    (ht : t.position.offset = p.offset + cs.length) (hr : Plain r) (hr' : Plain r')
    (hline : ¬ LineEnd r) (h' : Streams (p.after cs) r' ws e') :
    Streams p (cs ++ r') (us ++ ws) e' := by
  generalize hds : cs ++ r = ds at h
  induction us generalizing p cs ds with
  | nil =>
    cases h with
    | eof =>
      simp only [Token.eof, Position.after_offset, ← hds, List.length_append] at ht
      obtain rfl : r = [] := List.eq_nil_of_length_eq_zero (by omega)
      exact absurd (fun c hc => by cases hc) hline
    | @token _ gap u rest k _ _ hgap _ _ =>
      rw [Position.after_offset] at ht
      obtain ⟨rfl, rfl⟩ := List.append_inj hds (by omega)
      exact h'.behind (triviaEnd_exchange hp hgap hr'.bare fun hend => absurd hend hline)
  | cons s us ih =>
    rw [List.cons_append] at h
    generalize hts : us ++ t :: vs = ts at h
    cases h with
    | eof => simp at hts
    | @token _ gap u rest k _ _ hgap hscan htail =>
      subst hts
      have hle := htail.offset_le t (by simp)
      rw [ht, Position.after_offset] at hle
      obtain ⟨cs, rfl, rfl⟩ := Lexeme.exists_behind (u := gap ++ u) (by simpa using hds.symm)
        (by omega)
      rw [List.length_append] at ht
      rw [Position.after_append] at h'
      have htail := ih (by rw [Position.after_offset]; omega)
        (by rw [ht, Position.after_offset]; omega) h' _ rfl htail
      -- The token is that of both texts, as nothing more can be seen behind it.
      have hshares : Lexeme.Shares u.length (u ++ (cs ++ r)) (u ++ (cs ++ r')) := by
        refine Lexeme.shares_append u ?_
        rw [Lexeme.lookahead_plain hr, Lexeme.lookahead_plain hr']
      have hscan' := Lexeme.scan_eq_ok_iff.2 ((Lexeme.scan_eq_ok_iff.1 hscan).shares hshares)
      obtain ⟨n, hn⟩ := Nat.exists_eq_succ_of_ne_zero (Lexeme.scan_bounds hscan).1.ne'
      have hbare := (Lexeme.skipped_of_triviaEnd hgap).2.shares (hn ▸ hshares)
      have hgap' := triviaEnd_exchange hp hgap hbare fun hend c hc => hend c ?_
      · rw [List.append_assoc, List.append_assoc]
        exact .token hgap' hscan' htail
      · cases u with
        | nil => cases hn
        | cons d u => exact hc

end Lexer
end WrenAnalysis
