/-
# Tokens tile the text

Every character of a text belongs to one token or to the blanks and comments between two:
the tokens stand in the order of their offsets without overlap, each has the text of its
range, and the gaps are made of blanks and comments (`Token.Tiling`).  A text that is no
sequence of tokens is tiled up to the construct at fault, and that construct is what the
error says it is (`Lexeme.Faulty`).  `Token.tokenize_tiles` says both for every text.
-/

import Mathlib.Data.List.Chain
import WrenAnalysis.Proofs.Token.Stream
import WrenAnalysis.Proofs.Token.Trivia

namespace WrenAnalysis

/-- A character that starts no symbol by itself starts none at all. -/
theorem Symbol.head?_ne_of_read_eq_none {c : Char} {cs : List Char}
    (h : Symbol.read (c :: cs) = none) (s : Symbol) : s.spelling.head? ≠ some c := by
  have hshort : ∃ s' ∈ longestFirst, s'.spelling = s.spelling.take 1 := by cases s <;> decide
  obtain ⟨s', hmem, hs'⟩ := hshort
  intro hc
  obtain ⟨ds, hds⟩ := List.head?_eq_some_iff.1 hc
  refine absurd (List.isPrefixOf_iff_prefix.2 ?_) (List.find?_eq_none.1 h s' hmem)
  rw [hs', hds]
  exact List.prefix_append [c] cs

/-! ### Constructs at fault -/

namespace Lexeme

/-- No token starts with `c`, and it is neither a blank nor a newline. -/
def StartsNothing (c : Char) : Prop :=
  c ∉ [' ', '\t', '\r', '\n', '"'] ∧ c.isDigit = false ∧ Text.isNameStart c = false ∧
    ∀ s : Symbol, s.spelling.head? ≠ some c

/-- A construct that is at fault, with `place` of its characters before the error. -/
inductive Faulty : LexicalFault → (construct : List Char) → (place : Nat) → Prop
  | unrecognized {c : Char} {cs : List Char} :
      StartsNothing c → Faulty (.unrecognized c) (c :: cs) 0
  | comment {body : List Char} :
      Unclosed body → Faulty .unterminatedComment ('/' :: '*' :: body) 0
  /-- No three quotes come to close it. -/
  | rawString {body : List Char} : ¬ ['"', '"', '"'] <:+: body →
      Faulty .unterminatedRawString ('"' :: '"' :: '"' :: body) 0
  /-- The error is at the quote of the string that has no end, which may stand in an
  interpolation of the first one. -/
  | string {fault : LexicalFault} {before behind : List Char} :
      fault ∈ [.unterminatedString, .incompleteEscape, .unterminatedInterpolation] →
      (before ++ '"' :: behind).head? = some '"' →
      Faulty fault (before ++ '"' :: behind) before.length

variable {cs : List Char} {e : Failure}

/-- The error is in the construct. -/
theorem Faulty.place_le {fault : LexicalFault} {place : Nat} (h : Faulty fault cs place) :
    place ≤ cs.length := by
  cases h with
  | string => simp
  | _ => exact Nat.zero_le _

/-- A raw string that has no end has no three quotes ahead. -/
theorem not_infix_of_rawStringEnd? {n : Nat} (h : rawStringEnd? n cs = none) :
    ¬ ['"', '"', '"'] <:+: cs := by
  fun_induction rawStringEnd? n cs with
  | case1 => simp
  | case2 => cases h
  | case3 n c cs hc ih =>
    rw [List.infix_cons_iff]
    rintro (⟨rest, hrest⟩ | hin)
    · simp only [List.cons_append, List.nil_append, List.cons.injEq] at hrest
      exact hc rest hrest.1.symm hrest.2.symm
    · exact ih h hin

/-- A quote stands `o - n` characters ahead. -/
def QuoteAhead (cs : List Char) (n o : Nat) : Prop :=
  ∃ before behind, cs = before ++ '"' :: behind ∧ o = n + before.length

/-- A quote ahead of a text is ahead of it with a character more in front. -/
theorem QuoteAhead.cons {n o : Nat} (c : Char) (h : QuoteAhead cs (n + 1) o) :
    QuoteAhead (c :: cs) n o := by
  obtain ⟨before, behind, rfl, rfl⟩ := h
  exact ⟨c :: before, behind, rfl, by rw [List.length_cons]; omega⟩

/-- A string that has no end was open when the scan started, or has its quote ahead. -/
theorem stringEnd_error {depth start n : Nat} {outer : List OpenString}
    (h : stringEnd depth start outer n cs = .error e) :
    e.fault ∈ [.unterminatedString, .incompleteEscape, .unterminatedInterpolation] ∧
      (e.offset ∈ start :: outer.map OpenString.start ∨ QuoteAhead cs n e.offset) := by
  fun_induction stringEnd depth start outer n cs with
  | case1 | case4 | case8 =>
    cases h
    exact ⟨by simp, .inl List.mem_cons_self⟩
  | case2 => cases h
  | case3 start o outer n cs ih =>
    exact (ih h).imp_right (Or.imp (List.mem_cons_of_mem _) (.cons _))
  | case5 start outer n c cs ih => exact (ih h).imp_right (.imp_right fun q => (q.cons c).cons _)
  | case6 start outer n cs ih => exact (ih h).imp_right (.imp_right fun q => (q.cons _).cons _)
  | case7 start outer n c cs _ _ _ _ _ ih => exact (ih h).imp_right (.imp_right (.cons c))
  | case9 depth start outer n cs ih | case10 depth start outer n cs ih =>
    exact (ih h).imp_right (.imp_right (.cons _))
  | case11 depth start outer n cs ih =>
    -- A string opens here, so the quote of the one at fault may be this one.
    refine (ih h).imp_right fun ho => ?_
    rcases ho with ho | ho
    · rcases List.mem_cons.1 ho with ho | ho
      · exact .inr ⟨[], cs, rfl, ho⟩
      · exact .inl ho
    · exact .inr (ho.cons _)
  | case12 depth start outer n c cs _ _ _ ih => exact (ih h).imp_right (.imp_right (.cons c))

/-- The characters behind the quote of a string do not end it. -/
theorem faulty_of_anyStringEnd (h : anyStringEnd cs = .error e) :
    Faulty e.fault ('"' :: cs) e.offset := by
  unfold anyStringEnd at h
  split at h
  · split at h
    · cases h
    · next hraw => cases h; exact .rawString (not_infix_of_rawStringEnd? hraw)
  · obtain ⟨hfault, ho | ⟨before, behind, rfl, ho⟩⟩ := stringEnd_error h
    · rw [List.mem_singleton.1 ho]
      exact @Faulty.string _ [] cs hfault rfl
    · rw [ho, Nat.add_comm]
      exact @Faulty.string _ ('"' :: before) behind hfault rfl

/-- Where no token starts, the error says why. -/
theorem faulty_of_scan (hbare : Bare cs) (h : scan cs = .error e) :
    Faulty e.fault cs e.offset := by
  unfold scan at h
  split at h
  · cases h
  · cases h
  · next ds =>
    cases hs : anyStringEnd ds with
    | ok n => simp [hs, Except.map] at h
    | error f =>
      obtain rfl : f = e := by simpa [hs, Except.map] using h
      exact faulty_of_anyStringEnd hs
  · next c ds hline hquote =>
    split at h
    · cases h
    · next hdigit =>
      split at h
      · cases h
      · next hname =>
        split at h
        · cases h
        · next hread =>
          cases h
          refine .unrecognized ⟨?_, by simpa using hdigit, by simpa using hname,
            Symbol.head?_ne_of_read_eq_none hread⟩
          have hblank := hbare.blank c rfl
          simp only [List.mem_cons, List.not_mem_nil, or_false, not_or] at hblank ⊢
          exact ⟨hblank.1, hblank.2.1, hblank.2.2, hline, hquote⟩

end Lexeme

/-! ### Ranges and gaps -/

namespace Token

/-- The offset of the first character, and that behind the last. -/
def range (t : Token) : Nat × Nat := (t.position.offset, t.position.offset + t.length)

/-- The offset behind the last of some tokens, or `i` if there are none. -/
def finish (i : Nat) (ts : List Token) : Nat := (ts.getLast?.map fun t => t.range.2).getD i

/-- The characters of `text` between two ranges are blanks and comments. -/
def Gap (text : List Char) (r s : Nat × Nat) : Prop :=
  r.2 ≤ s.1 ∧ Lexeme.Skipped (r.2 = 0) (text.extract r.2 s.1) (text.drop s.1)

/-- From offset `i` on, tokens and the gaps between them make up `text`. -/
structure Tiling (text : List Char) (i : Nat) (ts : List Token) : Prop where
  /-- A token has the text of its range. -/
  chars : ∀ t ∈ ts, text.extract t.range.1 t.range.2 = t.text.toList
  /-- No token starts before the end of another one that comes first. -/
  ordered : ts.Pairwise fun s t => s.range.2 ≤ t.range.1
  /-- Before the first token and between two neighbours are only blanks and comments. -/
  gaps : List.IsChain (Gap text) ((i, i) :: ts.map range)

/-- No token starts before one that comes first. -/
theorem Tiling.offset_le {text : List Char} {i j k : Nat} {ts : List Token} (h : Tiling text i ts)
    (hjk : j ≤ k) (hk : k < ts.length) : ts[j].position.offset ≤ ts[k].position.offset := by
  rcases Nat.eq_or_lt_of_le hjk with rfl | hlt
  · exact Nat.le_refl _
  · have hend := List.pairwise_iff_getElem.1 h.ordered j k (by omega) hk hlt
    exact Nat.le_trans (Nat.le_add_right _ _) hend

/-- The rest of `text` from offset `i` on is blanks and comments and then the construct
that the error is about. -/
def FailsAt (text : List Char) (i : Nat) (e : LexicalError) : Prop :=
  ∃ gap construct place, text.drop i = gap ++ construct ∧
    Lexeme.Skipped (i = 0) gap construct ∧ Lexeme.Faulty e.fault construct place ∧
    e.position.offset = i + gap.length + place

/-! ### Along the stream -/

/-- Tokens end where the last of them ends. -/
theorem finish_cons (i : Nat) (t : Token) (ts : List Token) :
    finish i (t :: ts) = finish t.range.2 ts := by
  cases hlast : ts.getLast? <;> simp [finish, List.getLast?_cons, hlast]

/-- The characters between two ends of a text are cut out of it. -/
theorem extract_middle (pre mid post : List Char) :
    (pre ++ (mid ++ post)).extract pre.length (pre.length + mid.length) = mid := by
  simp [List.extract]

/-- Only the end of what stands before a gap matters. -/
theorem isChain_of_range {text : List Char} {r s : Nat × Nat} {rs : List (Nat × Nat)}
    (hend : r.2 = s.2) (h : List.IsChain (Gap text) (r :: rs)) :
    List.IsChain (Gap text) (s :: rs) := by
  cases rs with
  | nil => simp
  | cons q rs =>
    rw [List.isChain_cons_cons] at h ⊢
    exact ⟨by simpa only [Gap, hend] using h.1, h.2⟩

/-- Blanks and comments fill the gap in front of a token. -/
theorem gap_of_skipped {pre gap rest : List Char} {r : Nat × Nat}
    (hr : r.1 = pre.length + gap.length)
    (h : Lexeme.Skipped (pre.length = 0) gap rest) :
    Gap (pre ++ (gap ++ rest)) (pre.length, pre.length) r := by
  have hdrop : (pre ++ (gap ++ rest)).drop r.1 = rest := by
    rw [hr, ← List.append_assoc, ← List.length_append, List.drop_left]
  refine ⟨by simp only [hr]; omega, ?_⟩
  rw [hdrop, hr, extract_middle]
  exact h

/-- A gap and a token in front of a tiling make a tiling. -/
theorem Tiling.cons {pre gap u rest : List Char} {t : Token} {ts : List Token}
    (htext : t.text = .ofList u) (hoffset : t.position.offset = pre.length + gap.length)
    (hgap : Lexeme.Skipped (pre.length = 0) gap (u ++ rest))
    (h : Tiling (pre ++ (gap ++ (u ++ rest))) t.range.2 ts)
    (hafter : ∀ s ∈ ts, t.range.2 ≤ s.range.1) :
    Tiling (pre ++ (gap ++ (u ++ rest))) pre.length (t :: ts) := by
  have hchars : (pre ++ (gap ++ (u ++ rest))).extract t.range.1 t.range.2 = t.text.toList := by
    have := extract_middle (pre ++ gap) u rest
    simpa [range, length, htext, hoffset, Nat.add_assoc] using this
  have hgaps : List.IsChain (Gap (pre ++ (gap ++ (u ++ rest)))) (t.range :: ts.map range) :=
    isChain_of_range (r := (t.range.2, t.range.2)) rfl h.gaps
  exact {
    chars := List.forall_mem_cons.2 ⟨hchars, h.chars⟩
    ordered := List.pairwise_cons.2 ⟨hafter, h.ordered⟩
    gaps := List.isChain_cons_cons.2 ⟨gap_of_skipped hoffset hgap, hgaps⟩ }

end Token

namespace Lexer

variable {p : Position} {cs : List Char} {ts : List Token} {e : Option LexicalError}

/-- The tokens of the characters behind `pre` tile them. -/
theorem Streams.tiling (h : Streams p cs ts e) (pre : List Char) (hp : p.offset = pre.length) :
    Token.Tiling (pre ++ cs) pre.length ts ∧ ∀ t ∈ ts, pre.length ≤ t.range.1 := by
  induction h generalizing pre with
  | @eof p gap hgap =>
    rw [hp] at hgap
    have hskip := (Lexeme.skipped_of_triviaEnd (by rwa [List.append_nil])).1
    have hoffset : (p.after gap).offset = pre.length + gap.length := by simp [hp]
    have htiling := Token.Tiling.cons (t := .eof (p.after gap)) (u := []) rfl hoffset hskip
      ⟨by simp, .nil, by simp⟩ (by simp)
    exact ⟨by simpa using htiling, by simp [Token.range, Token.eof, hp]⟩
  | @token p gap u rest k ts e hgap hscan _ ih =>
    rw [hp] at hgap
    have hskip := (Lexeme.skipped_of_triviaEnd hgap).1
    have hoffset : (p.after gap).offset = pre.length + gap.length := by simp [hp]
    obtain ⟨htiling, hafter⟩ := ih (pre ++ (gap ++ u)) (by simp [hp])
    have hend : (pre ++ (gap ++ u)).length = (Token.mk k (.ofList u) (p.after gap)).range.2 := by
      simp [Token.range, Token.length, hp, Nat.add_assoc]
    rw [hend, List.append_assoc, List.append_assoc] at htiling
    rw [hend] at hafter
    refine ⟨htiling.cons rfl hoffset hskip hafter, List.forall_mem_cons.2 ⟨?_, fun t ht => ?_⟩⟩
    · simp [Token.range, hp]
    · refine Nat.le_trans ?_ (hafter t ht)
      simp [Token.range, hp, Nat.add_assoc]
  | openComment | noToken => exact ⟨⟨by simp, .nil, by simp⟩, by simp⟩

/-- A stream with an error stops at the construct that is at fault. -/
theorem Streams.failsAt {err : LexicalError} (h : Streams p cs ts (some err))
    (pre : List Char) (hp : p.offset = pre.length) :
    (∀ t ∈ ts, t.Proper) ∧ Token.FailsAt (pre ++ cs) (Token.finish pre.length ts) err := by
  generalize he : some err = e at h
  induction h generalizing pre with
  | eof => cases he
  | @token p gap u rest k ts e hgap hscan _ ih =>
    obtain ⟨hts, hfail⟩ := ih (pre ++ (gap ++ u)) (by simp [hp]) he
    have hend : (pre ++ (gap ++ u)).length = (Token.mk k (.ofList u) (p.after gap)).range.2 := by
      simp [Token.range, Token.length, hp, Nat.add_assoc]
    rw [hend, List.append_assoc, List.append_assoc] at hfail
    rw [Token.finish_cons]
    exact ⟨List.forall_mem_cons.2 ⟨proper_of_scan _ hscan, hts⟩, hfail⟩
  | @openComment p cs f hgap =>
    cases he
    obtain ⟨gap, body, rfl, hlen, hfault, hskip, hopen⟩ := Lexeme.unclosed_of_triviaEnd hgap
    refine ⟨by simp, gap, _, 0, List.drop_left, .inl hskip, hfault ▸ .comment hopen, ?_⟩
    simp [← hlen, hp, Token.finish]
  | @noToken p gap cs f hgap hscan =>
    cases he
    obtain ⟨hskip, hbare⟩ := Lexeme.skipped_of_triviaEnd hgap
    have hfaulty := Lexeme.faulty_of_scan hbare hscan
    refine ⟨by simp, gap, cs, f.offset, List.drop_left, ?_, hfaulty, ?_⟩
    · rw [hp] at hskip
      exact hskip
    · simp [hp, Token.finish, Nat.min_eq_left hfaulty.place_le, Nat.add_assoc]

end Lexer

namespace Token

/-- **Tokens tile the text.**  Whatever the text, either it is cut into tokens up to its
end, which the last of them marks and no other, or it is cut into tokens up to blanks,
comments and the construct that the error is about. -/
theorem tokenize_tiles (text : String) :
    match tokenize text with
    | .ok ts => Tiling text.toList 0 ts ∧
        ∃ us p, ts = us ++ [.eof p] ∧ p.offset = text.length ∧ ∀ t ∈ us, t.Proper
    | .error e => Tiling text.toList 0 (tokenizePrefix text) ∧
        (∀ t ∈ tokenizePrefix text, t.Proper) ∧
        FailsAt text.toList (finish 0 (tokenizePrefix text)) e := by
  split
  · next ts h =>
    have hstream := tokenize_eq_ok_iff.1 h
    obtain ⟨us, hts, hus⟩ := hstream.ends
    refine ⟨(hstream.tiling [] rfl).1, us, _, hts, ?_, hus⟩
    rw [Position.after_offset, String.length_toList]
    exact Nat.zero_add _
  · next e h =>
    have hstream := tokenize_eq_error_iff.1 h
    exact ⟨(hstream.tiling [] rfl).1, hstream.failsAt [] rfl⟩

end Token
end WrenAnalysis
