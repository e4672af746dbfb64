/-
# A text that is cut off

Where a text is cut off, the last token or comment before the cut may lose its end, and
what is left of it is scanned anew.  The tokens before it stay as they are.

What is left of a comment is the first half of its sign, or it is a comment without an end
(`Lexeme.CutShort`).  What is left of a token may be several tokens, `1.5e+` is three, but
parentheses and commas are never among them, and a dot only directly before the cut
(`Lexeme.scan_cut`): a number loses its digits behind the point, and `..` its second dot.
-/

import WrenAnalysis.Proofs.Token.Spacing
import WrenAnalysis.Proofs.Token.Wording

namespace WrenAnalysis

/-- Parentheses, commas and dots. -/
def Kind.isMark : Kind → Bool
  | .symbol .leftParen | .symbol .rightParen | .symbol .comma | .symbol .dot => true
  | _ => false

/-- The text of a symbol is its spelling. -/
theorem Token.Spelled.text_eq {t : Token} {s : Symbol} (h : t.Spelled) (hs : t.kind = .symbol s) :
    t.text.toList = s.spelling := by
  rw [show t.text = .ofList s.spelling from congrArg Prod.snd (h.1 s hs), String.toList_ofList]

/-- The text of a mark is one character. -/
theorem Token.Spelled.text_of_isMark {t : Token} (h : t.Spelled) (hk : t.kind.isMark = true) :
    ∃ c ∈ ['(', ')', ',', '.'], t.text.toList = [c] := by
  unfold Kind.isMark at hk
  split at hk
  · next hs => exact ⟨_, by simp, h.text_eq hs⟩
  · next hs => exact ⟨_, by simp, h.text_eq hs⟩
  · next hs => exact ⟨_, by simp, h.text_eq hs⟩
  · next hs => exact ⟨_, by simp, h.text_eq hs⟩
  · cases hk

namespace Lexeme

variable {a cs : List Char} {n m : Nat}

/-- A text cut off is empty or keeps the first character. -/
theorem prefix_cons_cases {c : Char} (h : a <+: c :: cs) :
    a = [] ∨ ∃ b, a = c :: b ∧ b <+: cs := by
  cases a with
  | nil => exact .inl rfl
  | cons d b =>
    obtain ⟨rfl, hb⟩ := List.cons_prefix_cons.1 h
    exact .inr ⟨b, rfl, hb⟩

/-- A text cut off keeps none, one or both of its first two characters. -/
theorem prefix_pair_cases {c d : Char} (h : a <+: c :: d :: cs) :
    a = [] ∨ a = [c] ∨ ∃ b, a = c :: d :: b ∧ b <+: cs := by
  obtain rfl | ⟨a', rfl, h'⟩ := prefix_cons_cases h
  · exact .inl rfl
  · obtain rfl | ⟨b, rfl, hb⟩ := prefix_cons_cases h'
    · exact .inr (.inl rfl)
    · exact .inr (.inr ⟨b, rfl, hb⟩)

/-- What is cut off stays cut off behind characters that are left. -/
theorem drop_prefix_drop (ha : a <+: cs) (hn : n ≤ a.length) : a.drop n <+: cs.drop n := by
  obtain ⟨r, rfl⟩ := ha
  rw [List.drop_append_of_le_length hn]
  exact List.prefix_append _ _

/-! ### Blanks and comments -/

/-- What a scan of blanks and comments that are cut off comes to, with `n` characters passed
before `a`: a comment has no end, or all is passed but the first half of a sign. -/
def CutShort (r : Except Failure Nat) (n : Nat) (a : List Char) : Prop :=
  (∃ e, r = .error e) ∨
    ∃ gap rest, a = gap ++ rest ∧ r = .ok (n + gap.length) ∧ rest ∈ [[], ['/'], ['#']]

/-- A scan that comes to `r` comes to `r'` if the text is cut off behind `a`: blanks and
comments end before that, or they are cut short. -/
def CutTo (r r' : Except Failure Nat) (n : Nat) (a : List Char) : Prop :=
  (∃ m, r = .ok m ∧ m ≤ n + a.length ∧ r' = .ok m) ∨
    (∀ m, r = .ok m → n + a.length < m) ∧ CutShort r' n a

/-- A scan that passes all that is left is cut short. -/
theorem cutShort_all {r : Except Failure Nat} (h : r = .ok (n + a.length)) : CutShort r n a :=
  .inr ⟨a, [], (List.append_nil a).symm, h, by simp⟩

/-- Characters that are passed leave a scan cut off as it was. -/
theorem CutTo.append {r r' : Except Failure Nat} (u : List Char)
    (h : CutTo r r' (n + u.length) a) : CutTo r r' n (u ++ a) := by
  rw [CutTo, List.length_append, ← Nat.add_assoc]
  refine h.imp_right fun ⟨hm, hshort⟩ => ⟨hm, hshort.imp_right ?_⟩
  rintro ⟨gap, rest, rfl, hr, hrest⟩
  exact ⟨u ++ gap, rest, by simp, by rw [hr, List.length_append, Nat.add_assoc], hrest⟩

/-- A scan that ends in what is left comes to the same. -/
theorem CutTo.eq_ok {r r' : Except Failure Nat} (h : CutTo r r' n a) (hr : r = .ok m)
    (hm : m ≤ n + a.length) : r' = .ok m := by
  rcases h with ⟨m', hm', -, hr'⟩ | ⟨hlong, -⟩
  · rw [hr', ← hm', hr]
  · exact absurd (hlong m hr) hm.not_gt

/-- A scan that would end behind what is left is cut short. -/
theorem CutTo.cutShort {r r' : Except Failure Nat} (h : CutTo r r' n a)
    (hlong : ∀ m, r = .ok m → n + a.length ≤ m) : CutShort r' n a := by
  rcases h with ⟨m, hr, hle, rfl⟩ | ⟨-, hshort⟩
  · rw [Nat.le_antisymm hle (hlong m hr)]
    exact cutShort_all rfl
  · exact hshort

/-- A scan of blanks and comments never goes back. -/
theorem le_of_gapEnd {g : Gap} (h : gapEnd g n cs = .ok m) : n ≤ m := by
  fun_induction gapEnd g n cs <;> simp_all <;> omega

/-- Blanks and comments of a text that is cut off end as before or are cut short. -/
theorem gapEnd_cutTo {g : Gap} (ha : a <+: cs) : CutTo (gapEnd g n cs) (gapEnd g n a) n a := by
  fun_induction gapEnd g n cs generalizing a with
  | case1 n cs ih | case2 n cs ih | case3 n cs ih | case9 n c cs hc ih =>
    obtain rfl | ⟨b, rfl, hb⟩ := prefix_cons_cases ha
    · exact .inr ⟨fun m h => le_of_gapEnd h, cutShort_all rfl⟩
    · rw [gapEnd]
      · exact (ih hb).append [_]
      all_goals assumption
  | case4 n cs ih | case5 n cs ih =>
    -- A comment sign may be cut in two.
    obtain rfl | rfl | ⟨b, rfl, hb⟩ := prefix_pair_cases ha
    · exact .inr ⟨fun m h => Nat.lt_of_succ_lt (le_of_gapEnd h), cutShort_all rfl⟩
    · exact .inr ⟨fun m h => le_of_gapEnd h, .inr ⟨[], ['/'], rfl, rfl, by simp⟩⟩
    · exact (ih hb).append [_, _]
  | case6 cs n hblank htab hreturn hline hblock =>
    refine .inl ⟨n, rfl, Nat.le_add_right n _, ?_⟩
    obtain ⟨r, rfl⟩ := ha
    rw [gapEnd]
    · rintro t rfl
      exact hblank _ rfl
    · rintro t rfl
      exact htab _ rfl
    · rintro t rfl
      exact hreturn _ rfl
    · rintro t rfl
      exact hline _ rfl
    · rintro t rfl
      exact hblock _ rfl
  | case7 n =>
    rw [List.prefix_nil.1 ha]
    exact .inl ⟨n, rfl, le_rfl, rfl⟩
  | case8 n cs =>
    refine .inl ⟨n, rfl, Nat.le_add_right n _, ?_⟩
    obtain rfl | ⟨b, rfl, -⟩ := prefix_cons_cases ha <;> rfl
  | case10 n depth start =>
    rw [List.prefix_nil.1 ha]
    refine .inr ⟨fun m h => ?_, .inl ⟨_, rfl⟩⟩
    cases h
  | case11 depth start n cs ih | case12 start n cs ih | case13 depth start n cs ih =>
    obtain rfl | rfl | ⟨b, rfl, hb⟩ := prefix_pair_cases ha
    · exact .inr ⟨fun m h => Nat.lt_of_succ_lt (le_of_gapEnd h), .inl ⟨_, rfl⟩⟩
    · exact .inr ⟨fun m h => le_of_gapEnd h, .inl ⟨_, rfl⟩⟩
    · exact (ih hb).append [_, _]
  | case14 depth start n c cs hopen hlast hclose ih =>
    obtain rfl | ⟨b, rfl, hb⟩ := prefix_cons_cases ha
    · exact .inr ⟨fun m h => le_of_gapEnd h, .inl ⟨_, rfl⟩⟩
    · have hcut := (ih hb).append [c]
      obtain ⟨r, rfl⟩ := hb
      rw [gapEnd]
      · exact hcut
      · rintro t rfl rfl
        exact hopen _ rfl rfl
      · rintro t rfl rfl rfl
        exact hlast _ rfl rfl rfl
      · rintro d t rfl rfl rfl
        exact hclose _ _ rfl rfl rfl

/-- **Blanks and comments that are cut off** end where they ended, or are cut short. -/
theorem triviaEnd_cutTo {atStart : Bool} (ha : a <+: cs) :
    CutTo (triviaEnd atStart cs) (triviaEnd atStart a) 0 a := by
  have htrivia : ∀ ds, ¬ ['#', '!'] <+: ds → triviaEnd atStart ds = gapEnd .blank 0 ds := by
    intro ds hno
    rw [triviaEnd]
    rintro t rfl
    exact hno (List.prefix_append ['#', '!'] t)
  by_cases hline : atStart = true ∧ ['#', '!'] <+: cs
  · obtain ⟨rfl, t, rfl⟩ := hline
    obtain rfl | rfl | ⟨b, rfl, hb⟩ := prefix_pair_cases ha
    · exact .inr ⟨fun m h => Nat.lt_of_succ_lt (le_of_gapEnd h), cutShort_all rfl⟩
    · exact .inr ⟨fun m h => le_of_gapEnd h, .inr ⟨[], ['#'], rfl, rfl, by simp⟩⟩
    · exact (gapEnd_cutTo hb).append ['#', '!']
  · have hblank : ∀ ds, ds <+: cs → triviaEnd atStart ds = gapEnd .blank 0 ds := by
      intro ds hds
      by_cases hsign : ['#', '!'] <+: ds
      · -- A sign that is not at the start is no comment.
        have hlater : atStart = false :=
          Bool.eq_false_iff.2 fun hs => hline ⟨hs, hsign.trans hds⟩
        obtain ⟨t, rfl⟩ := hsign
        rw [hlater]
        rfl
      · exact htrivia ds hsign
    rw [hblank cs (List.prefix_refl cs), hblank a ha]
    exact gapEnd_cutTo ha

/-! ### Strings

A string with an end has it whatever follows.  So what is left of a string that is cut off
has none.
-/

/-- Three quotes stand behind a raw string. -/
theorem length_of_rawStringEnd? (h : rawStringEnd? n cs = some m) : 3 ≤ cs.length := by
  fun_induction rawStringEnd? n cs with
  | case1 => cases h
  | case2 n cs => simp
  | case3 n c cs hc ih => exact Nat.le_succ_of_le (ih h)

/-- A raw string ends where it ends, whatever follows. -/
theorem rawStringEnd?_append (h : rawStringEnd? n cs = some m) (b : List Char) :
    rawStringEnd? n (cs ++ b) = some m := by
  fun_induction rawStringEnd? n cs with
  | case1 => cases h
  | case2 => exact h
  | case3 n c cs hc ih =>
    rcases cs with _ | ⟨d, _ | ⟨e, ds⟩⟩
    · cases h
    · exact absurd (length_of_rawStringEnd? h) (by simp)
    · rw [List.cons_append, rawStringEnd?]
      · exact ih h
      · rintro t rfl ht
        simp only [List.cons_append, List.cons.injEq] at ht
        exact hc ds rfl (by rw [ht.1, ht.2.1])

/-- A string ends where it ends, whatever follows. -/
theorem stringEnd_append {depth start : Nat} {outer : List OpenString}
    (h : stringEnd depth start outer n cs = .ok m) (b : List Char) :
    stringEnd depth start outer n (cs ++ b) = .ok m := by
  fun_induction stringEnd depth start outer n cs with
  | case1 | case4 | case8 => cases h
  | case2 => exact h
  | case3 start o outer n cs ih | case5 start outer n c cs ih | case6 start outer n cs ih
  | case9 depth start outer n cs ih | case10 depth start outer n cs ih
  | case11 depth start outer n cs ih => exact ih h
  | case7 start outer n c cs hlast hquote hend hescape hopen ih =>
    -- Something follows in the string, or it would have no end.
    obtain ⟨d, ds, rfl⟩ : ∃ d ds, cs = d :: ds := by
      cases cs with
      | nil => cases h
      | cons d ds => exact ⟨d, ds, rfl⟩
    rw [List.cons_append, stringEnd]
    · exact ih h
    · exact fun _ hnil => absurd hnil (List.cons_ne_nil _ _)
    · exact fun _ _ hc _ => hescape d ds hc rfl
    · rintro t hc ht
      exact hopen ds hc (by rw [(List.cons.inj ht).1])
    · exact hlast
    · exact hquote
  | case12 depth start outer n c cs hopen hclose hquote ih =>
    rw [List.cons_append, stringEnd]
    · exact ih h
    all_goals assumption

/-- Only where two quotes become three does a string go on behind its end. -/
theorem anyStringEnd_append (h : anyStringEnd cs = .ok m) (hcs : cs ≠ ['"']) (b : List Char) :
    anyStringEnd (cs ++ b) = .ok m := by
  unfold anyStringEnd at h
  split at h
  · next ds =>
    split at h
    · next hraw =>
      cases h
      simp [anyStringEnd, rawStringEnd?_append hraw b]
    · cases h
  · next hno =>
    rw [anyStringEnd]
    · exact stringEnd_append h b
    · intro t ht
      rcases cs with _ | ⟨c, _ | ⟨d, ds⟩⟩
      · cases h
      · exact hcs (by rw [(List.cons.inj ht).1])
      · simp only [List.cons_append, List.cons.injEq] at ht
        exact hno ds (by rw [ht.1, ht.2.1])

/-- A string that is cut off has no end, or only its first quote is left. -/
theorem anyStringEnd_cut (ha : a <+: cs)
    (hcut : ∀ m, anyStringEnd cs = .ok m → a.length + 1 < m) :
    (∃ e, anyStringEnd a = .error e) ∨ a = ['"'] := by
  cases h : anyStringEnd a with
  | error e => exact .inl ⟨e, rfl⟩
  | ok m =>
    refine .inr ?_
    by_contra hne
    obtain ⟨b, rfl⟩ := ha
    have hlt := hcut m (anyStringEnd_append h hne b)
    exact absurd (anyStringEnd_bounds h).2 (by omega)

/-! ### Numbers -/

/-- No parentheses, commas or dots. -/
def Unmarked (cs : List Char) : Prop := ∀ c ∈ cs, c ∉ ['(', ')', ',', '.']

/-- What may be left at the end of a token that is cut off: a dot, or no mark at all. -/
def Fringe (cs : List Char) : Prop := cs = ['.'] ∨ Unmarked cs

instance (cs : List Char) : Decidable (Unmarked cs) :=
  List.decidableBAll (fun c => c ∉ ['(', ')', ',', '.']) cs

instance (cs : List Char) : Decidable (Fringe cs) :=
  inferInstanceAs (Decidable (cs = ['.'] ∨ Unmarked cs))

/-- Nothing may be left. -/
theorem fringe_nil : Fringe [] := .inr nofun

/-- Nothing is left behind all characters. -/
theorem fringe_drop_all (h : n = a.length) : Fringe (a.drop n) := by
  rw [h, List.drop_length]
  exact fringe_nil

/-- A run that is cut off is what is left of it. -/
theorem runEnd_cut {p : Char → Bool} (ha : a <+: cs) :
    runEnd p a = min a.length (runEnd p cs) := by
  induction cs generalizing a with
  | nil =>
    rw [List.prefix_nil.1 ha]
    rfl
  | cons c cs ih =>
    obtain rfl | ⟨b, rfl, hb⟩ := prefix_cons_cases ha
    · simp [runEnd]
    · have hb := ih hb
      simp only [runEnd] at hb ⊢
      cases hc : p c <;> simp [hc, hb]

/-- A fraction that is cut off is what is left of it, unless only its dot is left. -/
theorem fractionEnd_cut (ha : a <+: cs) :
    fractionEnd a = min a.length (fractionEnd cs) ∨ a = ['.'] := by
  rcases fractionEnd_cases a with h0 | ⟨c, b, hc, rfl⟩
  · rcases fractionEnd_cases cs with h0' | ⟨c, ds, hc, rfl⟩
    · exact .inl (by rw [h0, h0', Nat.min_zero])
    · obtain rfl | rfl | ⟨b, rfl, -⟩ := prefix_pair_cases ha
      · exact .inl rfl
      · exact .inr rfl
      · rw [fractionEnd_of_digit hc] at h0
        cases h0
  · obtain ⟨r, rfl⟩ := ha
    refine .inl ?_
    rw [List.cons_append, List.cons_append, fractionEnd_of_digit hc, fractionEnd_of_digit hc,
      runEnd_cut (List.prefix_append b r), List.length_cons, List.length_cons]
    omega

/-- No mark stands in front of the digits of an exponent. -/
theorem IsExponentHead.unmarked {u : List Char} (hu : IsExponentHead u) : Unmarked u := by
  have hall : ∀ u ∈ [['e'], ['E'], ['e', '+'], ['E', '+'], ['e', '-'], ['E', '-']],
      Unmarked u := by decide
  exact hall u hu

/-- An exponent that is cut off is what is left of it, or none, and then no mark is left. -/
theorem exponentEnd_cut (ha : a <+: cs) :
    exponentEnd a = min a.length (exponentEnd cs) ∨ exponentEnd a = 0 ∧ Unmarked a := by
  rcases exponentEnd_cases a with h0 | ⟨u, c, b, hu, hc, rfl⟩
  · rcases exponentEnd_cases cs with h0' | ⟨u, c, ds, hu, hc, rfl⟩
    · exact .inl (by rw [h0, h0', Nat.min_zero])
    · refine .inr ⟨h0, fun d hd => hu.unmarked d (List.IsPrefix.mem hd ?_)⟩
      obtain ⟨r, hr⟩ := ha
      rcases List.append_eq_append_iff.1 hr with ⟨t, rfl, -⟩ | ⟨b, rfl, hb⟩
      · exact List.prefix_append a t
      · -- With a digit behind its head there would be an exponent.
        cases b with
        | nil => rw [List.append_nil]
        | cons d b =>
          obtain ⟨rfl, -⟩ := List.cons.inj hb
          rw [exponentEnd_of_digit hu hc] at h0
          cases h0
  · obtain ⟨r, rfl⟩ := ha
    refine .inl ?_
    rw [List.append_assoc, List.cons_append, exponentEnd_of_digit hu hc,
      exponentEnd_of_digit hu hc, runEnd_cut (List.prefix_append b r), List.length_append,
      List.length_cons]
    omega

/-- Behind a decimal number that is cut off a fringe is left. -/
theorem fringe_decimal (ha : a <+: cs) (hlen : a.length ≤ decimalEnd cs) :
    Fringe (a.drop (decimalEnd a)) := by
  have hwhole := runEnd_cut (p := Char.isDigit) ha
  simp only [decimalEnd] at hlen ⊢
  generalize runEnd Char.isDigit cs = w at *
  rcases Nat.le_total a.length w with hle | hle
  · -- Only digits are left.
    rw [Nat.min_eq_left hle] at hwhole
    rw [hwhole, List.drop_length]
    exact fringe_drop_all (by simp [fractionEnd, exponentEnd])
  rw [Nat.min_eq_right hle] at hwhole
  rw [hwhole]
  rcases fractionEnd_cut (drop_prefix_drop ha hle) with hfraction | hdot
  · generalize fractionEnd (cs.drop w) = f at *
    rw [List.length_drop] at hfraction
    rcases Nat.le_total a.length (w + f) with hle' | hle'
    · have hend : w + fractionEnd (a.drop w) = a.length := by omega
      rw [hend, List.drop_length]
      exact fringe_drop_all rfl
    · have hend : fractionEnd (a.drop w) = f := by omega
      rw [hend]
      rcases exponentEnd_cut (drop_prefix_drop ha hle') with hexponent | ⟨hexponent, hrest⟩
      · rw [List.length_drop] at hexponent
        exact fringe_drop_all (by omega)
      · rw [hexponent]
        exact .inr hrest
  · -- The point has lost its digits.
    rw [hdot, show fractionEnd ['.'] = 0 from rfl, Nat.add_zero, hdot,
      show exponentEnd ['.'] = 0 from rfl, Nat.add_zero, hdot]
    exact .inl rfl

/-- Behind what is left of a number, a point or an exponent may stand without digits. -/
theorem fringe_number (ha : a <+: cs) (hlen : a.length ≤ numberEnd cs) :
    Fringe (a.drop (numberEnd a)) := by
  rcases numberEnd_cases cs with ⟨hdecimal, hno⟩ | ⟨u, ds, hu, rfl⟩
  · rcases numberEnd_cases a with ⟨hdecimal', -⟩ | ⟨u, ds, hu, rfl⟩
    · rw [hdecimal']
      exact fringe_decimal ha (hdecimal ▸ hlen)
    · exact absurd ((List.prefix_append u ds).trans ha) (hno u hu)
  · obtain ⟨x, rfl⟩ : ∃ x, u = ['0', x] := by
      simp only [IsHexHead, List.mem_cons, List.not_mem_nil, or_false] at hu
      rcases hu with rfl | rfl <;> exact ⟨_, rfl⟩
    have ha : a <+: '0' :: x :: ds := ha
    obtain rfl | rfl | ⟨b, rfl, hb⟩ := prefix_pair_cases ha
    · exact fringe_nil
    · exact fringe_nil
    · have hrun := runEnd_cut (p := isHexDigit) hb
      rw [(numberEnd_of_hex hu ds).1, List.length_cons, List.length_cons] at hlen
      have hend := (numberEnd_of_hex hu b).1
      refine fringe_drop_all ?_
      rw [List.cons_append, List.singleton_append] at hend
      rw [hend, List.length_cons, List.length_cons]
      omega

/-! ### Symbols and words -/

/-- Of a symbol that is cut off a fringe is left, or two dots of three. -/
theorem cut_symbol {s : Symbol} (ha : a <+: s.spelling) (hne : a ≠ [])
    (hlen : a.length < s.spelling.length) : Fringe a ∨ a = ['.', '.'] := by
  have hall : ∀ a ∈ s.spelling.inits, a ≠ [] → a.length < s.spelling.length →
      Fringe a ∨ a = ['.', '.'] := by cases s <;> decide
  exact hall a ((List.mem_inits a _).2 ha) hne hlen

/-- A word that is cut off has no marks. -/
theorem unmarked_word (ha : a <+: cs) (hlen : a.length ≤ nameEnd cs) : Unmarked a := by
  have hmarks : (['(', ')', ',', '.'].all fun c => !Text.isNamePart c) = true := by
    decide +kernel
  have hpre : a <+: cs.takeWhile Text.isNamePart :=
    List.prefix_of_prefix_length_le ha (List.takeWhile_prefix _) hlen
  intro c hc hmark
  have hpart := List.all_eq_true.1 List.all_takeWhile c (hpre.mem hc)
  have hnopart := List.all_eq_true.1 hmarks c hmark
  rw [hpart] at hnopart
  cases hnopart

/-! ### Any token -/

/-- A text that is cut off shows no more to look at than before. -/
theorem lookahead_cut (ha : a <+: cs) : lookahead a <+: lookahead cs := by
  refine prefix_lookahead (List.length_take_le 3 _) (fun c hc => ?_)
    ((lookahead_isPrefix a).trans ha)
  simpa using List.all_eq_true.1 List.all_takeWhile c (List.mem_of_mem_take hc)

/-- What a scan finds in `a`: nothing, or a token that is no mark and a fringe behind it, if
`a` is not a fringe itself. -/
def Fragment (a : List Char) : Prop :=
  (∃ f, scan a = .error f) ∨ Fringe a ∨ ∃ k v rest, a = v ++ rest ∧
    scan a = .ok (some (k, v.length)) ∧ k.isMark = false ∧ Fringe rest

/-- **A token that is cut off**, or a construct at fault, leaves no marks but for a dot
directly before the cut. -/
theorem scan_cut (ha : a <+: cs) (hne : a ≠ [])
    (hcut : ∀ k n, scan cs = .ok (some (k, n)) → a.length < n) : Fragment a := by
  obtain ⟨c, a', rfl⟩ := List.exists_cons_of_ne_nil hne
  obtain ⟨cs', rfl, ha'⟩ : ∃ cs', cs = c :: cs' ∧ a' <+: cs' := by
    obtain ⟨r, rfl⟩ := ha
    exact ⟨a' ++ r, rfl, List.prefix_append a' r⟩
  have hscans : ∀ {k n}, Scans (c :: cs') k n → (c :: a').length < n :=
    fun h => hcut _ _ (scan_eq_ok_iff.2 h)
  by_cases hline : c = '\n'
  · subst hline
    have hlen := hscans .line
    rw [List.length_cons] at hlen
    omega
  by_cases hquote : c = '"'
  · subst hquote
    rcases anyStringEnd_cut ha' fun m hm => hscans (.string hm) with ⟨e, he⟩ | rfl
    · exact .inl ⟨e, by simp [scan, he, Except.map]⟩
    · exact .inr (.inr ⟨.string, ['"', '"'], [], rfl, rfl, rfl, fringe_nil⟩)
  cases hdigit : c.isDigit with
  | true =>
    have hlen := hscans (.number hline hquote hdigit)
    refine .inr (.inr ⟨.number, (c :: a').take (numberEnd (c :: a')),
      (c :: a').drop (numberEnd (c :: a')), (List.take_append_drop ..).symm, ?_, rfl,
      fringe_number ha hlen.le⟩)
    rw [List.length_take_of_le (numberEnd_le _)]
    exact scan_eq_ok_iff.2 (.number hline hquote hdigit)
  | false =>
    cases hname : Text.isNameStart c with
    | true =>
      have hlen := hscans (.word hline hquote hdigit hname)
      exact .inr (.inl (.inr (unmarked_word ha hlen.le)))
    | false =>
      cases hread : Symbol.read (c :: cs') with
      | some s =>
        have hlen := hscans (.symbol hline hquote hdigit hname hread)
        have hpre : c :: a' <+: s.spelling :=
          List.prefix_of_prefix_length_le ha (Symbol.spelling_prefix_of_read hread) hlen.le
        rcases cut_symbol hpre hne hlen with hfringe | hdots
        · exact .inr (.inl hfringe)
        · rw [hdots]
          exact .inr (.inr ⟨.symbol .dotDot, ['.', '.'], [], rfl, rfl, rfl, fringe_nil⟩)
      | none =>
        have hnone : Symbol.read (c :: a') = none := by
          refine List.find?_eq_none.2 fun s hs hpre => ?_
          refine List.find?_eq_none.1 hread s hs (List.isPrefixOf_iff_prefix.2 ?_)
          exact (List.isPrefixOf_iff_prefix.1 hpre).trans ha
        exact .inl ⟨⟨.unrecognized c, 0⟩, by simp [scan, hdigit, hname, hnone]⟩

/-- A mark has one character. -/
theorem eq_singleton_of_isMark {u rest : List Char} {k : Kind}
    (h : scan (u ++ rest) = .ok (some (k, u.length))) (hk : k.isMark = true) :
    ∃ c ∈ ['(', ')', ',', '.'], u = [c] := by
  have hspelled := (scan_eq_ok_iff.1 h).spelled .start
  rw [List.take_left] at hspelled
  obtain ⟨c, hc, hu⟩ := hspelled.text_of_isMark hk
  exact ⟨c, hc, by simpa using hu⟩

end Lexeme

/-! ### Streams -/

namespace Lexer

open Lexeme (triviaEnd scan Unmarked Fringe Fragment CutShort)

variable {p : Position} {a gap cs u rest : List Char} {k : Kind} {ts us : List Token}
  {e e' : Option LexicalError}

/-- A text has one stream. -/
theorem Streams.unique (h : Streams p cs ts e) (h' : Streams p cs us e') : ts = us ∧ e = e' :=
  Prod.mk.inj (h.run_eq.symm.trans h'.run_eq)

/-- The empty text has nothing but its end. -/
theorem Streams.nil (p : Position) : Streams p [] [.eof p] none := @Streams.eof p [] rfl

/-- A token in front of a stream is its first one. -/
theorem Streams.cons (h : Streams (p.after u) rest ts e)
    (hnone : triviaEnd (p.offset = 0) (u ++ rest) = .ok 0)
    (hscan : scan (u ++ rest) = .ok (some (k, u.length))) :
    Streams p (u ++ rest) (⟨k, .ofList u, p⟩ :: ts) e :=
  @Streams.token p [] u rest k ts e hnone hscan h

/-- A text that starts with a fault has no tokens. -/
theorem streams_stuck {f : Lexeme.Failure} (hnone : triviaEnd (p.offset = 0) cs = .ok 0)
    (hscan : scan cs = .error f) :
    Streams p cs [] (some ⟨f.fault, p.after (cs.take f.offset)⟩) :=
  @Streams.noToken p [] cs f hnone hscan

/-- The token that a stream starts with. -/
theorem Streams.head (h : Streams p (gap ++ (u ++ rest)) ts e)
    (hgap : triviaEnd (p.offset = 0) (gap ++ (u ++ rest)) = .ok gap.length)
    (hscan : scan (u ++ rest) = .ok (some (k, u.length))) :
    ∃ ts', ts = ⟨k, .ofList u, p.after gap⟩ :: ts' ∧ Streams (p.after (gap ++ u)) rest ts' e := by
  obtain ⟨ts', e', htail⟩ := exists_streams (p.after (gap ++ u)) rest
  obtain ⟨rfl, rfl⟩ := h.unique (.token hgap hscan htail)
  exact ⟨ts', rfl, htail⟩

/-- Behind blanks and comments there are no others. -/
theorem triviaEnd_behind (hgap : triviaEnd (p.offset = 0) (gap ++ cs) = .ok gap.length) :
    triviaEnd ((p.after gap).offset = 0) cs = .ok 0 := by
  cases gap with
  | nil => exact hgap
  | cons c gap =>
    have hoffset : (p.after (c :: gap)).offset ≠ 0 := by
      rw [Position.after_offset, List.length_cons]
      omega
    rw [decide_eq_false hoffset]
    unfold triviaEnd
    split
    · rfl
    · exact Lexeme.gapEnd_of_bare (Lexeme.skipped_of_triviaEnd hgap).2

/-- Behind blanks and comments a stream goes on as if it started there. -/
theorem Streams.skip (h : Streams p (gap ++ cs) ts e)
    (hgap : triviaEnd (p.offset = 0) (gap ++ cs) = .ok gap.length) :
    Streams (p.after gap) cs ts e := by
  have hnone := triviaEnd_behind hgap
  rcases hscan : scan cs with f | _ | ⟨k, m⟩
  · obtain ⟨rfl, rfl⟩ := h.unique (.noToken hgap hscan)
    rw [Position.after_append]
    exact streams_stuck hnone hscan
  · obtain rfl := eq_nil_of_scan hscan
    rw [List.append_nil] at h hgap
    obtain ⟨rfl, rfl⟩ := h.unique (.eof hgap)
    exact .nil _
  · obtain ⟨v, rest, rfl, rfl⟩ := exists_cut (Lexeme.scan_bounds hscan).2
    obtain ⟨ts', rfl, htail⟩ := h.head hgap hscan
    rw [Position.after_append] at htail
    exact htail.cons hnone hscan

/-- The tokens of a text without marks are no marks. -/
theorem Streams.unmarked (h : Streams p cs ts e) (hcs : Unmarked cs) :
    ∀ t ∈ ts, t.kind.isMark = false := by
  induction h with
  | eof => exact List.forall_mem_singleton.2 rfl
  | @token p gap u rest k ts e hgap hscan _ ih =>
    refine List.forall_mem_cons.2 ⟨?_, ih fun c hc => hcs c (by simp [hc])⟩
    rw [Bool.eq_false_iff]
    intro hk
    obtain ⟨c, hc, rfl⟩ := Lexeme.eq_singleton_of_isMark hscan hk
    exact hcs c (by simp) hc
  | openComment | noToken => exact nofun

/-- Blanks and comments that are cut short leave no marks. -/
theorem Streams.unmarked_of_cutShort (h : Streams p a ts e)
    (hcut : CutShort (triviaEnd (p.offset = 0) a) 0 a) : ∀ t ∈ ts, t.kind.isMark = false := by
  rcases hcut with ⟨f, hf⟩ | ⟨gap, rest, rfl, hgap, hrest⟩
  · obtain ⟨rfl, -⟩ := h.unique (.openComment hf)
    exact nofun
  · have hall : ∀ rest ∈ [[], ['/'], ['#']], Unmarked rest := by decide
    rw [Nat.zero_add] at hgap
    exact (h.skip hgap).unmarked (hall rest hrest)

end Lexer

/-- In a line, columns count characters. -/
theorem Position.after_column (p : Position) {cs : List Char} (h : '\n' ∉ cs) :
    (p.after cs).column = p.column + cs.length := by
  induction cs generalizing p with
  | nil => rfl
  | cons c cs ih =>
    rw [List.mem_cons, not_or] at h
    have hnext : (p.next c).column = p.column + 1 := by rw [next, if_neg (Ne.symm h.1)]
    rw [after_cons, ih _ h.2, hnext, List.length_cons, Nat.add_assoc, Nat.add_comm 1]

/-- The token is a mark only if it is a dot directly before the column. -/
def Token.Quiet (column : Nat) (t : Token) : Prop :=
  t.kind.isMark = true → t.kind = .symbol .dot ∧ t.position.column + 1 = column

/-- What is no mark is quiet. -/
theorem Token.quiet_of_unmarked {column : Nat} {t : Token} (h : t.kind.isMark = false) :
    t.Quiet column :=
  fun hk => absurd (h.symm.trans hk) Bool.false_ne_true

namespace Lexer

open Lexeme (triviaEnd scan Fringe Fragment)

variable {p : Position} {a gap cs : List Char} {ts : List Token} {e : Option LexicalError}

/-- The tokens of a fringe are quiet at its end. -/
theorem Streams.quiet_fringe (h : Streams p cs ts e) (hcs : Fringe cs) :
    ∀ t ∈ ts, t.Quiet (p.column + cs.length) := by
  rcases hcs with rfl | hcs
  · obtain ⟨rfl, -⟩ := h.unique ((Streams.nil (p.after ['.'])).cons rfl rfl)
    exact List.forall_mem_cons.2 ⟨fun _ => ⟨rfl, rfl⟩,
      List.forall_mem_singleton.2 (Token.quiet_of_unmarked rfl)⟩
  · exact fun t ht => Token.quiet_of_unmarked (h.unmarked hcs t ht)

/-- What is left of a token in a line leaves no marks but a dot at its end. -/
theorem Streams.quiet_fragment (h : Streams p (gap ++ a) ts e)
    (hgap : triviaEnd (p.offset = 0) (gap ++ a) = .ok gap.length) (hline : '\n' ∉ gap ++ a)
    (ha : Fragment a) : ∀ t ∈ ts, t.Quiet (p.column + (gap ++ a).length) := by
  rw [List.mem_append, not_or] at hline
  have hnone := triviaEnd_behind hgap
  rw [List.length_append, ← Nat.add_assoc, ← p.after_column hline.1]
  replace h := h.skip hgap
  generalize p.after gap = q at *
  rcases ha with ⟨f, hf⟩ | hfringe | ⟨k, v, rest, rfl, hscan, hk, hrest⟩
  · obtain ⟨rfl, -⟩ := h.unique (streams_stuck hnone hf)
    exact nofun
  · exact h.quiet_fringe hfringe
  · obtain ⟨ts', e', htail⟩ := exists_streams (q.after v) rest
    obtain ⟨rfl, rfl⟩ := h.unique (htail.cons hnone hscan)
    have hv : '\n' ∉ v := fun hv => hline.2 (List.mem_append_left _ hv)
    have hquiet := htail.quiet_fringe hrest
    rw [q.after_column hv, Nat.add_assoc, ← List.length_append] at hquiet
    exact List.forall_mem_cons.2 ⟨Token.quiet_of_unmarked hk, hquiet⟩

/-- **What a cut leaves.**  Of a line that is cut off before the end of its first token, or
of a construct at fault, there are no marks left but a dot directly before the cut. -/
theorem Streams.quiet_cut (h : Streams p a ts e) (hline : '\n' ∉ a) (ha : a <+: gap ++ cs)
    (hgap : triviaEnd (p.offset = 0) (gap ++ cs) = .ok gap.length)
    (hcut : ∀ k n, scan cs = .ok (some (k, n)) → a.length < gap.length + n) :
    ∀ t ∈ ts, t.Quiet (p.column + a.length) := by
  rcases Nat.lt_or_ge gap.length a.length with hlt | hle
  · -- The gap stands whole before the cut, and something of the token does.
    obtain ⟨a', rfl⟩ : gap <+: a :=
      List.prefix_of_prefix_length_le (List.prefix_append gap cs) ha hlt.le
    have ha' : a' <+: cs := (List.prefix_append_right_inj gap).1 ha
    have hgap' := (Lexeme.triviaEnd_cutTo ha).eq_ok hgap (by omega)
    rw [List.length_append] at hlt
    have hne : a' ≠ [] := fun hnil => by
      rw [hnil, List.length_nil] at hlt
      omega
    refine h.quiet_fragment hgap' hline (Lexeme.scan_cut ha' hne fun k n hk => ?_)
    have hlen := hcut k n hk
    rw [List.length_append] at hlen
    omega
  · have hshort := (Lexeme.triviaEnd_cutTo ha).cutShort fun m hm => by
      rw [← Except.ok.inj (hgap.symm.trans hm), Nat.zero_add]
      exact hle
    exact fun t ht => Token.quiet_of_unmarked (h.unmarked_of_cutShort hshort t ht)

end Lexer
end WrenAnalysis
