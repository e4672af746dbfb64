/-
# The sweep matches parentheses

A line that is being typed has parentheses that are not closed yet, and others that close
nothing.  Which ones belong together is said here without a sweep: an opening and a closing one
do if those between them are balanced (`LineContext.Pairs`), so each has one partner at most
(`LineContext.Pairs.unique`).

The sweep from right to left keeps one number, the closing parentheses whose opening ones are
still to come.  It tells all that is needed of the matching (`outer_iff`, `unmatched_iff`):
nothing right of a token is closed left of it, or an opening parenthesis has no partner, just if
the number is zero there.  So what the sweep reports can be read off the matching
(`LineContext.ofText_matching`).
-/

import WrenAnalysis.Proofs.LineContext.Cursor

namespace WrenAnalysis
namespace LineContext

/-! ### Matching -/

/-- The parentheses among the tokens match, whatever else stands there. -/
inductive Balanced : List Token → Prop
  | nil : Balanced []
  | other {t : Token} {us : List Token} : t.kind ≠ .symbol .leftParen →
      t.kind ≠ .symbol .rightParen → Balanced us → Balanced (t :: us)
  | group {o c : Token} {us vs : List Token} : o.kind = .symbol .leftParen →
      c.kind = .symbol .rightParen → Balanced us → Balanced vs → Balanced (o :: (us ++ c :: vs))

/-- A token of the kind stands at `i`. -/
def IsAt (k : Kind) (ts : List Token) (i : Nat) : Prop := ts[i]?.map Token.kind = some k

instance (k : Kind) (ts : List Token) (i : Nat) : Decidable (IsAt k ts i) :=
  inferInstanceAs (Decidable (_ = _))

/-- The opening parenthesis at `i` belongs to the closing one at `j`. -/
def Pairs (ts : List Token) (i j : Nat) : Prop :=
  ∃ us o vs c ws, ts = us ++ o :: (vs ++ c :: ws) ∧ us.length = i ∧ i + 1 + vs.length = j ∧
    o.kind = .symbol .leftParen ∧ c.kind = .symbol .rightParen ∧ Balanced vs

/-- The opening parenthesis at `i` belongs to none. -/
def Unmatched (ts : List Token) (i : Nat) : Prop :=
  IsAt (.symbol .leftParen) ts i ∧ ∀ j, ¬ Pairs ts i j

/-- Every closing parenthesis right of `i` belongs to an opening one right of `i`. -/
def Outer (ts : List Token) (i : Nat) : Prop :=
  ∀ j, i < j → IsAt (.symbol .rightParen) ts j → ∃ k, i < k ∧ Pairs ts k j

/-! ### The closing parentheses that are left over -/

/-- The closing parentheses without an opening one, moved over a token to the left. -/
def turn (t : Token) (depth : Nat) : Nat :=
  match t.kind with
  | .symbol .rightParen => depth + 1
  | .symbol .leftParen => depth - 1
  | _ => depth

/-- The number of closing parentheses that belong to none among the tokens. -/
def closers (ts : List Token) : Nat := ts.foldr turn 0

variable {t o c : Token} {ts us vs ws : List Token} {i j n : Nat}

/-- An opening parenthesis takes up a closing one, if any is left over. -/
theorem turn_opening (ho : o.kind = .symbol .leftParen) (n : Nat) : turn o n = n - 1 := by
  rw [turn, ho]

/-- A closing parenthesis is left over at first. -/
theorem turn_closing (hc : c.kind = .symbol .rightParen) (n : Nat) : turn c n = n + 1 := by
  rw [turn, hc]

/-- Other tokens leave the parentheses as they are. -/
theorem turn_other (ho : t.kind ≠ .symbol .leftParen) (hc : t.kind ≠ .symbol .rightParen)
    (n : Nat) : turn t n = n := by
  unfold turn
  split
  · next h => exact absurd h hc
  · next h => exact absurd h ho
  · rfl

/-- What is left over is counted token by token, from right to left. -/
theorem closers_cons (t : Token) (ts : List Token) : closers (t :: ts) = turn t (closers ts) := rfl

namespace Balanced

/-- Matching parentheses behind matching ones match. -/
theorem append (h : Balanced us) (h' : Balanced vs) : Balanced (us ++ vs) := by
  induction h with
  | nil => exact h'
  | other ho hc _ ih => exact .other ho hc ih
  | @group o c us ws ho hc hus _ _ ih => simpa using Balanced.group ho hc hus ih

/-- Parentheses that match leave none over. -/
theorem foldr_turn (h : Balanced us) (n : Nat) : us.foldr turn n = n := by
  induction h generalizing n with
  | nil => rfl
  | other ho hc _ ih => rw [List.foldr_cons, ih, turn_other ho hc]
  | group ho hc _ _ ihu ihv =>
    rw [List.foldr_cons, List.foldr_append, List.foldr_cons, ihv, turn_closing hc, ihu,
      turn_opening ho, Nat.add_sub_cancel]

/-- A closing parenthesis behind tokens that match is not closing anything in them. -/
theorem not_append_closing (h : Balanced us) (hc : c.kind = .symbol .rightParen) :
    ¬ Balanced (us ++ c :: vs) := by
  intro hall
  have hsame := hall.foldr_turn 0
  rw [List.foldr_append, List.foldr_cons, turn_closing hc, h.foldr_turn] at hsame
  exact Nat.succ_ne_zero _ hsame

/-- An opening parenthesis before tokens that match is not closed in them. -/
theorem not_append_opening (h : Balanced vs) (ho : o.kind = .symbol .leftParen) :
    ¬ Balanced (us ++ o :: vs) := by
  intro hall
  -- With one parenthesis more or less to close behind them, the same is left over.
  have hnone := hall.foldr_turn 0
  have hone := hall.foldr_turn 1
  rw [List.foldr_append, List.foldr_cons, turn_opening ho, h.foldr_turn] at hnone hone
  exact Nat.zero_ne_one (hnone.symm.trans hone)

/-- The first closing parenthesis behind tokens that match is the same one. -/
theorem eq_of_closing {c' : Token} {us' vs' : List Token} (h : Balanced us) (h' : Balanced us')
    (hc : c.kind = .symbol .rightParen) (hc' : c'.kind = .symbol .rightParen)
    (heq : us ++ c :: vs = us' ++ c' :: vs') : us = us' := by
  rcases List.append_eq_append_iff.1 heq with ⟨_ | ⟨d, ds⟩, rfl, hvs⟩ | ⟨_ | ⟨d, ds⟩, rfl, hvs⟩
  · rw [List.append_nil]
  · obtain ⟨rfl, -⟩ := List.cons.inj hvs
    exact absurd h' (h.not_append_closing hc)
  · rw [List.append_nil]
  · obtain ⟨rfl, -⟩ := List.cons.inj hvs
    exact absurd h (h'.not_append_closing hc')

/-- The last opening parenthesis before tokens that match is the same one. -/
theorem eq_of_opening {o' : Token} {us' vs' : List Token} (h : Balanced vs) (h' : Balanced vs')
    (ho : o.kind = .symbol .leftParen) (ho' : o'.kind = .symbol .leftParen)
    (heq : us ++ o :: vs = us' ++ o' :: vs') : us = us' := by
  rcases List.append_eq_append_iff.1 heq with ⟨_ | ⟨d, ds⟩, rfl, hvs⟩ | ⟨_ | ⟨d, ds⟩, rfl, hvs⟩
  · rw [List.append_nil]
  · obtain ⟨rfl, rfl⟩ := List.cons.inj hvs
    exact absurd h (h'.not_append_opening ho')
  · rw [List.append_nil]
  · obtain ⟨rfl, rfl⟩ := List.cons.inj hvs
    exact absurd h' (h.not_append_opening ho)

end Balanced

/-- **A parenthesis has one partner at most.** -/
theorem Pairs.unique {i' j' : Nat} (h : Pairs ts i j) (h' : Pairs ts i' j') :
    i = i' ↔ j = j' := by
  obtain ⟨us, o, vs, c, ws, rfl, rfl, rfl, ho, hc, hvs⟩ := h
  obtain ⟨us', o', vs', c', ws', heq, rfl, rfl, ho', hc', hvs'⟩ := h'
  constructor
  · intro hi
    obtain ⟨rfl, hrest⟩ := List.append_inj heq hi
    rw [hvs.eq_of_closing hvs' hc hc' (List.cons.inj hrest).2]
  · intro hj
    have hcut : (us ++ o :: vs) ++ c :: ws = (us' ++ o' :: vs') ++ c' :: ws' := by simpa using heq
    obtain ⟨hfront, -⟩ := List.append_inj hcut (by simp; omega)
    rw [hvs.eq_of_opening hvs' ho ho' hfront]

/-- A closing parenthesis that is left over is the first one behind tokens that match. -/
theorem exists_closing (h : closers ts = n + 1) : ∃ us c vs, ts = us ++ c :: vs ∧
    Balanced us ∧ c.kind = .symbol .rightParen ∧ closers vs = n := by
  induction hlen : ts.length using Nat.strongRecOn generalizing ts n with
  | ind m ih =>
    subst hlen
    cases ts with
    | nil => cases h
    | cons t ts =>
      rw [closers_cons] at h
      by_cases hc : t.kind = .symbol .rightParen
      · rw [turn_closing hc] at h
        exact ⟨[], t, ts, rfl, .nil, hc, Nat.succ.inj h⟩
      by_cases ho : t.kind = .symbol .leftParen
      · -- It closes the first one, and what is left over comes behind it.
        rw [turn_opening ho] at h
        obtain ⟨us, c, vs, rfl, hus, hc, hvs⟩ :=
          ih _ (Nat.lt_succ_self _) (show closers ts = n + 1 + 1 by omega) rfl
        obtain ⟨us', c', ws, rfl, hus', hc', hws⟩ := ih vs.length (by simp; omega) hvs rfl
        exact ⟨t :: (us ++ c :: us'), c', ws, by simp, .group ho hc hus hus', hc', hws⟩
      · rw [turn_other ho hc] at h
        obtain ⟨us, c, vs, rfl, hus, hc', hvs⟩ := ih _ (Nat.lt_succ_self _) h rfl
        exact ⟨t :: us, c, vs, rfl, .other ho hc hus, hc', hvs⟩

/-- Where fewer are left over than before, an opening parenthesis stands before tokens that
match. -/
theorem exists_opening (hn : 0 < n) (h : ts.foldr turn n < n) : ∃ us o vs, ts = us ++ o :: vs ∧
    o.kind = .symbol .leftParen ∧ Balanced vs := by
  induction hlen : ts.length using Nat.strongRecOn generalizing ts n with
  | ind m ih =>
    subst hlen
    rcases List.eq_nil_or_concat ts with rfl | ⟨ts, t, rfl⟩
    · exact absurd h (Nat.lt_irrefl n)
    · rw [List.concat_eq_append] at h ⊢
      rw [List.foldr_append, List.foldr_cons, List.foldr_nil] at h
      have hlt : ts.length < (ts.concat t).length := by simp
      by_cases ho : t.kind = .symbol .leftParen
      · exact ⟨ts, t, [], rfl, ho, .nil⟩
      by_cases hc : t.kind = .symbol .rightParen
      · -- It is closed by the first one before it, which stands behind the one looked for.
        rw [turn_closing hc] at h
        obtain ⟨us, o, vs, rfl, ho', hvs⟩ := ih _ hlt (Nat.succ_pos n) (Nat.lt_succ_of_lt h) rfl
        rw [List.foldr_append, List.foldr_cons, hvs.foldr_turn, turn_opening ho',
          Nat.add_sub_cancel] at h
        obtain ⟨us', o', vs', rfl, ho'', hvs'⟩ := ih us.length (by simp) hn h rfl
        refine ⟨us', o', vs' ++ o :: (vs ++ [t]), by simp, ho'', ?_⟩
        exact hvs'.append (.group ho' hc hvs .nil)
      · rw [turn_other ho hc] at h
        obtain ⟨us, o, vs, rfl, ho', hvs⟩ := ih _ hlt hn h rfl
        exact ⟨us, o, vs ++ [t], by simp, ho', hvs.append (.other ho hc .nil)⟩

/-! ### What the number tells of the matching -/

/-- A token of the kind stands behind `i` others. -/
theorem isAt_iff {k : Kind} :
    IsAt k ts i ↔ ∃ us t vs, ts = us ++ t :: vs ∧ us.length = i ∧ t.kind = k := by
  constructor
  · intro h
    obtain ⟨t, ht, hk⟩ := Option.map_eq_some_iff.1 h
    obtain ⟨hlt, rfl⟩ := List.getElem?_eq_some_iff.1 ht
    exact ⟨ts.take i, ts[i], ts.drop (i + 1), by simp, by simp; omega, hk⟩
  · rintro ⟨us, t, vs, rfl, rfl, rfl⟩
    simp [IsAt]

/-- A token stands among the tokens only. -/
theorem IsAt.lt_length {k : Kind} (h : IsAt k ts i) : i < ts.length := by
  obtain ⟨us, t, vs, rfl, rfl, -⟩ := isAt_iff.1 h
  simp

/-- The first token is the one at zero. -/
theorem isAt_zero_iff {k : Kind} : IsAt k (t :: ts) 0 ↔ t.kind = k := by
  simp [IsAt]

/-- One token more in front moves all others by one. -/
theorem isAt_succ_iff {k : Kind} : IsAt k (t :: ts) (i + 1) ↔ IsAt k ts i := Iff.rfl

/-- Nothing stands among no tokens. -/
theorem not_isAt_nil {k : Kind} : ¬ IsAt k [] i := by
  simp [IsAt]

/-- The first parenthesis belongs to the closing one behind matching parentheses. -/
theorem pairs_zero_iff : Pairs (t :: ts) 0 j ↔ ∃ vs c ws, ts = vs ++ c :: ws ∧
    vs.length + 1 = j ∧ t.kind = .symbol .leftParen ∧ c.kind = .symbol .rightParen ∧
      Balanced vs := by
  constructor
  · rintro ⟨us, o, vs, c, ws, hts, hi, hj, h⟩
    obtain rfl := List.eq_nil_of_length_eq_zero hi
    obtain ⟨rfl, rfl⟩ := List.cons.inj hts
    exact ⟨vs, c, ws, rfl, by omega, h⟩
  · rintro ⟨vs, c, ws, rfl, rfl, h⟩
    exact ⟨[], t, vs, c, ws, rfl, rfl, by omega, h⟩

/-- A token more in front changes no pair of those behind it. -/
theorem pairs_succ_iff : Pairs (t :: ts) (i + 1) (j + 1) ↔ Pairs ts i j := by
  constructor
  · rintro ⟨_ | ⟨u, us⟩, o, vs, c, ws, hts, hi, hj, h⟩
    · cases hi
    · obtain ⟨rfl, rfl⟩ := List.cons.inj hts
      exact ⟨us, o, vs, c, ws, rfl, Nat.succ.inj hi, by omega, h⟩
  · rintro ⟨us, o, vs, c, ws, rfl, rfl, rfl, h⟩
    exact ⟨t :: us, o, vs, c, ws, rfl, rfl, by omega, h⟩

/-- Nothing closes in front of all others. -/
theorem not_pairs_zero : ¬ Pairs ts i 0 := by
  rintro ⟨us, o, vs, c, ws, -, -, hj, -⟩
  omega

/-- What is right of a token does not depend on what is in front of it. -/
theorem outer_succ_iff : Outer (t :: ts) (i + 1) ↔ Outer ts i := by
  constructor
  · intro h j hj hc
    obtain ⟨_ | k, hk, hp⟩ := h (j + 1) (Nat.succ_lt_succ hj) hc
    · cases hk
    · exact ⟨k, Nat.lt_of_succ_lt_succ hk, pairs_succ_iff.1 hp⟩
  · intro h j hj hc
    cases j with
    | zero => cases hj
    | succ j =>
      obtain ⟨k, hk, hp⟩ := h j (Nat.lt_of_succ_lt_succ hj) hc
      exact ⟨k + 1, Nat.succ_lt_succ hk, pairs_succ_iff.2 hp⟩

/-- All closing parentheses behind the first token belong to others if none is left over. -/
theorem outer_zero_iff : Outer (t :: ts) 0 ↔ closers ts = 0 := by
  constructor
  · intro h
    -- One that is left over has tokens before it that match, and so no partner among them.
    rcases hn : closers ts with _ | n
    · rfl
    obtain ⟨us, c, vs, rfl, hus, hc, -⟩ := exists_closing hn
    obtain ⟨_ | k, hk, hp⟩ :=
      h (us.length + 1) (Nat.succ_pos _) (isAt_succ_iff.2 (isAt_iff.2 ⟨us, c, vs, rfl, rfl, hc⟩))
    · cases hk
    obtain ⟨xs, o, ys, d, zs, hts, hi, hj, ho, -, hys⟩ := pairs_succ_iff.1 hp
    have hcut : us ++ c :: vs = (xs ++ o :: ys) ++ d :: zs := by rw [hts]; simp
    obtain ⟨rfl, -⟩ := List.append_inj hcut (by simp; omega)
    exact absurd hus (hys.not_append_opening ho)
  · intro h j hj hc
    cases j with
    | zero => cases hj
    | succ j =>
      obtain ⟨us, c, vs, rfl, rfl, hkind⟩ := isAt_iff.1 (isAt_succ_iff.1 hc)
      rw [closers, List.foldr_append, List.foldr_cons, turn_closing hkind] at h
      obtain ⟨xs, o, ys, rfl, ho, hys⟩ :=
        exists_opening (Nat.succ_pos (vs.foldr turn 0)) (h ▸ Nat.succ_pos _)
      refine ⟨xs.length + 1, Nat.succ_pos _, pairs_succ_iff.2 ?_⟩
      exact ⟨xs, o, ys, c, vs, by simp, rfl, by simp; omega, ho, hkind, hys⟩

/-- No closing parenthesis is left over right of an outer place. -/
theorem outer_iff : Outer ts i ↔ closers (ts.drop (i + 1)) = 0 := by
  induction i generalizing ts with
  | zero =>
    cases ts with
    | nil => exact ⟨fun _ => rfl, fun _ j _ hc => absurd hc not_isAt_nil⟩
    | cons t ts => exact outer_zero_iff
  | succ i ih =>
    cases ts with
    | nil => exact ⟨fun _ => rfl, fun _ j _ hc => absurd hc not_isAt_nil⟩
    | cons t ts => exact outer_succ_iff.trans ih

/-- The first token stays open if it opens and nothing is left over to close it. -/
theorem unmatched_zero_iff :
    Unmatched (t :: ts) 0 ↔ t.kind = .symbol .leftParen ∧ closers ts = 0 := by
  rw [Unmatched, isAt_zero_iff]
  refine and_congr_right fun ho => ⟨fun h => ?_, ?_⟩
  · rcases hn : closers ts with _ | n
    · rfl
    obtain ⟨us, c, vs, rfl, hus, hc, -⟩ := exists_closing hn
    exact absurd (pairs_zero_iff.2 ⟨us, c, vs, rfl, rfl, ho, hc, hus⟩) (h _)
  · rintro h j hp
    obtain ⟨vs, c, ws, rfl, -, -, hc, hvs⟩ := pairs_zero_iff.1 hp
    rw [closers, List.foldr_append, List.foldr_cons, turn_closing hc, hvs.foldr_turn] at h
    exact Nat.succ_ne_zero _ h

/-- A token more in front closes no parenthesis behind it. -/
theorem unmatched_succ_iff : Unmatched (t :: ts) (i + 1) ↔ Unmatched ts i := by
  refine and_congr_right fun _ => ⟨fun h j hp => h (j + 1) (pairs_succ_iff.2 hp), fun h j hp => ?_⟩
  cases j with
  | zero => exact not_pairs_zero hp
  | succ j => exact h j (pairs_succ_iff.1 hp)

/-- An opening parenthesis belongs to none if no closing one is left over right of it. -/
theorem unmatched_iff :
    Unmatched ts i ↔ IsAt (.symbol .leftParen) ts i ∧ closers (ts.drop (i + 1)) = 0 := by
  induction i generalizing ts with
  | zero =>
    cases ts with
    | nil => exact ⟨fun h => absurd h.1 not_isAt_nil, fun h => absurd h.1 not_isAt_nil⟩
    | cons t ts => rw [unmatched_zero_iff, isAt_zero_iff]; rfl
  | succ i ih =>
    cases ts with
    | nil => exact ⟨fun h => absurd h.1 not_isAt_nil, fun h => absurd h.1 not_isAt_nil⟩
    | cons t ts => exact unmatched_succ_iff.trans ih

instance (ts : List Token) (i : Nat) : Decidable (Outer ts i) := decidable_of_iff _ outer_iff.symm

instance (ts : List Token) (i : Nat) : Decidable (Unmatched ts i) :=
  decidable_of_iff _ unmatched_iff.symm

/-! ### What the sweep reports -/

/-- The parenthesis at `i` opens the argument list of the cursor: it belongs to none, and it is
the last such one. -/
def OpensList (ts : List Token) (i : Nat) : Prop :=
  Unmatched ts i ∧ ∀ j < ts.length, i < j → ¬ Unmatched ts j

/-- A comma of the argument list of the cursor: in no parentheses that are closed, with none
right of it that stay open. -/
def IsListComma (ts : List Token) (i : Nat) : Prop :=
  IsAt (.symbol .comma) ts i ∧ Outer ts i ∧ ∀ j < ts.length, i < j → ¬ Unmatched ts j

/-- A name with a dot behind it, in no parentheses that are closed. -/
def IsLink (ts : List Token) (i : Nat) : Prop :=
  IsAt .name ts i ∧ Outer ts i ∧ IsAt (.symbol .dot) ts (i + 1)

instance (ts : List Token) (i : Nat) : Decidable (OpensList ts i) :=
  inferInstanceAs (Decidable (_ ∧ ∀ j < ts.length, i < j → ¬ Unmatched ts j))

instance (ts : List Token) (i : Nat) : Decidable (IsListComma ts i) :=
  inferInstanceAs (Decidable (_ ∧ _ ∧ ∀ j < ts.length, i < j → ¬ Unmatched ts j))

instance (ts : List Token) (i : Nat) : Decidable (IsLink ts i) :=
  inferInstanceAs (Decidable (_ ∧ _ ∧ _))

/-- The text of the token directly left of `i`, if it is a name. -/
def nameBefore (ts : List Token) : (i : Nat) → Option String
  | 0 => none
  | i + 1 => (ts[i]?.filter (·.kind = .name)).map (·.text)

/-- All that a token does to the sweep. -/
theorem Sweep.step_eq (t : Token) (s : Sweep) : step t s =
    { context :=
        { inParameterList :=
            s.context.inParameterList || decide (t.kind = .symbol .leftParen ∧ s.depth = 0)
          activeParameter := s.context.activeParameter +
            if t.kind = .symbol .comma ∧ s.depth = 0 ∧ s.context.inParameterList = false then 1
            else 0
          afterAnyDot := s.context.afterAnyDot || decide (t.kind = .symbol .dot)
          chain :=
            (if t.kind = .name ∧ s.depth = 0 ∧ s.beforeDot = true then [.ofToken t] else []) ++
              s.context.chain
          callTarget := s.target t }
      depth := turn t s.depth
      beforeDot := t.kind = .symbol .dot
      beforeList := t.kind = .symbol .leftParen ∧ s.depth = 0 ∧
        s.context.inParameterList = false } := by
  unfold step
  split
  · next hk => simp [hk, turn_closing]
  · next hk =>
    rcases Nat.eq_zero_or_pos s.depth with hd | hd <;>
      cases hl : s.context.inParameterList <;>
        simp [hk, turn_opening, hd, hl, Nat.ne_of_gt]
  · next hk =>
    by_cases hd : s.depth = 0 <;> cases hl : s.context.inParameterList <;>
      simp [hk, turn_other, hd, hl]
  · next hk => simp [hk, turn_other]
  · next hk => by_cases hd : s.depth = 0 <;> cases s.beforeDot <;> simp [hk, turn_other, hd]
  · next hc ho hcomma hdot hname =>
    simp only [imp_false] at hc ho hcomma hdot hname
    simp [hc, ho, hcomma, hdot, hname, turn_other]

/-- The sweep counts the closing parentheses that are left over. -/
theorem sweep_depth (ts : List Token) : (sweep ts).depth = closers ts := by
  induction ts with
  | nil => rfl
  | cons t ts ih => rw [sweep_cons, Sweep.step_eq, closers_cons, ← ih]

/-- A parenthesis stays open if the first one does or one behind it. -/
theorem exists_unmatched_cons : (∃ i, Unmatched (t :: ts) i) ↔
    (t.kind = .symbol .leftParen ∧ closers ts = 0) ∨ ∃ i, Unmatched ts i := by
  rw [← unmatched_zero_iff]
  constructor
  · rintro ⟨_ | i, h⟩
    · exact .inl h
    · exact .inr ⟨i, unmatched_succ_iff.1 h⟩
  · rintro (h | ⟨i, h⟩)
    · exact ⟨0, h⟩
    · exact ⟨i + 1, unmatched_succ_iff.2 h⟩

/-- The sweep reports a list if some parenthesis stays open. -/
theorem sweep_inParameterList (ts : List Token) :
    (sweep ts).context.inParameterList = true ↔ ∃ i, Unmatched ts i := by
  induction ts with
  | nil => exact ⟨nofun, fun ⟨_, h⟩ => absurd h.1 not_isAt_nil⟩
  | cons t ts ih =>
    rw [exists_unmatched_cons, ← ih, ← sweep_depth, sweep_cons, Sweep.step_eq, Bool.or_eq_true,
      decide_eq_true_iff, or_comm]

/-- The sweep keeps in mind whether the first of the tokens is a dot. -/
theorem sweep_beforeDot (ts : List Token) :
    (sweep ts).beforeDot = true ↔ IsAt (.symbol .dot) ts 0 := by
  cases ts with
  | nil => exact ⟨nofun, fun h => absurd h not_isAt_nil⟩
  | cons t ts => rw [sweep_cons, Sweep.step_eq, isAt_zero_iff, decide_eq_true_iff]

/-- The sweep reports a dot if there is any. -/
theorem sweep_afterAnyDot (ts : List Token) :
    (sweep ts).context.afterAnyDot = true ↔ ∃ t ∈ ts, t.kind = .symbol .dot := by
  induction ts with
  | nil => simp [sweep]
  | cons t ts ih =>
    rw [sweep_cons, Sweep.step_eq, Bool.or_eq_true, ih, decide_eq_true_iff, or_comm,
      List.exists_mem_cons_iff]

/-- No parenthesis right of the first token stays open if none behind it does. -/
theorem forall_not_unmatched_cons :
    (∀ j < (t :: ts).length, 0 < j → ¬ Unmatched (t :: ts) j) ↔ ¬ ∃ j, Unmatched ts j := by
  constructor
  · rintro h ⟨j, hj⟩
    exact h (j + 1) (Nat.succ_lt_succ hj.1.lt_length) (Nat.succ_pos j) (unmatched_succ_iff.2 hj)
  · rintro h (_ | j) - hj hu
    · exact absurd hj (Nat.lt_irrefl 0)
    · exact h ⟨j, unmatched_succ_iff.1 hu⟩

/-- A token more in front changes nothing right of the others. -/
theorem forall_not_unmatched_succ :
    (∀ j < (t :: ts).length, i + 1 < j → ¬ Unmatched (t :: ts) j) ↔
      ∀ j < ts.length, i < j → ¬ Unmatched ts j := by
  constructor
  · intro h j hj hij hu
    exact h (j + 1) (Nat.succ_lt_succ hj) (Nat.succ_lt_succ hij) (unmatched_succ_iff.2 hu)
  · rintro h (_ | j) hj hij hu
    · cases hij
    · exact h j (Nat.lt_of_succ_lt_succ hj) (Nat.lt_of_succ_lt_succ hij) (unmatched_succ_iff.1 hu)

/-- The first token is a comma of the list if nothing right of it is open or left over. -/
theorem isListComma_zero_iff : IsListComma (t :: ts) 0 ↔
    t.kind = .symbol .comma ∧ closers ts = 0 ∧ ¬ ∃ i, Unmatched ts i := by
  rw [IsListComma, isAt_zero_iff, outer_zero_iff, forall_not_unmatched_cons]

/-- A token more in front leaves the commas behind it in the list or out of it. -/
theorem isListComma_succ_iff : IsListComma (t :: ts) (i + 1) ↔ IsListComma ts i := by
  rw [IsListComma, isAt_succ_iff, outer_succ_iff, forall_not_unmatched_succ]
  rfl

/-- The sweep counts the commas of the list. -/
theorem sweep_activeParameter (ts : List Token) :
    (sweep ts).context.activeParameter = (List.range ts.length).countP (IsListComma ts ·) := by
  induction ts with
  | nil => rfl
  | cons t ts ih =>
    rw [List.length_cons, List.range_succ_eq_map, List.countP_cons, List.countP_map]
    simp only [Function.comp_def, Nat.succ_eq_add_one, isListComma_succ_iff, isListComma_zero_iff,
      decide_eq_true_iff, ← sweep_inParameterList, Bool.not_eq_true, ← sweep_depth]
    rw [sweep_cons, Sweep.step_eq, ih]

/-- The first token is a link if it is a name in front of a dot and nothing is left over. -/
theorem isLink_zero_iff : IsLink (t :: ts) 0 ↔
    t.kind = .name ∧ closers ts = 0 ∧ IsAt (.symbol .dot) ts 0 := by
  rw [IsLink, isAt_zero_iff, outer_zero_iff, isAt_succ_iff]

/-- A token more in front leaves the links behind it. -/
theorem isLink_succ_iff : IsLink (t :: ts) (i + 1) ↔ IsLink ts i := by
  rw [IsLink, isAt_succ_iff, outer_succ_iff, isAt_succ_iff]
  rfl

/-- The sweep reports the links, in the order of the text. -/
theorem sweep_chain (ts : List Token) :
    (sweep ts).context.chain =
      ((List.range ts.length).filter (IsLink ts ·)).filterMap fun i => ts[i]?.map .ofToken := by
  induction ts with
  | nil => rfl
  | cons t ts ih =>
    rw [List.length_cons, List.range_succ_eq_map, List.filter_cons, List.filter_map]
    simp only [Function.comp_def, Nat.succ_eq_add_one, isLink_succ_iff, isLink_zero_iff,
      decide_eq_true_iff, ← sweep_beforeDot, ← sweep_depth]
    rw [sweep_cons, Sweep.step_eq, ih]
    split_ifs <;> simp [List.filterMap_map]

/-- The first token opens the list if it stays open and none right of it does. -/
theorem opensList_zero_iff : OpensList (t :: ts) 0 ↔
    t.kind = .symbol .leftParen ∧ closers ts = 0 ∧ ¬ ∃ i, Unmatched ts i := by
  rw [OpensList, unmatched_zero_iff, forall_not_unmatched_cons, and_assoc]

/-- A token more in front leaves the list where it is opened. -/
theorem opensList_succ_iff : OpensList (t :: ts) (i + 1) ↔ OpensList ts i := by
  rw [OpensList, unmatched_succ_iff, forall_not_unmatched_succ]
  rfl

/-- The sweep keeps in mind whether the first of the tokens opens the list. -/
theorem sweep_beforeList (ts : List Token) :
    (sweep ts).beforeList = true ↔ OpensList ts 0 := by
  cases ts with
  | nil => exact ⟨nofun, fun h => absurd h.1.1 not_isAt_nil⟩
  | cons t ts =>
    rw [sweep_cons, Sweep.step_eq, decide_eq_true_iff, opensList_zero_iff, ← sweep_depth,
      ← sweep_inParameterList, Bool.not_eq_true]

/-- The target is the name before the parenthesis that opens the list, if there is one. -/
theorem sweep_callTarget (ts : List Token) :
    (∀ i, OpensList ts i → (sweep ts).context.callTarget = nameBefore ts i) ∧
      ((¬ ∃ i, Unmatched ts i) → (sweep ts).context.callTarget = none) := by
  induction ts with
  | nil => exact ⟨fun _ h => absurd h.1.1 not_isAt_nil, fun _ => rfl⟩
  | cons t ts ih =>
    obtain ⟨hlist, hnone⟩ := ih
    -- Unless the list is opened right here, its target is already known.
    have hskip (h : ¬ OpensList ts 0) :
        (sweep (t :: ts)).context.callTarget = (sweep ts).context.callTarget := by
      rw [sweep_cons, Sweep.step_eq]
      exact if_neg fun hb => h ((sweep_beforeList ts).1 hb.1)
    refine ⟨fun i h => ?_, fun h => ?_⟩
    · match i with
      | 0 =>
        obtain ⟨-, -, hopen⟩ := opensList_zero_iff.1 h
        rw [hskip fun h0 => hopen ⟨0, h0.1⟩, hnone hopen]
        rfl
      | 1 =>
        have h0 := opensList_succ_iff.1 h
        rw [sweep_cons, Sweep.step_eq]
        by_cases hname : t.kind = .name
        · simp [Sweep.target, (sweep_beforeList ts).2 h0, nameBefore, hname, Option.filter_some]
        · simp [Sweep.target, hlist 0 h0, nameBefore, hname, Option.filter_some]
      | i + 2 =>
        have hsucc := opensList_succ_iff.1 h
        rw [hskip fun h0 => h0.2 _ hsucc.1.1.lt_length (Nat.succ_pos i) hsucc.1, hlist _ hsucc]
        rfl
    · have hopen : ¬ ∃ i, Unmatched ts i := fun hex => h (exists_unmatched_cons.2 (.inr hex))
      rw [hskip fun h0 => hopen ⟨0, h0.1⟩, hnone hopen]

/-- **What the sweep reports can be read off the matching.**  The cursor is in a parameter list if
an opening parenthesis belongs to none.  Its parameter is counted by the commas in no closed
parentheses behind the last such one, and its target is the name before that one.  The links are
the names before a dot that are in no closed parentheses, in the order of the text. -/
theorem ofText_matching (text : String) (column : Nat) :
    let ts := (Token.tokenizePrefix text).filter (isVisible column)
    let context := ofText text column
    (context.inParameterList = true ↔ ∃ i, Unmatched ts i) ∧
    context.activeParameter = (List.range ts.length).countP (IsListComma ts ·) ∧
    (∀ i, OpensList ts i → context.callTarget = nameBefore ts i) ∧
    ((¬ ∃ i, Unmatched ts i) → context.callTarget = none) ∧
    (context.afterAnyDot = true ↔ ∃ t ∈ ts, t.kind = .symbol .dot) ∧
    context.chain =
      ((List.range ts.length).filter (IsLink ts ·)).filterMap fun i => ts[i]?.map .ofToken :=
  let ts := (Token.tokenizePrefix text).filter (isVisible column)
  ⟨sweep_inParameterList ts, sweep_activeParameter ts, (sweep_callTarget ts).1,
    (sweep_callTarget ts).2, sweep_afterAnyDot ts, sweep_chain ts⟩

/-- A parenthesis that closes nothing, and a call in the arguments of one that stays open. -/
example :
    let ts := (Token.tokenizePrefix ") f(g(1, 2), h.").filter (isVisible 15)
    (List.range ts.length).filter (Unmatched ts ·) = [2] ∧ nameBefore ts 2 = some "f" ∧
      (List.range ts.length).filter (IsListComma ts ·) = [9] ∧
      (List.range ts.length).filter (IsLink ts ·) = [10] := by
  decide +kernel

end LineContext
end WrenAnalysis
