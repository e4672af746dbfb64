/-
# What a parser takes

A parser that ends well has taken some tokens from the front of those ahead.
`Parser.Reads` says which ones go with which value; there is a rule for each way of
building a parser, with the tokens of the parts one behind the other.
-/

import WrenAnalysis.Proofs.Syntax.Parser

namespace WrenAnalysis

/-- Newlines. -/
def Lines (ts : List Token) : Prop := ∀ t ∈ ts, t.kind = .line

/-- No tokens are no newlines. -/
theorem lines_nil : Lines [] := nofun

/-- The tokens of an attribute, which reaches to the end of its line. -/
structure Attribute (ts : List Token) : Prop where
  head : ∃ t us, ts = t :: us ∧ t.kind = .symbol .hash
  inLine : ∀ t ∈ ts, t.kind ≠ .line ∧ t.kind ≠ .eof

namespace Cursor

variable {c : Cursor}

/-- A token that is no end stands at the front. -/
theorem ahead_eq (hstop : c.stop.kind = .eof) (h : c.current.kind ≠ .eof) :
    c.ahead = c.current :: c.advance.ahead ∧ c.advance.stop = c.stop := by
  have hmore : ¬ c.atEnd = true := mt (atEnd_iff hstop).1 h
  obtain ⟨_ | ⟨t, ts⟩, stop⟩ := c
  · exact absurd hstop h
  · rw [advance, if_neg hmore]
    exact ⟨rfl, rfl⟩

end Cursor

namespace Parser

variable {α β σ : Type}

/-- If the parser ends well from `c`, the tokens it takes go with its value by `Q`. -/
def Yields (p : Parser α) (c : Cursor) (Q : α → List Token → Prop) : Prop :=
  c.stop.kind = .eof → ∀ a d, p c = .ok (a, d) →
    ∃ us, c.ahead = us ++ d.ahead ∧ d.stop = c.stop ∧ Q a us

/-- Wherever the parser ends well, the tokens it takes go with its value by `Q`. -/
def Reads (p : Parser α) (Q : α → List Token → Prop) : Prop := ∀ c, p.Yields c Q

variable {p : Parser α} {F : α → Parser β} {c : Cursor} {k : Kind} {P : α → List Token → Prop}
  {Q : β → List Token → Prop}

/-- A weaker condition on what is read is met as well. -/
theorem Yields.mono {Q' : β → List Token → Prop} {q : Parser β} (h : q.Yields c Q)
    (hQ : ∀ b us, Q b us → Q' b us) : q.Yields c Q' := by
  intro hstop b d hb
  obtain ⟨us, hus, hd, hQb⟩ := h hstop b d hb
  exact ⟨us, hus, hd, hQ b us hQb⟩

/-- A value takes no tokens. -/
theorem yields_pure {b : β} (h : Q b []) : (pure b : Parser β).Yields c Q := by
  intro _ b' d hb
  cases hb
  exact ⟨[], rfl, rfl, h⟩

/-- A parser that refuses everything reads nothing. -/
theorem yields_reject (e : Expectation) : (reject e : Parser β).Yields c Q := nofun

/-- The tokens of two parsers stand one behind the other. -/
theorem yields_bind (hp : p.Yields c P)
    (hF : ∀ a us d, P a us → (F a).Yields d fun b vs => Q b (us ++ vs)) :
    (p >>= F).Yields c Q := by
  intro hstop b e hb
  obtain ⟨a, d, ha, hb⟩ := bind_eq_ok_iff.1 hb
  obtain ⟨us, hus, hd, hP⟩ := hp hstop a d ha
  obtain ⟨vs, hvs, he, hQ⟩ := hF a us d hP (hd ▸ hstop) b e hb
  exact ⟨us ++ vs, by rw [hus, hvs, List.append_assoc], he.trans hd, hQ⟩

/-- A parser whose value is only dressed. -/
theorem yields_map {f : α → β} (hp : p.Yields c P) (hQ : ∀ a us, P a us → Q (f a) us) :
    (p >>= fun a => pure (f a)).Yields c Q :=
  yields_bind hp fun a us _ hP => yields_pure (by rw [List.append_nil]; exact hQ a us hP)

/-! ### One token -/

/-- A look at the kind of the token takes nothing. -/
theorem yields_kind {F : Kind → Parser β} (h : (F c.current.kind).Yields c Q) :
    (kind >>= F).Yields c Q := fun hstop b e hb => h hstop b e hb

/-- A look at the kind of the second token takes nothing. -/
theorem yields_secondKind {F : Kind → Parser β} (h : (F c.second.kind).Yields c Q) :
    (secondKind >>= F).Yields c Q := fun hstop b e hb => h hstop b e hb

/-- A look for the end takes nothing. -/
theorem yields_atEnd {A B : Parser β} (hA : A.Yields c Q) (hB : B.Yields c Q) :
    (atEnd >>= fun b => if b = true then A else B).Yields c Q := by
  intro hstop b e hb
  have hb : (if c.atEnd = true then A else B) c = .ok (b, e) := hb
  split at hb
  · exact hA hstop b e hb
  · exact hB hstop b e hb

/-- The token that is taken is the one that is there. -/
theorem yields_take {F : Token → Parser β} (hk : c.current.kind ≠ .eof)
    (hF : ∀ t d, t.kind = c.current.kind → (F t).Yields d fun b vs => Q b (t :: vs)) :
    (take >>= F).Yields c Q := by
  intro hstop b e hb
  obtain ⟨hahead, hd⟩ := c.ahead_eq hstop hk
  obtain ⟨vs, hvs, he, hQ⟩ := hF c.current c.advance rfl (hd ▸ hstop) b e hb
  exact ⟨c.current :: vs, by rw [hahead, hvs, List.cons_append], he.trans hd, hQ⟩

/-- Two tokens, of which the second is seen before the first is taken. -/
theorem yields_takeBoth {A : Parser β} (hk : c.current.kind ≠ .eof) (hk' : c.second.kind ≠ .eof)
    (hA : ∀ t t' d, t.kind = c.current.kind → t'.kind = c.second.kind →
      A.Yields d fun b vs => Q b (t :: t' :: vs)) :
    (take >>= fun _ => take >>= fun _ => A).Yields c Q := by
  intro hstop b e hb
  obtain ⟨hahead, hd⟩ := c.ahead_eq hstop hk
  have hnext : c.advance.current.kind = c.second.kind := by rw [Cursor.current_advance hstop hk]
  have hrest : (take >>= fun _ => A).Yields c.advance fun b vs => Q b (c.current :: vs) :=
    yields_take (hnext ▸ hk') fun t d ht => hA c.current t d rfl (ht.trans hnext)
  obtain ⟨vs, hvs, he, hQ⟩ := hrest (hd ▸ hstop) b e hb
  exact ⟨c.current :: vs, by rw [hahead, hvs, List.cons_append], he.trans hd, hQ⟩

/-- A token that may be missing is taken if it is there. -/
theorem yields_accept (hk : k ≠ .eof) {A B : Parser β}
    (hA : ∀ t d, t.kind = k → A.Yields d fun b vs => Q b (t :: vs)) (hB : B.Yields c Q) :
    (accept k >>= fun b => if b = true then A else B).Yields c Q := by
  intro hstop b e hb
  by_cases hck : c.current.kind = k
  · have hyes : accept k c = .ok (true, c.advance) := if_pos hck
    rw [bind_of_ok hyes] at hb
    obtain ⟨hahead, hd⟩ := c.ahead_eq hstop (hck ▸ hk)
    obtain ⟨vs, hvs, he, hQ⟩ := hA c.current c.advance hck (hd ▸ hstop) b e hb
    exact ⟨c.current :: vs, by rw [hahead, hvs, List.cons_append], he.trans hd, hQ⟩
  · have hno : accept k c = .ok (false, c) := if_neg hck
    rw [bind_of_ok hno] at hb
    exact hB hstop b e hb

/-- A token that is expected is taken and has the kind that it should. -/
theorem reads_expect (hk : k ≠ .eof) (e : Expectation) :
    (expect k e).Reads fun t us => t.kind = k ∧ us = [t] := by
  intro c hstop t d ht
  unfold expect at ht
  split at ht
  · next hck =>
    cases ht
    obtain ⟨hahead, hd⟩ := c.ahead_eq hstop (hck ▸ hk)
    exact ⟨[c.current], hahead, hd, hck, rfl⟩
  · cases ht

/-- Behind a token that is expected stands what is read next. -/
theorem yields_expect (hk : k ≠ .eof) (e : Expectation) {F : Token → Parser β}
    (hF : ∀ t d, t.kind = k → (F t).Yields d fun b vs => Q b (t :: vs)) :
    (expect k e >>= F).Yields c Q := by
  refine yields_bind (reads_expect hk e c) ?_
  rintro t _ d ⟨ht, rfl⟩
  exact hF t d ht

/-- A name is one token. -/
theorem reads_name (e : Expectation) : (name e).Reads fun n us => n.kind = .name ∧ us = [n] :=
  reads_expect (by simp) e

/-- Behind a name stands what is read next. -/
theorem yields_name (e : Expectation) {F : Token → Parser β}
    (hF : ∀ t d, t.kind = .name → (F t).Yields d fun b vs => Q b (t :: vs)) :
    (name e >>= F).Yields c Q := yields_expect (by simp) e hF

/-- A part that is there behind a token of kind `k`, and else is missing. -/
theorem yields_optional (hk : k ≠ .eof) {A : Parser α} {J : Option α → Parser β}
    (hA : A.Reads P)
    (hsome : ∀ t a us d, t.kind = k → P a us →
      (J (some a)).Yields d fun b vs => Q b (t :: (us ++ vs)))
    (hnone : (J none).Yields c Q) :
    (accept k >>= fun b => if b = true then some <$> A >>= J else pure none >>= J).Yields c Q :=
  yields_accept hk (fun t d ht => yields_bind
    (yields_map (Q := fun o us => ∃ a, o = some a ∧ P a us) (hA d) fun a us hP => ⟨a, rfl, hP⟩)
    (by rintro _ us e ⟨a, rfl, hP⟩; exact hsome t a us e ht hP)) hnone

/-! ### Newlines and attributes -/

/-- What is skipped is newlines. -/
theorem reads_skipLines : skipLines.Reads fun _ us => Lines us := by
  rintro c - _ d hd
  cases hd
  refine ⟨c.ahead.takeWhile (·.kind = .line), List.takeWhile_append_dropWhile.symm, rfl, ?_⟩
  exact fun t ht => by simpa using List.all_eq_true.1 List.all_takeWhile t ht

/-- Behind newlines stands what is read next. -/
theorem yields_skipLines {A : Parser β}
    (hA : ∀ ls d, Lines ls → A.Yields d fun b vs => Q b (ls ++ vs)) :
    (skipLines >>= fun _ => A).Yields c Q :=
  yields_bind (reads_skipLines c) fun _ => hA

/-- Newlines are skipped before a token of the kind, or none are. -/
theorem reads_skipLinesBefore : (skipLinesBefore k).Reads fun _ us => Lines us := by
  intro c hstop b d hb
  unfold skipLinesBefore at hb
  split at hb
  · cases hb
    exact reads_skipLines c hstop () _ rfl
  · cases hb
    exact ⟨[], rfl, rfl, nofun⟩

/-- What is skipped from a hash on is an attribute. -/
theorem yields_skipAttribute (hk : c.current.kind = .symbol .hash) :
    skipAttribute.Yields c fun _ us => Attribute us := by
  intro hstop _ d hd
  cases hd
  have hhash : c.current.kind ≠ .line ∧ c.current.kind ≠ .eof := by simp [hk]
  refine ⟨c.ahead.takeWhile fun t => t.kind ≠ .line ∧ t.kind ≠ .eof,
    List.takeWhile_append_dropWhile.symm, rfl, ?_, ?_⟩
  · obtain ⟨hahead, -⟩ := c.ahead_eq hstop hhash.2
    rw [hahead, List.takeWhile_cons_of_pos (by simpa using hhash)]
    exact ⟨_, _, rfl, hk⟩
  · exact fun t ht => by simpa using List.all_eq_true.1 List.all_takeWhile t ht

/-! ### Repetition -/

variable {step : σ → Parser (Round σ α)} {G : σ → α → List Token → Prop}

/-- What a round may come to if the tokens of the whole repetition go with its value by
`G`. -/
def roundGives (G : σ → α → List Token → Prop) (s : σ) : Round σ α → List Token → Prop
  | .done a, us => G s a us
  | .again s', us => ∀ a vs, G s' a vs → G s a (us ++ vs)

/-- What a repetition reads is what its rounds read, one behind the other. -/
theorem reads_iterate (hstep : ∀ s, (step s).Reads (roundGives G s)) (s : σ) :
    (iterate step s).Reads (G s) := by
  intro c hstop a e h
  refine iterate_induction (motive := fun s c => c.stop.kind = .eof →
    ∃ us, c.ahead = us ++ e.ahead ∧ e.stop = c.stop ∧ G s a us) h
    (fun s c hdone hstop => hstep s c hstop _ e hdone) (fun s c s' d hagain _ ih hstop => ?_) hstop
  obtain ⟨us, hus, hd, hround⟩ := hstep s c hstop _ d hagain
  obtain ⟨vs, hvs, he, hG⟩ := ih (hd ▸ hstop)
  exact ⟨us ++ vs, by rw [hus, hvs, List.append_assoc], he.trans hd, hround a vs hG⟩

/-- What a round of a repetition that collects values may come to: `G` is what the values
still to come have to do with the tokens still to come. -/
def Collects {A : Type} (G : List A → List Token → Prop) (collected : List A) :
    Round (List A) (List A) → List Token → Prop
  | .done as, us => ∃ bs, as = collected ++ bs ∧ G bs us
  | .again as, us => ∃ bs, as = collected ++ bs ∧ ∀ cs vs, G cs vs → G (bs ++ cs) (us ++ vs)

/-- A repetition that collects reads what its rounds collect. -/
theorem reads_collect {A : Type} {G : List A → List Token → Prop}
    {step : List A → Parser (Round (List A) (List A))}
    (hstep : ∀ collected, (step collected).Reads (Collects G collected)) :
    (iterate step []).Reads G := by
  have hloop := reads_iterate (G := fun collected as us => ∃ bs, as = collected ++ bs ∧ G bs us)
    (fun collected c => (hstep collected c).mono ?_) []
  · exact fun c => (hloop c).mono fun as us ⟨bs, has, hG⟩ => has ▸ hG
  · rintro (as | as) us ⟨bs, rfl, hG⟩
    · rintro _ vs ⟨cs, rfl, hcs⟩
      exact ⟨bs ++ cs, List.append_assoc .., hG cs vs hcs⟩
    · exact ⟨bs, rfl, hG⟩

end Parser
end WrenAnalysis
