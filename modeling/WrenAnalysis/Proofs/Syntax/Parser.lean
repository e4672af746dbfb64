/-
# Parsers at a cursor

What a parser built from others comes to at a cursor, and what the end of the tokens looks
like to it.
-/

import WrenAnalysis.Syntax.Cursor

namespace WrenAnalysis

/-- What is computed from a success shows that there is one. -/
theorem exists_of_toOption_map {ε α β : Type} {x : Except ε α} {f : α → β} {b : β}
    (h : x.toOption.map f = some b) : ∃ a, x = .ok a ∧ f a = b := by
  cases x with
  | error e => cases h
  | ok a => exact ⟨a, rfl, Option.some.inj h⟩

namespace Cursor

/-- The cursor with `i` more tokens behind it. -/
def drop (c : Cursor) (i : Nat) : Cursor := ⟨c.ahead.drop i, c.stop⟩

variable {c : Cursor}

/-- Behind the last token stands a mark of the end. -/
theorem stopOf_kind (ts : List Token) : (stopOf ts).kind = .eof := by
  unfold stopOf
  split
  · rfl
  · split
    · assumption
    · rfl

/-- A list that ends with the mark of the end has it for its stop. -/
theorem stopOf_concat (ts : List Token) {t : Token} (ht : t.kind = .eof) :
    stopOf (ts ++ [t]) = t := by
  simp [stopOf, ht]

/-- A cursor at the mark of the end is at the end. -/
theorem atEnd_of_kind (h : c.current.kind = .eof) : c.atEnd = true := by
  simp [atEnd, h]

/-- If the mark of the end is kept, a cursor is at the end only there. -/
theorem atEnd_iff (hstop : c.stop.kind = .eof) : c.atEnd = true ↔ c.current.kind = .eof := by
  refine ⟨fun h => ?_, atEnd_of_kind⟩
  simp only [atEnd, Bool.or_eq_true, List.isEmpty_iff, decide_eq_true_eq] at h
  rcases h with h | h
  · rwa [current, h]
  · exact h

/-- The token behind one that is no end is the next. -/
theorem current_advance (hstop : c.stop.kind = .eof) (h : c.current.kind ≠ .eof) :
    c.advance.current = c.second := by
  have hmore : ¬ c.atEnd = true := mt (atEnd_iff hstop).1 h
  rw [advance, if_neg hmore]
  rfl

/-- The end is no newline. -/
theorem skipLines_of_kind (h : c.current.kind = .eof) : c.skipLines = c := by
  obtain ⟨_ | ⟨t, ts⟩, stop⟩ := c
  · rfl
  · have ht : t.kind = .eof := h
    simp [skipLines, ht]

end Cursor

namespace Parser

variable {α β : Type} {p : Parser α} {F : α → Parser β} {c d e : Cursor} {a : α} {b : β}

/-- Behind a parser that ends well goes the next one. -/
theorem bind_of_ok (h : p c = .ok (a, d)) : (p >>= F) c = F a d := by
  simp only [bind, h]

/-- A parser that refuses a token refuses it whatever was to follow. -/
theorem bind_of_error {r : Rejection} (h : p c = .error r) : (p >>= F) c = .error r := by
  simp only [bind, h]

/-- Two parsers end well if the first does and then the second. -/
theorem bind_eq_ok_iff : (p >>= F) c = .ok (b, e) ↔
    ∃ a d, p c = .ok (a, d) ∧ F a d = .ok (b, e) := by
  constructor
  · intro h
    cases hp : p c with
    | ok x => exact ⟨x.1, x.2, rfl, by rwa [bind_of_ok hp] at h⟩
    | error r =>
      rw [bind_of_error hp] at h
      cases h
  · rintro ⟨a, d, hp, hF⟩
    rwa [bind_of_ok hp]

/-! ### Repetition -/

section

variable {σ : Type} {step : σ → Parser (Round σ α)} {s s' : σ}

/-- A round that is the last ends the repetition. -/
theorem iterate_of_done (h : step s c = .ok (.done a, d)) : iterate step s c = .ok (a, d) := by
  rw [iterate, h]

/-- A round that takes a token is followed by the next one. -/
theorem iterate_of_again (h : step s c = .ok (.again s', d))
    (hlt : d.ahead.length < c.ahead.length) : iterate step s c = iterate step s' d := by
  rw [iterate, h]
  exact if_pos hlt

/-- A repetition that ends well: what holds of its last round, and of a round before one of
which it holds, holds from the start. -/
theorem iterate_induction {motive : σ → Cursor → Prop} (h : iterate step s c = .ok (a, e))
    (hdone : ∀ s c, step s c = .ok (.done a, e) → motive s c)
    (hagain : ∀ s c s' d, step s c = .ok (.again s', d) → d.ahead.length < c.ahead.length →
      motive s' d → motive s c) : motive s c := by
  induction hn : c.ahead.length using Nat.strongRecOn generalizing s c with
  | ind n ih =>
    subst hn
    rcases hr : step s c with r | ⟨s' | a', d⟩
    · rw [iterate, hr] at h
      cases h
    · by_cases hlt : d.ahead.length < c.ahead.length
      · rw [iterate_of_again hr hlt] at h
        exact hagain s c s' d hr hlt (ih _ hlt h rfl)
      · rw [iterate, hr] at h
        simp only [if_neg hlt] at h
        cases h
    · rw [iterate_of_done hr] at h
      cases h
      exact hdone s c hr

end

/-! ### Parsers that refuse a token -/

/-- The parser refuses tokens of kind `k`. -/
def Refuses (k : Kind) (p : Parser α) : Prop :=
  ∀ c : Cursor, c.current.kind = k → ∃ r, p c = .error r

/-- The parser refuses the end. -/
def Hungry (p : Parser α) : Prop := Refuses .eof p

/-- A parser that refuses everything refuses each kind. -/
theorem refuses_reject (k : Kind) (e : Expectation) : Refuses k (reject e : Parser α) :=
  fun c _ => ⟨⟨e, c⟩, rfl⟩

/-- What the first of two parsers refuses, both refuse. -/
theorem Refuses.bind {k : Kind} (hp : Refuses k p) (F : α → Parser β) : Refuses k (p >>= F) :=
  fun c hc => by
    obtain ⟨r, hr⟩ := hp c hc
    exact ⟨r, bind_of_error hr⟩

/-- A look at the kind of the token refuses what it chooses to refuse. -/
theorem refuses_kind {k : Kind} {F : Kind → Parser β} (hF : Refuses k (F k)) :
    Refuses k (kind >>= F) := fun c hc => by
  obtain ⟨r, hr⟩ := hF c hc
  refine ⟨r, ?_⟩
  show F c.current.kind c = .error r
  rw [hc, hr]

/-- A token that is expected is missed at the end. -/
theorem hungry_expect {k : Kind} (hk : k ≠ .eof) (e : Expectation) : Hungry (expect k e) :=
  fun c hc => ⟨⟨e, c⟩, if_neg fun h => hk (h.symm.trans hc)⟩

/-- A symbol that is expected is missed at the end. -/
theorem hungry_symbol (s : Symbol) (e : Expectation) : Hungry (expect (.symbol s) e) :=
  hungry_expect (by simp) e

/-- A name that is expected is missed at the end. -/
theorem hungry_name (e : Expectation) : Hungry (name e) := hungry_expect (by simp) e

/-- A symbol that may be missing leaves the end to what comes without it. -/
theorem hungry_accept {s : Symbol} {A B : Parser β} (hB : Hungry B) :
    Hungry (accept (.symbol s) >>= fun b => if b = true then A else B) := fun c hc => by
  have hno : accept (.symbol s) c = .ok (false, c) := if_neg fun h => nomatch h.symm.trans hc
  rw [bind_of_ok hno]
  exact hB c hc

/-- Newlines leave the end to what comes behind them. -/
theorem hungry_skipLines {A : Parser β} (hA : Hungry A) : Hungry (skipLines >>= fun _ => A) :=
  fun c hc => by
    obtain ⟨r, hr⟩ := hA c hc
    refine ⟨r, ?_⟩
    show A c.skipLines = .error r
    rw [Cursor.skipLines_of_kind hc, hr]

/-- A parser that refuses the end is not content with it. -/
theorem hungry_unlessAtEnd {A : Parser β} (e : Expectation) :
    Hungry (atEnd >>= fun b => if b = true then reject e else A) := fun c hc => by
  have hat : atEnd c = .ok (true, c) := by rw [atEnd, Cursor.atEnd_of_kind hc]
  exact ⟨⟨e, c⟩, bind_of_ok hat⟩

/-- A repetition misses something at the end if its first round does. -/
theorem hungry_iterate {σ : Type} {step : σ → Parser (Round σ α)} {s : σ}
    (h : Hungry (step s)) : Hungry (iterate step s) := fun c hc => by
  obtain ⟨r, hr⟩ := h c hc
  exact ⟨r, by rw [iterate, hr]⟩

end Parser
end WrenAnalysis
