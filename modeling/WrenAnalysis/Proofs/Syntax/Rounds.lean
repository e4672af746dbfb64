/-
# The rounds of a module

A module is read in rounds, each of which takes an attribute or a definition with the
newlines behind it.  `Grammar.Rounds` says so as a relation between a cursor and the
statements that are read from it up to the end (`Module.ofTokens_eq_ok_iff`).
-/

import WrenAnalysis.Proofs.Syntax.Parser
import WrenAnalysis.Syntax.Module

namespace WrenAnalysis

open WrenAnalysis.Parser

namespace Grammar

/-- One round of a module: its end, an attribute or a definition. -/
def moduleRound (inner : Nested) (statements : List Stmt) : Parser (Round (List Stmt) Module) := do
  if ← atEnd then
    return .done ⟨statements⟩
  else if (← kind) = .symbol .hash then
    skipAttribute
    skipLines
    return .again statements
  else
    let s ← inner.definition
    if (← kind) = .symbol .rightBrace then
      reject .newline
    else
      endOfStatement
      return .again (statements ++ [s])

/-- A module is newlines and then its rounds. -/
theorem module_eq (inner : Nested) :
    Grammar.module inner = skipLines >>= fun _ => iterate (moduleRound inner) [] := rfl

/-- The statements that are read from a cursor up to the end, round by round. -/
inductive Rounds (inner : Nested) : Cursor → List Stmt → Prop
  | done {c : Cursor} : c.atEnd = true → Rounds inner c []
  | attributed {c : Cursor} {ss : List Stmt} : c.atEnd = false →
      c.current.kind = .symbol .hash → Rounds inner c.skipToLineEnd.skipLines ss →
      Rounds inner c ss
  | definition {c d e : Cursor} {s : Stmt} {ss : List Stmt} : c.atEnd = false →
      c.current.kind ≠ .symbol .hash → inner.definition c = .ok (s, d) →
      d.current.kind ≠ .symbol .rightBrace → endOfStatement d = .ok ((), e) →
      e.ahead.length < c.ahead.length → Rounds inner e ss → Rounds inner c (s :: ss)

variable {inner : Nested} {c d e : Cursor} {ss acc : List Stmt} {m : Module}

/-- At the end a module is over. -/
theorem moduleRound_done (h : c.atEnd = true) :
    moduleRound inner acc c = .ok (.done ⟨acc⟩, c) := by
  have hat : Parser.atEnd c = .ok (true, c) := by rw [Parser.atEnd, h]
  exact bind_of_ok hat

/-- Before the end a round passes an attribute or reads a definition with its end. -/
theorem moduleRound_of_not_atEnd (h : c.atEnd = false) :
    moduleRound inner acc c =
      if c.current.kind = .symbol .hash then
        .ok (.again acc, c.skipToLineEnd.skipLines)
      else
        (inner.definition >>= fun s => kind >>= fun k =>
          if k = .symbol .rightBrace then reject .newline
          else endOfStatement >>= fun _ => pure (.again (acc ++ [s]))) c := by
  have hat : Parser.atEnd c = .ok (false, c) := by rw [Parser.atEnd, h]
  have hkind : kind c = .ok (c.current.kind, c) := rfl
  refine (bind_of_ok hat).trans ((bind_of_ok hkind).trans ?_)
  split <;> rfl

/-- What a round that ends well has done. -/
theorem moduleRound_cases {r : Round (List Stmt) Module}
    (h : moduleRound inner acc c = .ok (r, e)) :
    (c.atEnd = true ∧ r = .done ⟨acc⟩) ∨
    (c.atEnd = false ∧ c.current.kind = .symbol .hash ∧ r = .again acc ∧
      e = c.skipToLineEnd.skipLines) ∨
    ∃ s d, c.atEnd = false ∧ c.current.kind ≠ .symbol .hash ∧ inner.definition c = .ok (s, d) ∧
      d.current.kind ≠ .symbol .rightBrace ∧ endOfStatement d = .ok ((), e) ∧
      r = .again (acc ++ [s]) := by
  cases hat : c.atEnd with
  | true =>
    rw [moduleRound_done hat] at h
    cases h
    exact .inl ⟨rfl, rfl⟩
  | false =>
    rw [moduleRound_of_not_atEnd hat] at h
    split at h
    · next hk =>
      cases h
      exact .inr (.inl ⟨rfl, hk, rfl, rfl⟩)
    · next hk =>
      obtain ⟨s, d, hdef, h⟩ := bind_eq_ok_iff.1 h
      obtain ⟨k, d', hkind, h⟩ := bind_eq_ok_iff.1 h
      cases hkind
      split at h
      · cases h
      · next hbrace =>
        obtain ⟨u, e', hend, h⟩ := bind_eq_ok_iff.1 h
        cases h
        exact .inr (.inr ⟨s, d, rfl, hk, hdef, hbrace, hend, rfl⟩)

/-- The rounds of a module add their statements, one behind the other. -/
theorem rounds_of_iterate (h : iterate (moduleRound inner) acc c = .ok (m, e)) :
    ∃ ss, m = ⟨acc ++ ss⟩ ∧ Rounds inner c ss := by
  refine iterate_induction (motive := fun acc c => ∃ ss, m = ⟨acc ++ ss⟩ ∧ Rounds inner c ss) h
    (fun acc c hr => ?_) fun acc c acc' d hr hlt ih => ?_
  · rcases moduleRound_cases hr with ⟨hat, hround⟩ | ⟨-, -, hround, -⟩ |
      ⟨_, _, -, -, -, -, -, hround⟩
    · cases hround
      exact ⟨[], by rw [List.append_nil], .done hat⟩
    · cases hround
    · cases hround
  · obtain ⟨ss, hm, hss⟩ := ih
    rcases moduleRound_cases hr with ⟨-, hround⟩ | ⟨hat, hk, hround, rfl⟩ |
      ⟨s, d', hat, hk, hdef, hbrace, hend, hround⟩
    · cases hround
    · cases hround
      exact ⟨ss, hm, .attributed hat hk hss⟩
    · cases hround
      rw [List.append_assoc, List.singleton_append] at hm
      exact ⟨s :: ss, hm, .definition hat hk hdef hbrace hend hlt hss⟩

/-- An attribute has at least its first token. -/
theorem length_skipAttribute_lt (hat : c.atEnd = false) (hk : c.current.kind = .symbol .hash) :
    c.skipToLineEnd.skipLines.ahead.length < c.ahead.length := by
  obtain ⟨_ | ⟨t, ts⟩, stop⟩ := c
  · cases hat
  · have ht : t.kind = .symbol .hash := hk
    have hline : (Cursor.mk (t :: ts) stop).skipToLineEnd = (Cursor.mk ts stop).skipToLineEnd := by
      simp [Cursor.skipToLineEnd, ht]
    calc (Cursor.mk (t :: ts) stop).skipToLineEnd.skipLines.ahead.length
      _ ≤ (Cursor.mk (t :: ts) stop).skipToLineEnd.ahead.length :=
        (List.dropWhile_sublist _).length_le
      _ = (Cursor.mk ts stop).skipToLineEnd.ahead.length := by rw [hline]
      _ ≤ ts.length := (List.dropWhile_sublist _).length_le
      _ < (t :: ts).length := Nat.lt_succ_self _

/-- The rounds of a module are what the repetition comes to. -/
theorem Rounds.iterate_eq (h : Rounds inner c ss) (acc : List Stmt) :
    ∃ e, iterate (moduleRound inner) acc c = .ok (⟨acc ++ ss⟩, e) := by
  induction h generalizing acc with
  | @done c hat =>
    refine ⟨c, ?_⟩
    rw [iterate_of_done (moduleRound_done hat), List.append_nil]
  | @attributed c ss hat hk _ ih =>
    obtain ⟨e, he⟩ := ih acc
    refine ⟨e, ?_⟩
    have hround : moduleRound inner acc c = .ok (.again acc, c.skipToLineEnd.skipLines) := by
      rw [moduleRound_of_not_atEnd hat, if_pos hk]
    rw [iterate_of_again hround (length_skipAttribute_lt hat hk), he]
  | @definition c d e s ss hat hk hdef hbrace hend hlt _ ih =>
    obtain ⟨e', he'⟩ := ih (acc ++ [s])
    refine ⟨e', ?_⟩
    have hkind : kind d = .ok (d.current.kind, d) := rfl
    have hround : moduleRound inner acc c = .ok (.again (acc ++ [s]), e) := by
      rw [moduleRound_of_not_atEnd hat, if_neg hk, bind_of_ok hdef, bind_of_ok hkind,
        if_neg hbrace, bind_of_ok hend]
      rfl
    rw [iterate_of_again hround hlt, he', List.append_assoc, List.singleton_append]

/-- A module is read as the rounds behind the first newlines. -/
theorem module_eq_ok_iff :
    (∃ e, Grammar.module inner c = .ok (m, e)) ↔ Rounds inner c.skipLines m.statements := by
  have hskip : skipLines c = .ok ((), c.skipLines) := rfl
  rw [module_eq, bind_of_ok hskip]
  constructor
  · rintro ⟨e, he⟩
    obtain ⟨ss, rfl, hss⟩ := rounds_of_iterate he
    exact hss
  · intro h
    exact h.iterate_eq []

end Grammar

namespace Module

variable {text : String} {m : Module} {ts : List Token}

/-- A list of tokens is read as a module if its rounds give the statements. -/
theorem ofTokens_eq_ok_iff : ofTokens ts = .ok m ↔
    Grammar.Rounds (.within Grammar.maxNesting) (Cursor.ofTokens ts).skipLines m.statements := by
  rw [← Grammar.module_eq_ok_iff, ofTokens]
  rcases Grammar.module (.within Grammar.maxNesting) (.ofTokens ts) with r | ⟨m, d⟩ <;> simp

/-- A text is parsed if it tokenizes and its tokens are read. -/
theorem parse_eq_ok_iff :
    parse text = .ok m ↔ ∃ ts, Token.tokenize text = .ok ts ∧ ofTokens ts = .ok m := by
  unfold parse
  cases Token.tokenize text <;> simp

end Module
end WrenAnalysis
