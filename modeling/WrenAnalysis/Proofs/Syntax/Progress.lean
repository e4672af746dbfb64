/-
# The parser goes forward

What a construct is written with is at least one token (`Derives.ne_nil`), so a definition, a
statement, an expression, a method or a primary that is read takes one, and none that is not
there (`Grammar.advances_within`).

Each repetition of the grammar is named here by its rounds (`Grammar.byRounds`).  A round that
another one follows takes a token (`Grammar.Loop.strides`).  Hence `Parser.iterate` never has
reason to refuse a round, and comes to what the rounds come to if nobody counts their tokens
(`Parser.Strides.repeats_iterate`).  Newlines and attributes are skipped token by token, up to
the end at most (`Cursor.skipLines_skipping`, `Cursor.skipToLineEnd_skipping`).
-/

import WrenAnalysis.Proofs.Syntax.Bracketing
import WrenAnalysis.Proofs.Syntax.Height

namespace WrenAnalysis

open WrenAnalysis.Parser

/-! ### Places among the tokens -/

namespace Cursor

variable {c d : Cursor} {i : ℕ}

/-- Behind the tokens that were taken. -/
theorem eq_drop_of_taken {us : List Token} (hi : i ≤ c.ahead.length)
    (hahead : (c.drop i).ahead = us ++ d.ahead) (hstop : d.stop = c.stop) :
    i + us.length ≤ c.ahead.length ∧ d = c.drop (i + us.length) := by
  have hlength : c.ahead.length - i = us.length + d.ahead.length := by
    rw [← List.length_drop, ← List.length_append]
    exact congrArg List.length hahead
  have hrest : d.ahead = c.ahead.drop (i + us.length) := by
    rw [← List.drop_drop, show c.ahead.drop i = us ++ d.ahead from hahead, List.drop_left]
  refine ⟨by omega, ?_⟩
  rw [drop, ← hrest, ← hstop]

/-- The cursor moves on by one token, and at the end it stays. -/
theorem advance_drop (hc : c.stop.kind = .eof) (hi : i ≤ c.ahead.length) :
    ∃ j ≤ c.ahead.length, i ≤ j ∧ j ≤ i + 1 ∧ (c.drop i).advance = c.drop j := by
  by_cases hk : (c.drop i).current.kind = .eof
  · refine ⟨i, hi, Nat.le_refl i, Nat.le_succ i, ?_⟩
    rw [advance, if_pos (atEnd_of_kind hk)]
  · obtain ⟨hahead, hstop⟩ := ahead_eq (c := c.drop i) hc hk
    rw [← List.singleton_append] at hahead
    obtain ⟨hle, heq⟩ := eq_drop_of_taken hi hahead hstop
    exact ⟨i + 1, hle, Nat.le_succ i, Nat.le_refl _, heq⟩

/-- Newlines that are there are passed. -/
theorem length_skipLines_lt (hc : c.stop.kind = .eof) (hk : c.current.kind = .line) :
    c.skipLines.ahead.length < c.ahead.length := by
  obtain ⟨hahead, -⟩ := ahead_eq hc (by simp [hk])
  have hle := (List.dropWhile_sublist (·.kind = .line) (l := c.advance.ahead)).length_le
  have hskip : c.skipLines.ahead = c.ahead.dropWhile (·.kind = .line) := rfl
  rw [hskip, hahead, List.dropWhile_cons_of_pos (by simp [hk]), List.length_cons]
  omega

/-- The places that are passed, one after the other, while the token there has a property. -/
inductive Skips (p : Token → Bool) (c : Cursor) : ℕ → ℕ → Prop
  | over {i : ℕ} (h : p (c.drop i).current = false) : Skips p c i i
  | next {i j : ℕ} (h : p (c.drop i).current = true) (rest : Skips p c (i + 1) j) : Skips p c i j

/-- Wherever it starts among the tokens, skipping comes to an end among them. -/
def Skipping (p : Token → Bool) (skip : Cursor → Cursor) : Prop :=
  ∀ (ts : List Token) (i : ℕ), i ≤ ts.length →
    ∃ j ≤ ts.length, i ≤ j ∧ Skips p (ofTokens ts) i j ∧
      skip ((ofTokens ts).drop i) = (ofTokens ts).drop j

/-- Tokens are skipped one by one, but not the mark of the end. -/
theorem skips_dropWhile {p : Token → Bool} (hp : p c.stop = false) (hi : i ≤ c.ahead.length) :
    ∃ j ≤ c.ahead.length, i ≤ j ∧ Skips p c i j ∧
      (⟨(c.drop i).ahead.dropWhile p, c.stop⟩ : Cursor) = c.drop j := by
  induction hn : c.ahead.length - i generalizing i with
  | zero =>
    have hnil : c.ahead.drop i = [] := List.drop_eq_nil_of_le (by omega)
    refine ⟨i, hi, Nat.le_refl i, .over ?_, ?_⟩
    · rwa [current, drop, hnil]
    · rw [drop, hnil]
      rfl
  | succ n ih =>
    have hlt : i < c.ahead.length := by omega
    have hcons : c.ahead.drop i = (c.drop i).current :: c.ahead.drop (i + 1) := by
      rw [current, drop, List.drop_eq_getElem_cons hlt, List.headD_cons]
    cases ht : p (c.drop i).current with
    | false =>
      refine ⟨i, hi, Nat.le_refl i, .over ht, ?_⟩
      show (⟨(c.ahead.drop i).dropWhile p, c.stop⟩ : Cursor) = _
      rw [hcons, List.dropWhile_cons_of_neg (by simp [ht]), ← hcons, drop]
    | true =>
      obtain ⟨j, hj, hij, hskips, heq⟩ := ih (i := i + 1) (by omega) (by omega)
      refine ⟨j, hj, Nat.le_of_succ_le hij, .next ht hskips, ?_⟩
      rw [← heq]
      show (⟨(c.ahead.drop i).dropWhile p, c.stop⟩ : Cursor) = _
      rw [hcons, List.dropWhile_cons_of_pos ht]
      rfl

/-- Newlines are skipped one by one. -/
theorem skipLines_skipping : Skipping (·.kind = .line) skipLines := fun ts i hi =>
  skips_dropWhile (c := ofTokens ts) (by simp [ofTokens, stopOf_kind]) hi

/-- An attribute is skipped token by token, up to the end of its line. -/
theorem skipToLineEnd_skipping :
    Skipping (fun t => t.kind ≠ .line ∧ t.kind ≠ .eof) skipToLineEnd := fun ts i hi =>
  skips_dropWhile (c := ofTokens ts) (by simp [ofTokens, stopOf_kind]) hi

end Cursor

/-! ### Constructs -/

namespace Parser

variable {α : Type} {p : Parser α}

/-- Wherever the parser ends well, it has taken a token, and none behind the last. -/
def Advances (p : Parser α) : Prop :=
  ∀ (ts : List Token) (i : ℕ), i ≤ ts.length → ∀ a d,
    p ((Cursor.ofTokens ts).drop i) = .ok (a, d) →
      ∃ j ≤ ts.length, i < j ∧ d = (Cursor.ofTokens ts).drop j

/-- A parser that is written with some tokens takes one. -/
theorem advances_of_reads {P : α → List Token → Prop} (h : p.Reads P)
    (hP : ∀ a us, P a us → us ≠ []) : p.Advances := by
  intro ts i hi a d ha
  obtain ⟨us, hus, hd, hPa⟩ := h _ (Cursor.stopOf_kind ts) a d ha
  obtain ⟨hle, heq⟩ := Cursor.eq_drop_of_taken hi hus hd
  have hpos := List.length_pos_iff.2 (hP a us hPa)
  exact ⟨i + us.length, hle, by omega, heq⟩

end Parser

/-- Nothing is written with no tokens but a name that is called with nothing. -/
theorem Derives.ne_nil {φ : Phrase} {us : List Token} (h : Derives φ us)
    (hφ : φ ≠ .tail none none) : us ≠ [] := by
  induction h with
  | tailNone => exact absurd rfl hφ
  | continued _ _ ih => simp [ih nofun]
  | expr _ ih => exact ih nofun
  | bodyAttribute _ _ _ ih => simp [ih nofun]
  | bodyMore _ _ _ _ ih => simp [ih nofun]
  | methodForeign _ _ hhead => cases hhead <;> simp
  | methodsAttribute _ _ _ ih => simp [ih nofun]
  | methodsMore _ _ _ _ ih => simp [ih nofun]
  | _ => simp

/-- The constructs that take a token wherever they are read. -/
structure Nested.Forward (inner : Nested) : Prop where
  definition : inner.definition.Advances
  statement : (Grammar.statement inner).Advances
  expression : inner.expression.Advances
  method : (Grammar.method inner).Advances
  primary : (Grammar.primary inner).Advances

/-- The constructs of the language take a token, as deep as they may nest. -/
theorem Nested.forward_within (depth : Nat) : (Nested.within depth).Forward := by
  have h := Nested.sound_within depth
  exact ⟨advances_of_reads h.definition fun _ _ hs => hs.ne_nil nofun,
    advances_of_reads (Grammar.reads_statement h) fun _ _ hs => hs.ne_nil nofun,
    advances_of_reads h.expression fun _ _ he => he.ne_nil nofun,
    advances_of_reads (Grammar.reads_method h) fun _ _ hm => hm.ne_nil nofun,
    advances_of_reads (Grammar.reads_primary h) fun _ _ he => he.ne_nil nofun⟩

/-! ### Repetitions -/

namespace Parser

variable {α σ : Type} {step : σ → Parser (Round σ α)} {s : σ} {c : Cursor}

/-- A round that another one follows has taken a token. -/
def Strided : Round σ α → List Token → Prop
  | .again _, us => us ≠ []
  | .done _, _ => True

/-- Tokens in front do not make a round stand still. -/
theorem Strided.behind {r : Round σ α} {us : List Token} (h : Strided r us) (ls : List Token) :
    Strided r (ls ++ us) := by
  cases r with
  | again s => exact List.append_ne_nil_of_right_ne_nil ls h
  | done a => exact h

/-- Every round that another one follows takes a token. -/
def Strides (step : σ → Parser (Round σ α)) : Prop := ∀ s, (step s).Reads Strided

/-- What a repetition comes to, round by round, whether its rounds take tokens or not. -/
inductive Repeats (step : σ → Parser (Round σ α)) :
    σ → Cursor → Except Rejection (α × Cursor) → Prop
  | refused {s : σ} {c : Cursor} {r : Rejection} (h : step s c = .error r) :
      Repeats step s c (.error r)
  | done {s : σ} {c d : Cursor} {a : α} (h : step s c = .ok (.done a, d)) :
      Repeats step s c (.ok (a, d))
  | again {s s' : σ} {c d : Cursor} {x : Except Rejection (α × Cursor)}
      (h : step s c = .ok (.again s', d)) (rest : Repeats step s' d x) : Repeats step s c x

/-- A round that another one follows comes nearer to the end. -/
theorem Strides.lt {s' : σ} {d : Cursor} (h : Strides step) (hc : c.stop.kind = .eof)
    (hs : step s c = .ok (.again s', d)) :
    d.stop.kind = .eof ∧ d.ahead.length < c.ahead.length := by
  obtain ⟨us, hus, hd, hne⟩ := h s c hc _ d hs
  have hpos := List.length_pos_iff.2 hne
  refine ⟨hd ▸ hc, ?_⟩
  rw [hus, List.length_append]
  omega

/-- **A repetition comes to what its rounds come to.**  It needs no count of their tokens to
stop. -/
theorem Strides.repeats_iterate (h : Strides step) (hc : c.stop.kind = .eof) (s : σ) :
    Repeats step s c (iterate step s c) := by
  induction hn : c.ahead.length using Nat.strongRecOn generalizing s c with
  | ind n ih =>
    subst hn
    rcases hs : step s c with r | ⟨s' | a, d⟩
    · rw [iterate, hs]
      exact .refused hs
    · obtain ⟨hd, hlt⟩ := h.lt hc hs
      rw [iterate_of_again hs hlt]
      exact .again hs (ih _ hlt hd s' rfl)
    · rw [iterate_of_done hs]
      exact .done hs

/-- Rounds come to one outcome. -/
theorem Repeats.unique {x y : Except Rejection (α × Cursor)} (h : Repeats step s c x)
    (h' : Repeats step s c y) : x = y := by
  induction h with
  | refused h =>
    cases h' with
    | refused h' =>
      cases h.symm.trans h'
      rfl
    | done h' => cases h.symm.trans h'
    | again h' _ => cases h.symm.trans h'
  | done h =>
    cases h' with
    | refused h' => cases h.symm.trans h'
    | done h' =>
      cases h.symm.trans h'
      rfl
    | again h' _ => cases h.symm.trans h'
  | again h _ ih =>
    cases h' with
    | refused h' => cases h.symm.trans h'
    | done h' => cases h.symm.trans h'
    | again h' rest =>
      cases h.symm.trans h'
      exact ih rest

/-- Wherever a repetition is among the tokens, its next round stays among them, takes a token if
another one follows, and the repetition comes to an end, which is that of its rounds. -/
structure Stops (step : σ → Parser (Round σ α)) : Prop where
  round : ∀ (ts : List Token) (i : ℕ), i ≤ ts.length → ∀ s r d,
    step s ((Cursor.ofTokens ts).drop i) = .ok (r, d) →
      ∃ j ≤ ts.length, i ≤ j ∧ d = (Cursor.ofTokens ts).drop j ∧ ∀ s', r = .again s' → i < j
  ends : ∀ (ts : List Token) (i : ℕ), i ≤ ts.length → ∀ s x,
    Repeats step s ((Cursor.ofTokens ts).drop i) x ↔
      iterate step s ((Cursor.ofTokens ts).drop i) = x

/-- A repetition whose rounds take tokens comes to an end. -/
theorem Strides.stops (h : Strides step) : Stops step where
  round ts i hi s r d hr := by
    obtain ⟨us, hus, hd, hround⟩ := h s _ (Cursor.stopOf_kind ts) r d hr
    obtain ⟨hle, heq⟩ := Cursor.eq_drop_of_taken hi hus hd
    refine ⟨i + us.length, hle, Nat.le_add_right i _, heq, ?_⟩
    rintro s' rfl
    have hpos := List.length_pos_iff.2 hround
    omega
  ends ts i _ s x := by
    have hrepeats : Repeats step s ((Cursor.ofTokens ts).drop i) _ :=
      h.repeats_iterate (Cursor.stopOf_kind ts) s
    exact ⟨hrepeats.unique, fun heq => heq ▸ hrepeats⟩

end Parser

/-! ### The rounds of the grammar -/

namespace Grammar

/-- One round of the body of a block. -/
def blockRound (inner : Nested) : List Stmt → Parser (Round (List Stmt) (List Stmt)) :=
  bracedRound .blockEnd fun body => do
    let s ← inner.definition
    endOfStatement
    return .again (body ++ [s])

/-- One round of the body of a class. -/
def classRound (inner : Nested) : List Method → Parser (Round (List Method) (List Method)) :=
  bracedRound .classEnd fun methods => do
    let m ← method inner
    endOfStatement
    return .again (methods ++ [m])

/-- One word in front of a method. -/
def modifierRound (found : Modifiers) : Parser (Round Modifiers Modifiers) := do
  match ← kind with
  | .keyword .construct_ => let _ ← take; return .again { found with isConstruct := true }
  | .keyword .foreign_ => let _ ← take; return .again { found with isForeign := true }
  | .keyword .static_ => let _ ← take; return .again { found with isStatic := true }
  | _ => return .done found

/-- One argument. -/
def argumentRound (inner : Nested) (close : Symbol) (unclosed : Expectation)
    (arguments : List Expr) : Parser (Round (List Expr) (List Expr)) := do
  skipLines
  if ← accept (.symbol close) then
    return .done arguments
  else
    let e ← inner.expression
    skipLines
    if ← accept (.symbol .comma) then
      return .again (arguments ++ [e])
    else
      let _ ← expect (.symbol close) unclosed
      return .done (arguments ++ [e])

/-- One entry of a map. -/
def entryRound (inner : Nested) (entries : List Entry) :
    Parser (Round (List Entry) (List Entry)) := do
  skipLines
  if ← accept (.symbol .rightBrace) then
    return .done entries
  else
    let key ← inner.expression
    skipLines
    let _ ← expect (.symbol .colon) .mapColon
    skipLines
    let value ← inner.expression
    skipLines
    if ← accept (.symbol .comma) then
      return .again (entries ++ [.mk key value])
    else
      let _ ← expect (.symbol .rightBrace) .mapClose
      return .done (entries ++ [.mk key value])

/-- One parameter of a method. -/
def parameterRound (close : Symbol) (unclosed : Expectation) (names : List Token) :
    Parser (Round (List Token) (List Token)) := do
  let n ← name .parameterName
  skipLines
  if ← accept (.symbol .comma) then
    skipLines
    return .again (names ++ [n])
  else
    let _ ← expect (.symbol close) unclosed
    return .done (names ++ [n])

/-- One parameter of a block. -/
def blockParameterRound (names : List Token) : Parser (Round (List Token) (List Token)) := do
  let n ← name .blockParameterName
  if ← accept (.symbol .comma) then
    return .again (names ++ [n])
  else
    let _ ← expect (.symbol .pipe) .blockParametersClose
    return .done (names ++ [n])

/-- One name of an import. -/
def importRound (names : List ImportedName) :
    Parser (Round (List ImportedName) (List ImportedName)) := do
  skipLines
  let imported ← name .importedName
  let knownAs ← if ← accept (.keyword .as_) then some <$> name .importAlias else pure none
  let names := names ++ [⟨imported, knownAs⟩]
  if ← accept (.symbol .comma) then return .again names else return .done names

/-- One binary operator and the operand behind it. -/
def operatorRound (inner : Nested) (least : Nat) (left : Expr) : Parser (Round Expr Expr) := do
  match (← kind).precedence with
  | none => return .done left
  | some p =>
    if p < least then return .done left
    else
      let operator ← take
      skipLines
      return .again (.binary left operator (← inner.operand (p + 1)))

/-- The productions that repeat something do so by these rounds. -/
structure ByRounds (inner : Nested) : Prop where
  module : Grammar.module inner = skipLines >>= fun _ => iterate (moduleRound inner) []
  blockBody : blockBody inner = iterate (blockRound inner) []
  classBody : classBody inner = iterate (classRound inner) []
  modifiers : modifiers = iterate modifierRound {}
  argumentsUntil : ∀ close unclosed,
    argumentsUntil inner close unclosed = iterate (argumentRound inner close unclosed) []
  mapEntries : mapEntries inner = iterate (entryRound inner) []
  namesUntil : ∀ close unclosed, namesUntil close unclosed = do
    skipLines
    if ← accept (.symbol close) then return [] else iterate (parameterRound close unclosed) []
  blockParameters : blockParameters = iterate blockParameterRound []
  importedNames : importedNames = iterate importRound []
  binary : ∀ least, binary inner least = unary inner >>= iterate (operatorRound inner least)
  postfixed : postfixed inner = primary inner >>= iterate (postfixRound inner)

/-- The productions are what their rounds are said to be. -/
theorem byRounds (inner : Nested) : ByRounds inner :=
  ⟨rfl, rfl, rfl, rfl, fun _ _ => rfl, rfl, fun _ _ => rfl, rfl, rfl, fun _ => rfl, rfl⟩

/-- The repetitions of the grammar, by their rounds. -/
inductive Loop (inner : Nested) : {σ α : Type} → (σ → Parser (Round σ α)) → Prop
  | module : Loop inner (moduleRound inner)
  | blockBody : Loop inner (blockRound inner)
  | classBody : Loop inner (classRound inner)
  | modifiers : Loop inner modifierRound
  | arguments (close : Symbol) (unclosed : Expectation) :
      Loop inner (argumentRound inner close unclosed)
  | entries : Loop inner (entryRound inner)
  | parameters (close : Symbol) (unclosed : Expectation) :
      Loop inner (parameterRound close unclosed)
  | blockParameters : Loop inner blockParameterRound
  | importedNames : Loop inner importRound
  | operators (least : Nat) : Loop inner (operatorRound inner least)
  | postfixes : Loop inner (postfixRound inner)

variable {inner : Nested}

/-- A definition or an attribute of a module takes a token. -/
theorem strides_moduleRound (h : inner.Sound) : Strides (moduleRound inner) := fun ss c => by
  refine yields_atEnd (yields_pure trivial) (yields_kind ?_)
  split
  · next hk =>
    refine yields_bind (yields_skipAttribute hk) fun _ us d hus => ?_
    refine yields_skipLines fun ls d _ => yields_pure ?_
    obtain ⟨t, vs, rfl, -⟩ := hus.head
    simp [Strided]
  · refine yields_bind (h.definition c) fun s us d hs => yields_kind ?_
    split
    · exact yields_reject _
    · refine yields_bind (reads_endOfStatement d) fun _ ls d _ => yields_pure ?_
      simp [Strided, hs.ne_nil]

/-- An item or an attribute between braces takes a token. -/
theorem strides_bracedRound {A : Type} {unclosed : Expectation}
    {item : List A → Parser (Round (List A) (List A))} (hitem : Strides item) :
    Strides (bracedRound unclosed item) := fun items c => by
  refine yields_skipLines fun ls d _ => ?_
  refine yields_accept (by simp) (fun t d _ => yields_pure trivial) ?_
  refine yields_atEnd (yields_reject _) (yields_kind ?_)
  split
  · next hk =>
    refine yields_bind (yields_skipAttribute hk) fun _ us d hus => yields_pure ?_
    obtain ⟨t, vs, rfl, -⟩ := hus.head
    simp [Strided]
  · exact (hitem items d).mono fun r us hr => hr.behind ls

/-- A statement of a block takes a token. -/
theorem strides_blockRound (h : inner.Sound) : Strides (blockRound inner) := by
  refine strides_bracedRound fun body c => ?_
  refine yields_bind (h.definition c) fun s us d hs => ?_
  refine yields_bind (reads_endOfStatement d) fun _ ls d _ => yields_pure ?_
  simp [Strided, hs.ne_nil]

/-- A method of a class takes a token. -/
theorem strides_classRound (h : inner.Sound) : Strides (classRound inner) := by
  refine strides_bracedRound fun methods c => ?_
  refine yields_bind (reads_method h c) fun m us d hm => ?_
  refine yields_bind (reads_endOfStatement d) fun _ ls d _ => yields_pure ?_
  simp [Strided, hm.ne_nil]

/-- A word in front of a method is a token. -/
theorem strides_modifierRound : Strides modifierRound := fun found c => by
  refine yields_kind ?_
  split
  · next hc => exact yields_take (by simp [hc]) fun t d _ => yields_pure (List.cons_ne_nil t [])
  · next hc => exact yields_take (by simp [hc]) fun t d _ => yields_pure (List.cons_ne_nil t [])
  · next hc => exact yields_take (by simp [hc]) fun t d _ => yields_pure (List.cons_ne_nil t [])
  · exact yields_pure trivial

/-- An argument that another one follows takes its comma. -/
theorem strides_argumentRound (h : inner.Sound) (close : Symbol) (e : Expectation) :
    Strides (argumentRound inner close e) := fun arguments c => by
  refine yields_skipLines fun ls d _ => ?_
  refine yields_accept (by simp) (fun t d _ => yields_pure trivial) ?_
  refine yields_bind (h.expression d) fun a us d _ => ?_
  refine yields_skipLines fun ls' d _ => ?_
  refine yields_accept (by simp) (fun t d _ => ?_) ?_
  · refine yields_pure ?_
    simp [Strided]
  · exact yields_expect (by simp) _ fun t d _ => yields_pure trivial

/-- An entry that another one follows takes its colon and its comma. -/
theorem strides_entryRound (h : inner.Sound) : Strides (entryRound inner) := fun entries c => by
  refine yields_skipLines fun ls d _ => ?_
  refine yields_accept (by simp) (fun t d _ => yields_pure trivial) ?_
  refine yields_bind (h.expression d) fun key us d _ => ?_
  refine yields_skipLines fun ls₁ d _ => ?_
  refine yields_expect (by simp) _ fun k d _ => ?_
  refine yields_skipLines fun ls₂ d _ => ?_
  refine yields_bind (h.expression d) fun value vs d _ => ?_
  refine yields_skipLines fun ls₃ d _ => ?_
  refine yields_accept (by simp) (fun t d _ => ?_) ?_
  · refine yields_pure ?_
    simp [Strided]
  · exact yields_expect (by simp) _ fun t d _ => yields_pure trivial

/-- A parameter that another one follows takes its name. -/
theorem strides_parameterRound (close : Symbol) (e : Expectation) :
    Strides (parameterRound close e) := fun names c => by
  refine yields_name _ fun n d _ => ?_
  refine yields_skipLines fun ls d _ => ?_
  refine yields_accept (by simp) (fun t d _ => ?_) ?_
  · exact yields_skipLines fun ls' d _ => yields_pure (List.cons_ne_nil n _)
  · exact yields_expect (by simp) _ fun t d _ => yields_pure trivial

/-- A block parameter that another one follows takes its name. -/
theorem strides_blockParameterRound : Strides blockParameterRound := fun names c => by
  refine yields_name _ fun n d _ => ?_
  refine yields_accept (by simp) (fun t d _ => ?_) ?_
  · exact yields_pure (List.cons_ne_nil n _)
  · exact yields_expect (by simp) _ fun t d _ => yields_pure trivial

/-- An imported name that another one follows takes itself. -/
theorem strides_importRound : Strides importRound := fun names c => by
  refine yields_skipLines fun ls d _ => ?_
  refine yields_name _ fun n d _ => ?_
  refine yields_optionalName (by simp) _ fun a us d _ => ?_
  refine yields_accept (by simp) (fun t d _ => yields_pure ?_) (yields_pure trivial)
  simp [Strided]

/-- An operator is a token. -/
theorem strides_operatorRound (h : inner.Sound) (least : Nat) :
    Strides (operatorRound inner least) := fun left c => by
  refine yields_kind ?_
  split
  · exact yields_pure trivial
  · next p hp =>
    have hc : c.current.kind ≠ .eof := by
      intro heq
      simp [heq, Kind.precedence] at hp
    split
    · exact yields_pure trivial
    · refine yields_take hc fun t d _ => ?_
      refine yields_skipLines fun ls d _ => ?_
      exact yields_map (h.operand _ d) fun right us _ => List.cons_ne_nil t _

/-- Newlines in front of a call are passed by one at least. -/
theorem yields_skipLinesBefore {c : Cursor} {k : Kind} (hk : c.current.kind = .line) :
    (skipLinesBefore k).Yields c fun b us => b = true → us ≠ [] := by
  intro hstop b d hb
  unfold skipLinesBefore at hb
  split at hb
  · cases hb
    obtain ⟨us, hus, hd, -⟩ := reads_skipLines c hstop () c.skipLines rfl
    refine ⟨us, hus, hd, fun _ => ?_⟩
    rintro rfl
    have hlt := Cursor.length_skipLines_lt hstop hk
    rw [hus] at hlt
    exact Nat.lt_irrefl _ hlt
  · cases hb
    exact ⟨[], rfl, rfl, nofun⟩

/-- A call takes its dot, a subscript its bracket, and a line break its newline. -/
theorem strides_postfixRound (h : inner.Sound) : Strides (postfixRound inner) := fun e c => by
  refine yields_kind ?_
  split
  · next hc =>
    refine yields_take (by simp [hc]) fun t d _ => ?_
    refine yields_skipLines fun ls d _ => ?_
    refine yields_name _ fun n d _ => ?_
    exact yields_map (reads_callTail h d) fun _ us _ => List.cons_ne_nil t _
  · next hc =>
    refine yields_take (by simp [hc]) fun t d _ => ?_
    exact yields_map (reads_argumentsUntil h .square _ d) fun es us _ => List.cons_ne_nil t _
  · next hc =>
    refine yields_bind (yields_skipLinesBefore hc) fun b us d hb => ?_
    split
    · next hyes =>
      refine yields_pure ?_
      simpa [Strided] using hb hyes
    · exact yields_pure trivial
  · exact yields_pure trivial

/-- **Every round of the grammar that another one follows takes a token.** -/
theorem Loop.strides {σ α : Type} {step : σ → Parser (Round σ α)} (h : inner.Sound)
    (hl : Loop inner step) : Strides step := by
  cases hl with
  | module => exact strides_moduleRound h
  | blockBody => exact strides_blockRound h
  | classBody => exact strides_classRound h
  | modifiers => exact strides_modifierRound
  | arguments close unclosed => exact strides_argumentRound h close unclosed
  | entries => exact strides_entryRound h
  | parameters close unclosed => exact strides_parameterRound close unclosed
  | blockParameters => exact strides_blockParameterRound
  | importedNames => exact strides_importRound
  | operators least => exact strides_operatorRound h least
  | postfixes => exact strides_postfixRound h

end Grammar
end WrenAnalysis
