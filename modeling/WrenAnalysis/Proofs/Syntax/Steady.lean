/-
# No repetition stands still

`Parser.iterate` refuses a round that takes no token and is to be followed by another one.  No
such round is ever met: a parser is steady if nothing that it refuses is refused for that
(`Parser.Steady`).  There is a rule for each way of building a parser and a lemma for each
production, and a repetition is steady because its rounds take tokens (`Parser.Strides`).

So the parser goes forward with every construct and every round, stays among the tokens it is
given, and has an answer for each list of them (`Module.parse_progress`).
-/

import WrenAnalysis.Proofs.Syntax.Progress

namespace WrenAnalysis

open WrenAnalysis.Parser

namespace Parser

variable {α β σ : Type} {p : Parser α} {F : α → Parser β} {k : Kind} {e : Expectation}

/-- The parser keeps the mark of the end, and nothing is refused because a repetition does not
go on. -/
structure Steady (p : Parser α) : Prop where
  stop : ∀ c : Cursor, c.stop.kind = .eof → ∀ a d, p c = .ok (a, d) → d.stop.kind = .eof
  wants : ∀ c : Cursor, c.stop.kind = .eof → ∀ r, p c = .error r → r.expected ≠ .anyToken

/-- A parser that refuses nothing. -/
theorem steady_of_ok (h : ∀ c, ∃ a d, p c = .ok (a, d) ∧ d.stop = c.stop) : Steady p where
  stop c hc a d ha := by
    obtain ⟨a', d', ha', hd⟩ := h c
    cases ha.symm.trans ha'
    rwa [hd]
  wants c _ r hr := by
    obtain ⟨a, d, ha, -⟩ := h c
    cases hr.symm.trans ha

/-- A value is steady. -/
theorem steady_pure (a : α) : Steady (pure a : Parser α) := steady_of_ok fun c => ⟨a, c, rfl, rfl⟩

/-- A parser that refuses everything is steady if it names something else. -/
theorem steady_reject (he : e ≠ .anyToken) : Steady (reject e : Parser α) where
  stop _ _ _ _ ha := by cases ha
  wants _ _ _ hr := by
    cases hr
    exact he

/-- Two steady parsers are steady one behind the other. -/
theorem Steady.bind (hp : Steady p) (hF : ∀ a, Steady (F a)) : Steady (p >>= F) where
  stop c hc b d hb := by
    obtain ⟨a, d', ha, hb⟩ := bind_eq_ok_iff.1 hb
    exact (hF a).stop d' (hp.stop c hc a d' ha) b d hb
  wants c hc r hr := by
    rcases hpc : p c with r' | ⟨a, d⟩
    · rw [bind_of_error hpc] at hr
      cases hr
      exact hp.wants c hc r hpc
    · rw [bind_of_ok hpc] at hr
      exact (hF a).wants d (hp.stop c hc a d hpc) r hr

/-- A steady parser whose value is only dressed is steady. -/
theorem Steady.map (hp : Steady p) (f : α → β) : Steady (f <$> p) :=
  hp.bind fun a => steady_pure (f a)

/-- A choice between steady parsers is steady. -/
theorem steady_ite {P : Prop} [Decidable P] {q : Parser α} (hp : Steady p) (hq : Steady q) :
    Steady (if P then p else q) := by
  split
  · exact hp
  · exact hq

/-! ### One token, newlines and attributes -/

/-- Taking a token leaves the mark of the end. -/
theorem stop_advance (c : Cursor) : c.advance.stop = c.stop := by
  unfold Cursor.advance
  split <;> rfl

/-- A look at the kind of the token is steady. -/
theorem steady_kind : Steady kind := steady_of_ok fun c => ⟨_, c, rfl, rfl⟩

/-- A look at the kind of the second token is steady. -/
theorem steady_secondKind : Steady secondKind := steady_of_ok fun c => ⟨_, c, rfl, rfl⟩

/-- A look for the end is steady. -/
theorem steady_atEnd : Steady atEnd := steady_of_ok fun c => ⟨_, c, rfl, rfl⟩

/-- Taking a token is steady. -/
theorem steady_take : Steady take := steady_of_ok fun c => ⟨_, c.advance, rfl, stop_advance c⟩

/-- A token that may be missing is never refused. -/
theorem steady_accept : Steady (accept k) := steady_of_ok fun c => by
  by_cases hk : c.current.kind = k
  · exact ⟨true, c.advance, if_pos hk, stop_advance c⟩
  · exact ⟨false, c, if_neg hk, rfl⟩

/-- A token that is expected is refused by its own name. -/
theorem steady_expect (he : e ≠ .anyToken) : Steady (expect k e) where
  stop c hc t d ht := by
    unfold expect at ht
    split at ht
    · cases ht
      rwa [stop_advance]
    · cases ht
  wants c _ r hr := by
    unfold expect at hr
    split at hr
    · cases hr
    · cases hr
      exact he

/-- A name that is expected is refused by its own name. -/
theorem steady_name (he : e ≠ .anyToken) : Steady (name e) := steady_expect he

/-- Skipping newlines is steady. -/
theorem steady_skipLines : Steady skipLines := steady_of_ok fun c => ⟨(), c.skipLines, rfl, rfl⟩

/-- Skipping newlines before some token is steady. -/
theorem steady_skipLinesBefore : Steady (skipLinesBefore k) := steady_of_ok fun c => by
  unfold skipLinesBefore
  split
  · exact ⟨true, c.skipLines, rfl, rfl⟩
  · exact ⟨false, c, rfl, rfl⟩

/-- Skipping an attribute is steady. -/
theorem steady_skipAttribute : Steady skipAttribute :=
  steady_of_ok fun c => ⟨(), c.skipToLineEnd, rfl, rfl⟩

/-- A part that is there behind a token of kind `k`, and else is missing. -/
theorem steady_optional {J : Option α → Parser β} (hp : Steady p) (hJ : ∀ o, Steady (J o)) :
    Steady (accept k >>= fun b => if b = true then some <$> p >>= J else pure none >>= J) :=
  steady_accept.bind fun _ => steady_ite ((hp.map some).bind hJ) ((steady_pure none).bind hJ)

/-! ### Repetition -/

/-- What the rounds come to is no standstill. -/
theorem Repeats.steady {step : σ → Parser (Round σ α)} {s : σ} {c : Cursor}
    {x : Except Rejection (α × Cursor)} (h : Repeats step s c x) (hstep : ∀ s, Steady (step s))
    (hc : c.stop.kind = .eof) : (∀ a d, x = .ok (a, d) → d.stop.kind = .eof) ∧
      ∀ r, x = .error r → r.expected ≠ .anyToken := by
  induction h with
  | @refused s c r h =>
    refine ⟨fun _ _ hd => (nomatch hd), fun r' hr => ?_⟩
    rw [← Except.error.inj hr]
    exact (hstep s).wants c hc r h
  | @done s c d a h =>
    refine ⟨fun a' d' hd => ?_, fun _ hr => nomatch hr⟩
    rw [← (Prod.mk.inj (Except.ok.inj hd)).2]
    exact (hstep s).stop c hc _ d h
  | @again s s' c d x h _ ih => exact ih ((hstep s).stop c hc _ d h)

/-- A repetition of steady rounds that take tokens is steady. -/
theorem steady_iterate {step : σ → Parser (Round σ α)} (h : Strides step)
    (hstep : ∀ s, Steady (step s)) (s : σ) : Steady (iterate step s) where
  stop _ hc := ((h.repeats_iterate hc s).steady hstep hc).1
  wants _ hc := ((h.repeats_iterate hc s).steady hstep hc).2

end Parser

/-- The constructs one level further in are steady. -/
structure Nested.Steady (inner : Nested) : Prop where
  sound : inner.Sound
  definition : Parser.Steady inner.definition
  branch : Parser.Steady inner.branch
  expression : Parser.Steady inner.expression
  conditional : Parser.Steady inner.conditional
  operand : ∀ least, Parser.Steady (inner.operand least)
  unary : Parser.Steady inner.unary

namespace Grammar

variable {inner : Nested} {close : Symbol} {unclosed : Expectation}

/-! ### Blocks and lists -/

/-- The end of a statement is refused for want of a newline only. -/
theorem steady_endOfStatement : Steady endOfStatement := by
  refine steady_kind.bind fun k => ?_
  split
  · exact steady_skipLines
  · exact steady_pure _
  · exact steady_pure _
  · exact steady_reject nofun

/-- A round of a body in braces is steady if its items are. -/
theorem steady_bracedRound {A : Type} {item : List A → Parser (Round (List A) (List A))}
    (he : unclosed ≠ .anyToken) (hitem : ∀ items, Steady (item items)) (items : List A) :
    Steady (bracedRound unclosed item items) := by
  refine steady_skipLines.bind fun _ => ?_
  refine steady_accept.bind fun closed => steady_ite (steady_pure _) ?_
  refine steady_atEnd.bind fun ended => steady_ite (steady_reject he) ?_
  refine steady_kind.bind fun k => steady_ite ?_ (hitem items)
  refine steady_skipAttribute.bind fun _ => ?_
  exact steady_pure _

/-- Blocks are as steady as the definitions in them. -/
theorem steady_blockBody (h : inner.Steady) : Steady (blockBody inner) := by
  refine steady_iterate (strides_blockRound h.sound) (steady_bracedRound nofun fun body => ?_) []
  refine h.definition.bind fun s => ?_
  refine steady_endOfStatement.bind fun _ => ?_
  exact steady_pure _

/-- A list of arguments is refused only for an argument or for its closing symbol. -/
theorem steady_argumentsUntil (h : inner.Steady) (he : unclosed ≠ .anyToken) :
    Steady (argumentsUntil inner close unclosed) := by
  refine steady_iterate (strides_argumentRound h.sound close unclosed) (fun arguments => ?_) []
  refine steady_skipLines.bind fun _ => ?_
  refine steady_accept.bind fun closed => steady_ite (steady_pure _) ?_
  refine h.expression.bind fun e => ?_
  refine steady_skipLines.bind fun _ => ?_
  refine steady_accept.bind fun comma => steady_ite (steady_pure _) ?_
  refine (steady_expect he).bind fun closing => ?_
  exact steady_pure _

/-- Map entries are as steady as the keys and the values. -/
theorem steady_mapEntries (h : inner.Steady) : Steady (mapEntries inner) := by
  refine steady_iterate (strides_entryRound h.sound) (fun entries => ?_) []
  refine steady_skipLines.bind fun _ => ?_
  refine steady_accept.bind fun closed => steady_ite (steady_pure _) ?_
  refine h.expression.bind fun key => ?_
  refine steady_skipLines.bind fun _ => ?_
  refine (steady_expect (by simp)).bind fun colon => ?_
  refine steady_skipLines.bind fun _ => ?_
  refine h.expression.bind fun value => ?_
  refine steady_skipLines.bind fun _ => ?_
  refine steady_accept.bind fun comma => steady_ite (steady_pure _) ?_
  refine (steady_expect (by simp)).bind fun closing => ?_
  exact steady_pure _

/-- A list of names is refused only for a name or for its closing symbol. -/
theorem steady_namesUntil (he : unclosed ≠ .anyToken) : Steady (namesUntil close unclosed) := by
  refine steady_skipLines.bind fun _ => ?_
  refine steady_accept.bind fun closed => steady_ite (steady_pure _) ?_
  refine steady_iterate (strides_parameterRound close unclosed) (fun names => ?_) []
  refine (steady_name (by simp)).bind fun n => ?_
  refine steady_skipLines.bind fun _ => ?_
  refine steady_accept.bind fun comma => steady_ite ?_ ?_
  · refine steady_skipLines.bind fun _ => ?_
    exact steady_pure _
  · refine (steady_expect he).bind fun closing => ?_
    exact steady_pure _

/-- The parameters of a block are refused only for a name or for the second bar. -/
theorem steady_blockParameters : Steady blockParameters := by
  refine steady_iterate strides_blockParameterRound (fun names => ?_) []
  refine (steady_name (by simp)).bind fun n => ?_
  refine steady_accept.bind fun comma => steady_ite (steady_pure _) ?_
  refine (steady_expect (by simp)).bind fun bar => ?_
  exact steady_pure _

/-- A block behind a call is steady, with or without parameters. -/
theorem steady_blockArgument (h : inner.Steady) : Steady (blockArgument inner) := by
  have hbody {F : List Stmt → Parser Block} (hF : ∀ body, Steady (F body)) :
      Steady (blockBody inner >>= F) := (steady_blockBody h).bind hF
  refine steady_accept.bind fun emptyBars => steady_ite (hbody fun _ => steady_pure _) ?_
  refine steady_accept.bind fun bar => steady_ite ?_ (hbody fun _ => steady_pure _)
  refine steady_blockParameters.bind fun names => ?_
  exact hbody fun _ => steady_pure _

/-! ### Expressions -/

/-- What a name is called with is steady, each part of it there or missing. -/
theorem steady_callTail (h : inner.Steady) : Steady (callTail inner) := by
  refine steady_optional (steady_argumentsUntil h (by simp)) fun arguments => ?_
  refine steady_optional (steady_blockArgument h) fun block => ?_
  exact steady_pure _

/-- A call of `super` is steady, with or without a name. -/
theorem steady_superCall (h : inner.Steady) : Steady (superCall inner) := by
  refine steady_take.bind fun keyword => ?_
  refine steady_optional (steady_name (by simp)) fun name => ?_
  refine (steady_callTail h).bind fun tail => ?_
  exact steady_pure _

/-- Fields and names with what they are called with are steady. -/
theorem steady_named (h : inner.Steady) : Steady (named inner) := by
  refine steady_take.bind fun name => ?_
  split
  · exact steady_pure _
  · exact steady_pure _
  · exact (steady_callTail h).bind fun tail => steady_pure _

/-- A group is refused only for its expression or for its parenthesis. -/
theorem steady_group (h : inner.Steady) : Steady (group inner) := by
  refine steady_take.bind fun paren => ?_
  refine steady_skipLines.bind fun _ => ?_
  refine h.expression.bind fun e => ?_
  refine steady_skipLines.bind fun _ => ?_
  refine (steady_expect (by simp)).bind fun closing => ?_
  exact steady_pure _

/-- Primaries are steady, of every kind. -/
theorem steady_primary (h : inner.Steady) : Steady (primary inner) := by
  refine steady_kind.bind fun k => ?_
  split
  · exact steady_take.map _
  · exact steady_take.map _
  · exact steady_take.map _
  · exact steady_take.map _
  · exact steady_take.map _
  · exact steady_take.map _
  · exact steady_superCall h
  · exact steady_named h
  · exact steady_group h
  · -- a list
    refine steady_take.bind fun bracket => ?_
    exact (steady_argumentsUntil h (by simp)).bind fun items => steady_pure _
  · -- a map
    refine steady_take.bind fun brace => ?_
    exact (steady_mapEntries h).bind fun entries => steady_pure _
  · exact steady_reject nofun

/-- Calls and subscripts behind a primary are steady. -/
theorem steady_postfixed (h : inner.Steady) : Steady (postfixed inner) := by
  refine (steady_primary h).bind fun e => ?_
  refine steady_iterate (strides_postfixRound h.sound) (fun receiver => ?_) e
  refine steady_kind.bind fun k => ?_
  split
  · -- a call
    refine steady_take.bind fun dot => ?_
    refine steady_skipLines.bind fun _ => ?_
    refine (steady_name (by simp)).bind fun name => ?_
    exact (steady_callTail h).bind fun tail => steady_pure _
  · -- a subscript
    refine steady_take.bind fun bracket => ?_
    exact (steady_argumentsUntil h (by simp)).bind fun arguments => steady_pure _
  · -- a call may go on in a later line
    refine steady_skipLinesBefore.bind fun more => ?_
    exact steady_ite (steady_pure _) (steady_pure _)
  · exact steady_pure _

/-- Operands with unary operators are steady. -/
theorem steady_unary (h : inner.Steady) : Steady (unary inner) := by
  have hoperator : Steady (do let operator ← take; return Expr.unary operator (← inner.unary)) := by
    refine steady_take.bind fun operator => ?_
    exact h.unary.bind fun operand => steady_pure _
  refine steady_kind.bind fun k => ?_
  split
  · exact hoperator
  · exact hoperator
  · exact hoperator
  · exact steady_postfixed h

/-- Operands with binary operators are steady, however tightly these bind. -/
theorem steady_binary (h : inner.Steady) (least : Nat) : Steady (binary inner least) := by
  refine (steady_unary h).bind fun e => ?_
  refine steady_iterate (strides_operatorRound h.sound least) (fun left => ?_) e
  refine steady_kind.bind fun k => ?_
  split
  · exact steady_pure _
  · refine steady_ite (steady_pure _) ?_
    refine steady_take.bind fun operator => ?_
    refine steady_skipLines.bind fun _ => ?_
    exact (h.operand _).bind fun right => steady_pure _

/-- A choice between two expressions is refused only for one of them or for its colon. -/
theorem steady_conditional (h : inner.Steady) : Steady (conditional inner) := by
  refine (steady_binary h 1).bind fun condition => ?_
  refine steady_accept.bind fun question => steady_ite ?_ (steady_pure _)
  refine steady_skipLines.bind fun _ => ?_
  refine h.conditional.bind fun thenBranch => ?_
  refine steady_skipLines.bind fun _ => ?_
  refine (steady_expect (by simp)).bind fun colon => ?_
  refine steady_skipLines.bind fun _ => ?_
  exact h.conditional.bind fun elseBranch => steady_pure _

/-- An assignment is refused only for one of its sides. -/
theorem steady_assignment (h : inner.Steady) : Steady (assignment inner) := by
  refine (steady_conditional h).bind fun e => ?_
  refine steady_kind.bind fun k => steady_ite ?_ (steady_pure _)
  split
  · exact steady_reject nofun
  · refine steady_take.bind fun eq => ?_
    refine steady_skipLines.bind fun _ => ?_
    exact h.expression.bind fun value => steady_pure _

/-! ### Statements -/

/-- A condition is refused only for its expression or for one of its parentheses. -/
theorem steady_condition (h : inner.Steady) (keyword : Keyword) :
    Steady (condition inner keyword) := by
  refine (steady_expect (by simp)).bind fun opening => ?_
  refine steady_skipLines.bind fun _ => ?_
  refine h.expression.bind fun e => ?_
  refine steady_skipLines.bind fun _ => ?_
  refine (steady_expect (by simp)).bind fun closing => ?_
  exact steady_pure _

/-- `if` is steady, with an `else` or without. -/
theorem steady_ifElse (h : inner.Steady) : Steady (ifElse inner) := by
  refine steady_take.bind fun keyword => ?_
  refine (steady_condition h _).bind fun condition => ?_
  refine h.branch.bind fun thenBranch => ?_
  refine steady_skipLinesBefore.bind fun _ => ?_
  refine steady_accept.bind fun hasElse => steady_ite ?_ (steady_pure _)
  exact h.branch.bind fun elseBranch => steady_pure _

/-- `while` is as steady as its condition and its body. -/
theorem steady_whileLoop (h : inner.Steady) : Steady (whileLoop inner) := by
  refine steady_take.bind fun keyword => ?_
  refine (steady_condition h _).bind fun condition => ?_
  exact h.branch.bind fun body => steady_pure _

/-- `for` is refused only for one of its parts. -/
theorem steady_forLoop (h : inner.Steady) : Steady (forLoop inner) := by
  refine steady_take.bind fun keyword => ?_
  refine (steady_expect (by simp)).bind fun opening => ?_
  refine steady_skipLines.bind fun _ => ?_
  refine (steady_name (by simp)).bind fun name => ?_
  refine (steady_expect (by simp)).bind fun word => ?_
  refine steady_skipLines.bind fun _ => ?_
  refine h.expression.bind fun iterator => ?_
  refine steady_skipLines.bind fun _ => ?_
  refine (steady_expect (by simp)).bind fun closing => ?_
  exact h.branch.bind fun body => steady_pure _

/-- `return` is steady, with a value or without. -/
theorem steady_returning (h : inner.Steady) : Steady (returning inner) := by
  refine steady_take.bind fun keyword => ?_
  refine steady_kind.bind fun k => ?_
  split
  · exact steady_pure _
  · exact steady_pure _
  · exact steady_pure _
  · exact h.expression.bind fun value => steady_pure _

/-- Statements are steady, of every kind. -/
theorem steady_statement (h : inner.Steady) : Steady (statement inner) := by
  refine steady_kind.bind fun k => ?_
  split
  · exact steady_ifElse h
  · exact steady_whileLoop h
  · exact steady_forLoop h
  · exact steady_returning h
  · exact steady_take.map _
  · exact steady_take.map _
  · -- a block
    refine steady_take.bind fun brace => ?_
    exact (steady_blockBody h).bind fun body => steady_pure _
  · exact h.expression.bind fun e => steady_pure _

/-! ### Definitions -/

/-- The parameter of a setter is refused only for its name or for a parenthesis. -/
theorem steady_setterValue : Steady setterValue := by
  refine (steady_expect (by simp)).bind fun opening => ?_
  refine (steady_name (by simp)).bind fun value => ?_
  refine (steady_expect (by simp)).bind fun closing => ?_
  exact steady_pure _

/-- A parameter list is steady, there or missing. -/
theorem steady_parameters : Steady parameters := by
  refine steady_accept.bind fun paren => steady_ite ?_ (steady_pure _)
  exact (steady_namesUntil (by simp)).bind fun names => steady_pure _

/-- Heads of methods are steady, of every kind. -/
theorem steady_methodHead : Steady methodHead := by
  refine steady_kind.bind fun k => steady_ite ?_ (steady_ite ?_ (steady_ite ?_ ?_))
  · -- a name
    refine steady_take.bind fun name => ?_
    refine steady_accept.bind fun isSetter => steady_ite ?_ ?_
    · exact steady_setterValue.bind fun value => steady_pure _
    · exact steady_parameters.bind fun names => steady_pure _
  · -- a subscript
    refine steady_take.bind fun bracket => ?_
    refine (steady_namesUntil (by simp)).bind fun names => ?_
    refine steady_accept.bind fun isSetter => steady_ite ?_ (steady_pure _)
    exact steady_setterValue.bind fun value => steady_pure _
  · -- an operator
    refine steady_take.bind fun operator => ?_
    exact steady_parameters.bind fun names => steady_pure _
  · exact steady_reject nofun

/-- The words in front of a method are never refused. -/
theorem steady_modifiers : Steady modifiers := by
  refine steady_iterate strides_modifierRound (fun found => ?_) {}
  refine steady_kind.bind fun k => ?_
  split
  · exact steady_take.bind fun word => steady_pure _
  · exact steady_take.bind fun word => steady_pure _
  · exact steady_take.bind fun word => steady_pure _
  · exact steady_pure _

/-- A method is refused only for its head or for its body. -/
theorem steady_method (h : inner.Steady) : Steady (method inner) := by
  refine steady_modifiers.bind fun found => ?_
  refine steady_methodHead.bind fun head => ?_
  refine steady_accept.bind fun hasBody => steady_ite ?_ ?_
  · exact (steady_blockBody h).bind fun body => steady_pure _
  · exact steady_ite (steady_pure _) (steady_reject nofun)

/-- Bodies of classes are as steady as the methods in them. -/
theorem steady_classBody (h : inner.Steady) : Steady (classBody inner) := by
  refine steady_iterate (strides_classRound h.sound) (steady_bracedRound nofun fun methods => ?_) []
  refine (steady_method h).bind fun m => ?_
  refine steady_endOfStatement.bind fun _ => ?_
  exact steady_pure _

/-- A class is refused only for one of its parts. -/
theorem steady_classDef (h : inner.Steady) (isForeign : Bool) :
    Steady (classDef inner isForeign) := by
  refine (steady_name (by simp)).bind fun className => ?_
  refine steady_optional (steady_name (by simp)) fun superclass => ?_
  refine (steady_expect (by simp)).bind fun brace => ?_
  exact (steady_classBody h).bind fun methods => steady_pure _

/-- The names of an import are refused only for one that is missing. -/
theorem steady_importedNames : Steady importedNames := by
  refine steady_iterate strides_importRound (fun names => ?_) []
  refine steady_skipLines.bind fun _ => ?_
  refine (steady_name (by simp)).bind fun imported => ?_
  refine steady_optional (steady_name (by simp)) fun knownAs => ?_
  refine steady_accept.bind fun comma => ?_
  exact steady_ite (steady_pure _) (steady_pure _)

/-- An import is steady, with names or without. -/
theorem steady_importing : Steady importing := by
  refine (steady_expect (by simp)).bind fun path => ?_
  refine steady_accept.bind fun hasNames => steady_ite ?_ (steady_pure _)
  exact steady_importedNames.bind fun names => steady_pure _

/-- A variable is steady, with a value or without. -/
theorem steady_variableDef (h : inner.Steady) : Steady (variableDef inner) := by
  refine (steady_name (by simp)).bind fun name => ?_
  refine steady_accept.bind fun hasValue => steady_ite ?_ (steady_pure _)
  refine steady_skipLines.bind fun _ => ?_
  exact h.expression.bind fun value => steady_pure _

/-- Definitions are steady, of every kind. -/
theorem steady_definition (h : inner.Steady) : Steady (definition inner) := by
  refine steady_kind.bind fun k => ?_
  split
  · exact steady_take.bind fun keyword => steady_classDef h false
  · -- `foreign` may stand in front of a class
    refine steady_secondKind.bind fun second => steady_ite ?_ (steady_statement h)
    refine steady_take.bind fun word => ?_
    exact steady_take.bind fun keyword => steady_classDef h true
  · exact steady_take.bind fun keyword => steady_importing
  · exact steady_take.bind fun keyword => steady_variableDef h
  · exact steady_statement h

/-- A round of a module is refused only for a definition or for what stands behind it. -/
theorem steady_moduleRound (h : inner.Steady) (statements : List Stmt) :
    Steady (moduleRound inner statements) := by
  refine steady_atEnd.bind fun ended => steady_ite (steady_pure _) ?_
  refine steady_kind.bind fun k => steady_ite ?_ ?_
  · -- an attribute
    refine steady_skipAttribute.bind fun _ => ?_
    refine steady_skipLines.bind fun _ => ?_
    exact steady_pure _
  · refine h.definition.bind fun s => ?_
    refine steady_kind.bind fun next => steady_ite (steady_reject nofun) ?_
    refine steady_endOfStatement.bind fun _ => ?_
    exact steady_pure _

end Grammar

open Grammar in
/-- The constructs of the language are steady, as deep as they may nest. -/
theorem Nested.steady_within (depth : Nat) : (Nested.within depth).Steady := by
  induction depth with
  | zero =>
    exact ⟨sound_within 0, steady_reject nofun, steady_reject nofun, steady_reject nofun,
      steady_reject nofun, fun _ => steady_reject nofun, steady_reject nofun⟩
  | succ depth ih =>
    exact ⟨sound_within (depth + 1), steady_definition ih, steady_statement ih,
      steady_assignment ih, steady_conditional ih, steady_binary ih, steady_unary ih⟩

/-! ### The whole parser -/

namespace Module

/-- A list of tokens is parsed as what the rounds of a module come to, none of which stands
still. -/
theorem ofTokens_eq_rounds (ts : List Token) : ∃ x,
    Repeats (Grammar.moduleRound (.within Grammar.maxNesting)) [] (Cursor.ofTokens ts).skipLines x ∧
      (∀ r, x = .error r → r.expected ≠ .anyToken) ∧
      ofTokens ts = (x.map Prod.fst).mapError Rejection.toError := by
  have hinner := Nested.steady_within Grammar.maxNesting
  have hstop : (Cursor.ofTokens ts).skipLines.stop.kind = .eof := Cursor.stopOf_kind ts
  have hrepeats := (Grammar.strides_moduleRound hinner.sound).repeats_iterate hstop []
  refine ⟨_, hrepeats, (hrepeats.steady (Grammar.steady_moduleRound hinner) hstop).2, ?_⟩
  have hskip : skipLines (Cursor.ofTokens ts) = .ok ((), (Cursor.ofTokens ts).skipLines) := rfl
  rw [ofTokens, Grammar.module_eq, bind_of_ok hskip]
  rcases iterate (Grammar.moduleRound _) [] (Cursor.ofTokens ts).skipLines with r | ⟨m, d⟩ <;> rfl

/-- **The parser goes forward.**  Whatever the tokens, a definition, a statement, an expression,
a method or a primary that is read at one of them takes at least that one and none behind the
last.  The repetitions of the grammar go by rounds; each round is the last or takes a token, so
each repetition comes to an end, without a check that it takes any.  Single tokens, newlines
and attributes are passed one token at a time and up to the end at most.  So every list of
tokens is parsed, as what the rounds of a module come to, and none is refused because the
parser stands still. -/
theorem parse_progress :
    (∀ depth, (Nested.within depth).Forward) ∧
    ((∀ inner, Grammar.ByRounds inner) ∧
      ∀ (depth : Nat) {σ α : Type} (step : σ → Parser (Round σ α)),
        Grammar.Loop (.within depth) step → Stops step) ∧
    ((∀ (ts : List Token) (i : ℕ), i ≤ ts.length → ∃ j ≤ ts.length, i ≤ j ∧ j ≤ i + 1 ∧
        ((Cursor.ofTokens ts).drop i).advance = (Cursor.ofTokens ts).drop j) ∧
      Cursor.Skipping (·.kind = .line) Cursor.skipLines ∧
      Cursor.Skipping (fun t => t.kind ≠ .line ∧ t.kind ≠ .eof) Cursor.skipToLineEnd) ∧
    ∀ ts, ∃ x, Repeats (Grammar.moduleRound (.within Grammar.maxNesting)) []
        (Cursor.ofTokens ts).skipLines x ∧
      (∀ r, x = .error r → r.expected ≠ .anyToken) ∧
      ofTokens ts = (x.map Prod.fst).mapError Rejection.toError :=
  ⟨Nested.forward_within,
    ⟨Grammar.byRounds, fun depth _ _ _ hl => (hl.strides (Nested.sound_within depth)).stops⟩,
    ⟨fun ts _ hi => Cursor.advance_drop (c := .ofTokens ts) (Cursor.stopOf_kind ts) hi,
      Cursor.skipLines_skipping, Cursor.skipToLineEnd_skipping⟩,
    ofTokens_eq_rounds⟩

/-- A variable in front of a class that is cut off in a parameter list. -/
theorem parse_progress_of_cut :
    let ts := Token.tokenizePrefix "var a = [b,\n1]\nclass C \x7b\nd(e,"
    (∃ s d, (Nested.within 64).definition (Cursor.ofTokens ts) = .ok (s, d) ∧
      ∃ j ≤ ts.length, 0 < j ∧ d = (Cursor.ofTokens ts).drop j) ∧
    ∃ r d, Grammar.moduleRound (.within 64) [] (Cursor.ofTokens ts) = .ok (.again r, d) ∧
      ∃ j ≤ ts.length, 0 < j ∧ d = (Cursor.ofTokens ts).drop j := by
  intro ts
  obtain ⟨hforward, ⟨-, hloops⟩, -⟩ := parse_progress
  constructor
  · have hread : ((Nested.within 64).definition (Cursor.ofTokens ts)).isOk = true := by
      decide +kernel
    rcases h : (Nested.within 64).definition (Cursor.ofTokens ts) with r | ⟨s, d⟩
    · rw [h] at hread
      cases hread
    · exact ⟨s, d, rfl, (hforward 64).definition ts 0 (Nat.zero_le _) s d h⟩
  · have hread : (Grammar.moduleRound (.within 64) [] (Cursor.ofTokens ts)).isOk = true := by
      decide +kernel
    have hmore : (Cursor.ofTokens ts).atEnd = false := by decide +kernel
    rcases h : Grammar.moduleRound (.within 64) [] (Cursor.ofTokens ts) with e | ⟨r | m, d⟩
    · rw [h] at hread
      cases hread
    · obtain ⟨j, hj, -, hd, hlt⟩ :=
        (hloops 64 _ .module).round ts 0 (Nat.zero_le _) [] _ d h
      exact ⟨r, d, rfl, j, hj, hlt r rfl, hd⟩
    · rcases Grammar.moduleRound_cases h with ⟨hend, -⟩ | ⟨-, -, hr, -⟩ |
        ⟨_, _, -, -, -, -, -, hr⟩
      · exact absurd hend (by simp [hmore])
      · cases hr
      · cases hr

end Module
end WrenAnalysis
