/-
# The parser keeps to the grammar

Every production takes tokens that its value is written with, if the constructs one level
further in do.  So the constructs of the language do, as deep as they may nest
(`Nested.sound_within`), and a module is the statements its tokens are written for
(`Module.statements_of_ofTokens`).
-/

import WrenAnalysis.Proofs.Syntax.Derivation
import WrenAnalysis.Proofs.Syntax.Rounds

namespace WrenAnalysis

open WrenAnalysis.Parser

/-- The constructs take the tokens that they are written with. -/
structure Nested.Sound (inner : Nested) : Prop where
  definition : inner.definition.Reads fun s us => Derives (.stmt s) us
  branch : inner.branch.Reads fun s us => Derives (.stmt s) us
  expression : inner.expression.Reads fun e us => Derives (.expr e) us
  conditional : inner.conditional.Reads fun e us => Derives (.expr e) us
  operand : ∀ least, (inner.operand least).Reads fun e us => Derives (.expr e) us
  unary : inner.unary.Reads fun e us => Derives (.expr e) us

namespace Grammar

variable {inner : Nested} {c : Cursor}

/-! ### Blocks and lists -/

/-- A statement ends with newlines, if with any tokens at all. -/
theorem reads_endOfStatement : endOfStatement.Reads fun _ us => Lines us := by
  refine fun c => yields_kind ?_
  split
  · exact reads_skipLines c
  · exact yields_pure lines_nil
  · exact yields_pure lines_nil
  · exact yields_reject _

/-- What a block is read from is its body, up to the closing brace. -/
theorem reads_blockBody (h : inner.Sound) :
    (blockBody inner).Reads fun ss us => Derives (.body ss) us := by
  refine reads_collect fun body c => ?_
  refine yields_skipLines fun ls d hls => ?_
  refine yields_accept (by simp) (fun t e ht => ?_) ?_
  · exact yields_pure ⟨[], by simp, .bodyEnd hls ht⟩
  · refine yields_atEnd (yields_reject _) (yields_kind ?_)
    split
    · next hk =>
      refine yields_bind (yields_skipAttribute hk) fun _ us e hus => yields_pure ⟨[], by simp, ?_⟩
      exact fun ss vs hss => by simpa using .bodyAttribute hls hus hss
    · refine yields_bind (h.definition d) fun s us e hs => ?_
      refine yields_bind (reads_endOfStatement e) fun _ ls' e' hls' => ?_
      refine yields_pure ⟨[s], rfl, ?_⟩
      exact fun ss vs hss => by simpa using .bodyMore hls hs hls' hss

/-- What arguments are read from is a list with commas, up to its bracket. -/
theorem reads_argumentsUntil (h : inner.Sound) (r : Bracket) (e : Expectation) :
    (argumentsUntil inner r.close e).Reads fun es us => Derives (.arguments r es) us := by
  refine reads_collect fun arguments c => ?_
  refine yields_skipLines fun ls d hls => ?_
  refine yields_accept (by simp) (fun t d ht => ?_) ?_
  · exact yields_pure ⟨[], by simp, .argumentsEnd hls ht⟩
  refine yields_bind (h.expression d) fun a us d ha => ?_
  refine yields_skipLines fun ls' d hls' => ?_
  refine yields_accept (by simp) (fun t d ht => ?_) ?_
  · refine yields_pure ⟨[a], rfl, fun es vs hes => ?_⟩
    simpa using .argumentsMore hls ha hls' ht hes
  · refine yields_expect (by simp) _ fun t d ht => ?_
    exact yields_pure ⟨[a], rfl, .argumentsLast hls ha hls' ht⟩

/-- What a map is read from is its entries, up to the closing brace. -/
theorem reads_mapEntries (h : inner.Sound) :
    (mapEntries inner).Reads fun es us => Derives (.entries es) us := by
  refine reads_collect fun entries c => ?_
  refine yields_skipLines fun ls d hls => ?_
  refine yields_accept (by simp) (fun t d ht => ?_) ?_
  · exact yields_pure ⟨[], by simp, .entriesEnd hls ht⟩
  refine yields_bind (h.expression d) fun key us d hkey => ?_
  refine yields_skipLines fun ls₁ d hls₁ => ?_
  refine yields_expect (by simp) _ fun k d hk => ?_
  refine yields_skipLines fun ls₂ d hls₂ => ?_
  refine yields_bind (h.expression d) fun value vs d hvalue => ?_
  refine yields_skipLines fun ls₃ d hls₃ => ?_
  refine yields_accept (by simp) (fun t d ht => ?_) ?_
  · refine yields_pure ⟨[.mk key value], rfl, fun es ws hes => ?_⟩
    simpa using .entriesMore hls hkey hls₁ hk hls₂ hvalue hls₃ ht hes
  · refine yields_expect (by simp) _ fun t d ht => ?_
    exact yields_pure ⟨[.mk key value], rfl, .entriesLast hls hkey hls₁ hk hls₂ hvalue hls₃ ht⟩

/-- What parameters are read from is a list of names, up to its bracket. -/
theorem reads_namesUntil (close : Symbol) (e : Expectation) :
    (namesUntil close e).Reads fun ns us => Names close ns us := by
  intro c
  refine yields_skipLines fun ls d hls => ?_
  refine yields_accept (by simp) (fun t d ht => yields_pure (.none hls ht)) ?_
  refine (reads_collect (G := NameList close) (fun names c => ?_) d).mono fun ns us hns =>
    .some hls hns
  refine yields_name _ fun n d hn => ?_
  refine yields_skipLines fun ls d hls => ?_
  refine yields_accept (by simp) (fun t d ht => ?_) ?_
  · refine yields_skipLines fun ls' d hls' => ?_
    refine yields_pure ⟨[n], rfl, fun ns us hns => ?_⟩
    simpa using .more hn hls ht hls' hns
  · refine yields_expect (by simp) _ fun t d ht => ?_
    exact yields_pure ⟨[n], rfl, .last hn hls ht⟩

/-- What block parameters are read from is a list of names, up to its bar. -/
theorem reads_blockParameters : blockParameters.Reads fun ns us => NameList .pipe ns us := by
  refine reads_collect fun names c => ?_
  refine yields_name _ fun n d hn => ?_
  refine yields_accept (by simp) (fun t d ht => ?_) ?_
  · refine yields_pure ⟨[n], rfl, fun ns us hns => ?_⟩
    exact .more hn lines_nil ht lines_nil hns
  · refine yields_expect (by simp) _ fun t d ht => ?_
    exact yields_pure ⟨[n], rfl, .last hn lines_nil ht⟩

/-- A block behind a call has a head and a body. -/
def WrittenBlock (b : Block) (us : List Token) : Prop :=
  ∃ vs ws, us = vs ++ ws ∧ BlockHead b.parameters vs ∧ Derives (.body b.body) ws

/-- What a block behind a call is read from is a head and a body. -/
theorem reads_blockArgument (h : inner.Sound) : (blockArgument inner).Reads WrittenBlock := by
  intro c
  refine yields_accept (by simp) (fun t d ht => ?_) ?_
  · exact yields_map (reads_blockBody h d) fun ss us hss => ⟨[t], us, rfl, .bars ht, hss⟩
  refine yields_accept (by simp) (fun t d ht => ?_) ?_
  · refine yields_bind (reads_blockParameters d) fun ns us e hns => ?_
    refine yields_map (reads_blockBody h e) fun ss vs hss => ?_
    exact ⟨t :: us, vs, rfl, .some ht hns, hss⟩
  · exact yields_map (reads_blockBody h c) fun ss us hss => ⟨[], us, rfl, .none, hss⟩

/-! ### Expressions -/

/-- What a name is called with is read from arguments and a block. -/
theorem reads_callTail (h : inner.Sound) :
    (callTail inner).Reads fun tail us => Derives (.tail tail.1 tail.2) us := by
  -- The block comes last, behind any arguments.
  have hblock : ∀ (as : Option (List Expr)) us, Derives (.tail as none) us → ∀ c,
      Yields (do
        let block ←
          if ← accept (.symbol .leftBrace) then some <$> blockArgument inner else pure none
        return (as, block)) c fun tail vs => Derives (.tail tail.1 tail.2) (us ++ vs) := by
    intro as us has c
    refine yields_optional (by simp) (reads_blockArgument h) ?_ ?_
    · rintro t ⟨ps, ss⟩ _ d ht ⟨vs, ws, rfl, hps, hss⟩
      refine yields_pure ?_
      simpa using .tailBlock has ht hps hss
    · refine yields_pure ?_
      simpa using has
  refine fun c => yields_optional (by simp) (reads_argumentsUntil h .paren _) ?_ ?_
  · exact fun t as us d ht has => hblock (some as) (t :: us) (.tailArguments ht has) d
  · exact hblock none [] .tailNone c

/-- A name that may be missing is read behind its token only. -/
theorem yields_optionalName {β : Type} {k : Kind} {J : Option Token → Parser β}
    {Q : β → List Token → Prop} (hk : k ≠ .eof) (e : Expectation)
    (hJ : ∀ n us d, OptionalName k n us → (J n).Yields d fun b vs => Q b (us ++ vs)) :
    (accept k >>= fun b => if b = true then some <$> name e >>= J else pure none >>= J).Yields
      c Q := by
  refine yields_optional hk (reads_name e) ?_ (hJ none [] c .none)
  rintro t n _ d ht ⟨hn, rfl⟩
  exact hJ (some n) [t, n] d (.some ht hn)

/-- What a call of `super` is read from starts with the word. -/
theorem yields_superCall (h : inner.Sound) (hc : c.current.kind = .keyword .super_) :
    (superCall inner).Yields c fun e us => Derives (.expr e) us := by
  refine yields_take (by simp [hc]) fun t d ht => ?_
  refine yields_optionalName (by simp) _ fun n us d hn => ?_
  refine yields_map (reads_callTail h d) fun tail vs htail => ?_
  exact .superCall (ht.trans hc) hn htail

/-- What a name is read from is a field, or a name with what it is called with. -/
theorem yields_named (h : inner.Sound) (hc : c.current.kind = .name) :
    (named inner).Yields c fun e us => Derives (.expr e) us := by
  refine yields_take (by simp [hc]) fun t d ht => ?_
  split
  · next hclass => exact yields_pure (.field (ht.trans hc) hclass)
  · next hclass => exact yields_pure (.staticField (ht.trans hc) hclass)
  · next hclass =>
    refine yields_map (reads_callTail h d) fun tail us htail => ?_
    exact .name (ht.trans hc) hclass htail

/-- What a group is read from is an expression in parentheses. -/
theorem yields_group (h : inner.Sound) (hc : c.current.kind = .symbol .leftParen) :
    (group inner).Yields c fun e us => Derives (.expr e) us := by
  refine yields_take (by simp [hc]) fun t d ht => ?_
  refine yields_skipLines fun ls d hls => ?_
  refine yields_bind (h.expression d) fun e us d he => ?_
  refine yields_skipLines fun ls' d hls' => ?_
  refine yields_expect (by simp) _ fun t' d ht' => ?_
  exact yields_pure (.group (ht.trans hc) hls he hls' ht')

/-- A token that is an expression by itself. -/
theorem yields_literal {make : Token → Expr} (hc : c.current.kind ≠ .eof)
    (hmake : ∀ t, t.kind = c.current.kind → Derives (.expr (make t)) [t]) :
    (make <$> take).Yields c fun e us => Derives (.expr e) us :=
  yields_take hc fun t _ ht => yields_pure (hmake t ht)

/-- What a primary is read from is what its expression is written with. -/
theorem reads_primary (h : inner.Sound) :
    (primary inner).Reads fun e us => Derives (.expr e) us := by
  refine fun c => yields_kind ?_
  split
  · next hc => exact yields_literal (by simp [hc]) fun t ht => .null (ht.trans hc)
  · next hc => exact yields_literal (by simp [hc]) fun t ht => .bool (by simp [ht, hc])
  · next hc => exact yields_literal (by simp [hc]) fun t ht => .bool (by simp [ht, hc])
  · next hc => exact yields_literal (by simp [hc]) fun t ht => .num (ht.trans hc)
  · next hc => exact yields_literal (by simp [hc]) fun t ht => .str (ht.trans hc)
  · next hc => exact yields_literal (by simp [hc]) fun t ht => .thisValue (ht.trans hc)
  · next hc => exact yields_superCall h hc
  · next hc => exact yields_named h hc
  · next hc => exact yields_group h hc
  · next hc =>
    refine yields_take (by simp [hc]) fun t d ht => ?_
    refine yields_map (reads_argumentsUntil h .square _ d) fun es us hes => ?_
    exact .list (ht.trans hc) hes
  · next hc =>
    refine yields_take (by simp [hc]) fun t d ht => ?_
    refine yields_map (reads_mapEntries h d) fun es us hes => ?_
    exact .map (ht.trans hc) hes
  · exact yields_reject _

/-- What follows an expression `e` and makes it `e'`. -/
def Extends (e e' : Expr) (us : List Token) : Prop :=
  ∀ vs, Derives (.expr e) vs → Derives (.expr e') (vs ++ us)

/-- An expression with what follows it, round by round. -/
theorem reads_extended {first : Parser Expr} {step : Expr → Parser (Round Expr Expr)}
    (hfirst : first.Reads fun e us => Derives (.expr e) us)
    (hstep : ∀ e, (step e).Reads (roundGives Extends e)) :
    (first >>= fun e => iterate step e).Reads fun e us => Derives (.expr e) us :=
  fun c => yields_bind (hfirst c) fun e us d he =>
    (reads_iterate hstep e d).mono fun _ _ hmore => hmore us he

/-- Nothing follows an expression that stays as it is. -/
theorem extends_refl (e : Expr) : Extends e e [] := fun vs he => by rwa [List.append_nil]

/-- A round that extends an expression is followed by others that do. -/
theorem Extends.again {e e' : Expr} {us : List Token} (h : Extends e e' us) :
    roundGives Extends e (.again e') us :=
  fun e'' vs hmore ws he => by simpa using hmore _ (h ws he)

/-- Calls and subscripts are read from what follows a primary. -/
theorem reads_postfixed (h : inner.Sound) :
    (postfixed inner).Reads fun e us => Derives (.expr e) us := by
  refine reads_extended (reads_primary h) fun e c => yields_kind ?_
  split
  · next hc =>
    refine yields_take (by simp [hc]) fun t d ht => ?_
    refine yields_skipLines fun ls d hls => ?_
    refine yields_name _ fun n d hn => ?_
    refine yields_map (reads_callTail h d) fun tail us htail => ?_
    exact Extends.again fun vs he => .call he (ht.trans hc) hls hn htail
  · next hc =>
    refine yields_take (by simp [hc]) fun t d ht => ?_
    refine yields_map (reads_argumentsUntil h .square _ d) fun es us hes => ?_
    exact Extends.again fun vs he => .subscript he (ht.trans hc) hes
  · refine yields_bind (reads_skipLinesBefore c) fun b ls d hls => ?_
    have hmore : Extends e e ls := fun vs he => .continued he hls
    rw [← List.append_nil ls] at hmore
    split
    · exact yields_pure hmore.again
    · exact yields_pure hmore
  · exact yields_pure (extends_refl e)

/-- What an operand is read from has its operators in front. -/
theorem reads_unary (h : inner.Sound) :
    (unary inner).Reads fun e us => Derives (.expr e) us := by
  have hoperator : ∀ c : Cursor,
      c.current.kind ∈ [.symbol .minus, .symbol .bang, .symbol .tilde] →
      Yields (do let operator ← take; return Expr.unary operator (← inner.unary)) c
        fun e us => Derives (.expr e) us := by
    intro c hc
    refine yields_take (by rintro heq; simp [heq] at hc) fun t d ht => ?_
    refine yields_map (h.unary d) fun e us he => ?_
    exact .unary (ht ▸ hc) he
  refine fun c => yields_kind ?_
  split
  · next hc => exact hoperator c (by simp [hc])
  · next hc => exact hoperator c (by simp [hc])
  · next hc => exact hoperator c (by simp [hc])
  · exact reads_postfixed h c

/-- What operands are read from has the operators between them. -/
theorem reads_binary (h : inner.Sound) (least : Nat) :
    (binary inner least).Reads fun e us => Derives (.expr e) us := by
  refine reads_extended (reads_unary h) fun left c => yields_kind ?_
  split
  · exact yields_pure (extends_refl left)
  · next p hp =>
    have hc : c.current.kind ≠ .eof := by
      intro heq
      simp [heq, Kind.precedence] at hp
    split
    · exact yields_pure (extends_refl left)
    · refine yields_take hc fun t d ht => ?_
      refine yields_skipLines fun ls d hls => ?_
      refine yields_map (h.operand _ d) fun right us hright => ?_
      exact Extends.again fun vs hleft => .binary hleft (ht ▸ hp) hls hright

/-- What a choice is read from has its two signs between three expressions. -/
theorem reads_conditional (h : inner.Sound) :
    (conditional inner).Reads fun e us => Derives (.expr e) us := by
  intro c
  refine yields_bind (reads_binary h 1 c) fun e us d he => ?_
  refine yields_accept (by simp) (fun q d hq => ?_) ?_
  · refine yields_skipLines fun ls d hls => ?_
    refine yields_bind (h.conditional d) fun a vs d ha => ?_
    refine yields_skipLines fun ls₁ d hls₁ => ?_
    refine yields_expect (by simp) _ fun k d hk => ?_
    refine yields_skipLines fun ls₂ d hls₂ => ?_
    refine yields_map (h.conditional d) fun b ws hb => ?_
    exact .conditional he hq hls ha hls₁ hk hls₂ hb
  · refine yields_pure ?_
    rwa [List.append_nil]

/-- What an assignment is read from has an equals sign between its sides. -/
theorem reads_assignment (h : inner.Sound) :
    (assignment inner).Reads fun e us => Derives (.expr e) us := by
  refine fun c => yields_bind (reads_conditional h c) fun e us d he => yields_kind ?_
  split
  · next hc =>
    split
    · exact yields_reject _
    · next target htarget =>
      refine yields_take (by simp [hc]) fun q d hq => ?_
      refine yields_skipLines fun ls d hls => ?_
      refine yields_map (h.expression d) fun value vs hvalue => ?_
      exact .assign he htarget (hq.trans hc) hls hvalue
  · refine yields_pure ?_
    rwa [List.append_nil]

/-! ### Statements -/

/-- What a condition is read from is an expression in parentheses. -/
theorem reads_condition (h : inner.Sound) (keyword : Keyword) :
    (condition inner keyword).Reads fun e us => Derives (.condition e) us := by
  intro c
  refine yields_expect (by simp) _ fun o d ho => ?_
  refine yields_skipLines fun ls d hls => ?_
  refine yields_bind (h.expression d) fun e us d he => ?_
  refine yields_skipLines fun ls' d hls' => ?_
  refine yields_expect (by simp) _ fun t d ht => ?_
  exact yields_pure (.condition ho hls he hls' ht)

/-- What `if` is read from is its condition and its branches. -/
theorem yields_ifElse (h : inner.Sound) (hc : c.current.kind = .keyword .if_) :
    (ifElse inner).Yields c fun s us => Derives (.stmt s) us := by
  refine yields_take (by simp [hc]) fun k d hk => ?_
  refine yields_bind (reads_condition h _ d) fun e us d he => ?_
  refine yields_bind (h.branch d) fun s vs d hs => ?_
  refine yields_bind (reads_skipLinesBefore d) fun _ ls d hls => ?_
  refine yields_accept (by simp) (fun t d ht => ?_) ?_
  · refine yields_map (h.branch d) fun s' ws hs' => ?_
    exact .ifElse (hk.trans hc) he hs hls ht hs'
  · refine yields_pure ?_
    simpa using .ifThen (hk.trans hc) he hs hls

/-- What `while` is read from is its condition and its body. -/
theorem yields_whileLoop (h : inner.Sound) (hc : c.current.kind = .keyword .while_) :
    (whileLoop inner).Yields c fun s us => Derives (.stmt s) us := by
  refine yields_take (by simp [hc]) fun k d hk => ?_
  refine yields_bind (reads_condition h _ d) fun e us d he => ?_
  refine yields_map (h.branch d) fun s vs hs => ?_
  exact .whileLoop (hk.trans hc) he hs

/-- What `for` is read from is its name, what it goes through and its body. -/
theorem yields_forLoop (h : inner.Sound) (hc : c.current.kind = .keyword .for_) :
    (forLoop inner).Yields c fun s us => Derives (.stmt s) us := by
  refine yields_take (by simp [hc]) fun k d hk => ?_
  refine yields_expect (by simp) _ fun o d ho => ?_
  refine yields_skipLines fun ls d hls => ?_
  refine yields_name _ fun n d hn => ?_
  refine yields_expect (by simp) _ fun i d hi => ?_
  refine yields_skipLines fun ls₁ d hls₁ => ?_
  refine yields_bind (h.expression d) fun e us d he => ?_
  refine yields_skipLines fun ls₂ d hls₂ => ?_
  refine yields_expect (by simp) _ fun t d ht => ?_
  refine yields_map (h.branch d) fun s vs hs => ?_
  exact .forLoop (hk.trans hc) ho hls hn hi hls₁ he hls₂ ht hs

/-- What `return` is read from is the word, with a value or without. -/
theorem yields_returning (h : inner.Sound) (hc : c.current.kind = .keyword .return_) :
    (returning inner).Yields c fun s us => Derives (.stmt s) us := by
  refine yields_take (by simp [hc]) fun k d hk => yields_kind ?_
  split
  · exact yields_pure (.returning (hk.trans hc))
  · exact yields_pure (.returning (hk.trans hc))
  · exact yields_pure (.returning (hk.trans hc))
  · exact yields_map (h.expression d) fun e us he => .returningValue (hk.trans hc) he

/-- What a statement is read from is what it is written with. -/
theorem reads_statement (h : inner.Sound) :
    (statement inner).Reads fun s us => Derives (.stmt s) us := by
  refine fun c => yields_kind ?_
  split
  · next hc => exact yields_ifElse h hc
  · next hc => exact yields_whileLoop h hc
  · next hc => exact yields_forLoop h hc
  · next hc => exact yields_returning h hc
  · next hc =>
    exact yields_take (by simp [hc]) fun k d hk => yields_pure (.breaking (hk.trans hc))
  · next hc =>
    exact yields_take (by simp [hc]) fun k d hk => yields_pure (.continuing (hk.trans hc))
  · next hc =>
    refine yields_take (by simp [hc]) fun b d hb => ?_
    refine yields_map (reads_blockBody h d) fun ss us hss => ?_
    exact .block (hb.trans hc) hss
  · exact yields_map (h.expression c) fun e us he => .expr he

/-! ### Definitions -/

/-- What a setter's parameter is read from is a name in parentheses. -/
theorem reads_setterValue {q : Token} (hq : q.kind = .symbol .eq) :
    setterValue.Reads fun v us => SetterValue v (q :: us) := by
  intro c
  refine yields_expect (by simp) _ fun o d ho => ?_
  refine yields_name _ fun v d hv => ?_
  refine yields_expect (by simp) _ fun t d ht => ?_
  exact yields_pure (.mk hq ho hv ht)

/-- What parameters are read from is a list in parentheses, or nothing. -/
theorem reads_parameters : parameters.Reads fun ps us => Parameters ps us := by
  refine fun c => yields_accept (by simp) (fun t d ht => ?_) (yields_pure .none)
  exact yields_map (reads_namesUntil _ _ d) fun ns us hns => .some ht hns

/-- What a head is read from tells the name, the kind and the parameters. -/
theorem reads_methodHead : methodHead.Reads fun h us => Heads h.1 h.2.1 h.2.2 us := by
  refine fun c => yields_kind ?_
  split
  · next hc =>
    refine yields_take (by simp [hc]) fun n d hn => ?_
    refine yields_accept (by simp) (fun q d hq => ?_) ?_
    · refine yields_map (reads_setterValue hq d) fun v us hv => ?_
      exact .setter (hn.trans hc) hv
    · refine yields_map (reads_parameters d) fun ps us hps => ?_
      exact .named (hn.trans hc) hps
  · split
    · next hc =>
      refine yields_take (by simp [hc]) fun b d hb => ?_
      refine yields_bind (reads_namesUntil _ _ d) fun ns us d hns => ?_
      refine yields_accept (by simp) (fun q d hq => ?_) ?_
      · refine yields_map (reads_setterValue hq d) fun v vs hv => ?_
        exact .subscriptSetter (hb.trans hc) hns hv
      · refine yields_pure ?_
        simpa using .subscript (hb.trans hc) hns
    · split
      · next hc =>
        have hk : c.current.kind ≠ .eof := by
          intro heq
          simp [heq, Kind.isOperatorName] at hc
        refine yields_take hk fun o d ho => yields_map (reads_parameters d) fun ps us hps => ?_
        exact .operator (ho ▸ hc) hps
      · exact yields_reject _

/-- What modifiers are read from is one word for each. -/
theorem reads_modifiers : modifiers.Reads fun found us => Modifies {} found us := by
  refine reads_iterate (G := Modifies) (fun start c => yields_kind ?_) {}
  split
  · next hc =>
    refine yields_take (by simp [hc]) fun t d ht => ?_
    exact yields_pure fun found vs hfound => .construct (ht.trans hc) hfound
  · next hc =>
    refine yields_take (by simp [hc]) fun t d ht => ?_
    exact yields_pure fun found vs hfound => .foreign (ht.trans hc) hfound
  · next hc =>
    refine yields_take (by simp [hc]) fun t d ht => ?_
    exact yields_pure fun found vs hfound => .static (ht.trans hc) hfound
  · exact yields_pure .none

/-- What a method is read from is its modifiers, its head and its body. -/
theorem reads_method (h : inner.Sound) :
    (method inner).Reads fun m us => Derives (.method m) us := by
  intro c
  refine yields_bind (reads_modifiers c) fun found us d hfound => ?_
  refine yields_bind (reads_methodHead d) fun head vs d hhead => ?_
  refine yields_accept (by simp) (fun b d hb => ?_) ?_
  · refine yields_map (reads_blockBody h d) fun ss ws hss => ?_
    exact .methodBody hfound hhead hb hss
  · split
    · next hforeign =>
      refine yields_pure ?_
      simpa using .methodForeign hfound hforeign hhead
    · exact yields_reject _

/-- What a class is read from is its methods, up to the closing brace. -/
theorem reads_classBody (h : inner.Sound) :
    (classBody inner).Reads fun ms us => Derives (.methods ms) us := by
  refine reads_collect fun methods c => ?_
  refine yields_skipLines fun ls d hls => ?_
  refine yields_accept (by simp) (fun t e ht => ?_) ?_
  · exact yields_pure ⟨[], by simp, .methodsEnd hls ht⟩
  · refine yields_atEnd (yields_reject _) (yields_kind ?_)
    split
    · next hk =>
      refine yields_bind (yields_skipAttribute hk) fun _ us e hus => yields_pure ⟨[], by simp, ?_⟩
      exact fun ms vs hms => by simpa using .methodsAttribute hls hus hms
    · refine yields_bind (reads_method h d) fun m us e hm => ?_
      refine yields_bind (reads_endOfStatement e) fun _ ls' e' hls' => ?_
      refine yields_pure ⟨[m], rfl, ?_⟩
      exact fun ms vs hms => by simpa using .methodsMore hls hm hls' hms

/-- What a class is read from is its name, its superclass and its methods. -/
theorem reads_classDef (h : inner.Sound) {isForeign : Bool} {us : List Token}
    (hhead : ClassHead isForeign us) :
    (classDef inner isForeign).Reads fun s vs => Derives (.stmt s) (us ++ vs) := by
  intro c
  refine yields_name _ fun n d hn => ?_
  refine yields_optionalName (by simp) _ fun parent vs d hparent => ?_
  refine yields_expect (by simp) _ fun b d hb => ?_
  refine yields_map (reads_classBody h d) fun ms ws hms => ?_
  exact .classDef hhead hn hparent hb hms

/-- What imported names are read from is a list of them, with their new names. -/
theorem reads_importedNames : importedNames.Reads fun ns us => ImportList ns us := by
  refine reads_collect fun names c => ?_
  refine yields_skipLines fun ls d hls => ?_
  refine yields_name _ fun n d hn => ?_
  refine yields_optionalName (by simp) _ fun a us d ha => ?_
  refine yields_accept (by simp) (fun t d ht => ?_) ?_
  · refine yields_pure ⟨[⟨n, a⟩], rfl, fun ns vs hns => ?_⟩
    simpa using .more hls hn ha ht hns
  · refine yields_pure ⟨[⟨n, a⟩], rfl, ?_⟩
    simpa using .last hls hn ha

/-- What an import is read from is its path and its names. -/
theorem reads_importing {k : Token} (hk : k.kind = .keyword .import_) :
    importing.Reads fun s us => Derives (.stmt s) (k :: us) := by
  intro c
  refine yields_expect (by simp) _ fun p d hp => ?_
  refine yields_accept (by simp) (fun f d hf => ?_) (yields_pure (.importing hk hp))
  exact yields_map (reads_importedNames d) fun ns us hns => .importingNames hk hp hf hns

/-- What a variable is read from is its name and its value. -/
theorem reads_variableDef (h : inner.Sound) {k : Token} (hk : k.kind = .keyword .var_) :
    (variableDef inner).Reads fun s us => Derives (.stmt s) (k :: us) := by
  intro c
  refine yields_name _ fun n d hn => ?_
  refine yields_accept (by simp) (fun q d hq => ?_) (yields_pure (.var hk hn))
  refine yields_skipLines fun ls d hls => ?_
  exact yields_map (h.expression d) fun e us he => .varValue hk hn hq hls he

/-- What a definition is read from is what it is written with. -/
theorem reads_definition (h : inner.Sound) :
    (definition inner).Reads fun s us => Derives (.stmt s) us := by
  refine fun c => yields_kind ?_
  split
  · next hc =>
    exact yields_take (by simp [hc]) fun k d hk => reads_classDef h (.plain (hk.trans hc)) d
  · next hc =>
    refine yields_secondKind ?_
    split
    · next hsecond =>
      exact yields_takeBoth (by simp [hc]) (by simp [hsecond]) fun f k d hf hk =>
        reads_classDef h (.foreign (hf.trans hc) (hk.trans hsecond)) d
    · exact reads_statement h c
  · next hc => exact yields_take (by simp [hc]) fun k d hk => reads_importing (hk.trans hc) d
  · next hc => exact yields_take (by simp [hc]) fun k d hk => reads_variableDef h (hk.trans hc) d
  · exact reads_statement h c

end Grammar

/-! ### All levels -/

open Grammar in
/-- The constructs of the language keep to the grammar, as deep as they may nest. -/
theorem Nested.sound_within (depth : Nat) : (Nested.within depth).Sound := by
  induction depth with
  | zero =>
    exact ⟨fun _ => yields_reject _, fun _ => yields_reject _, fun _ => yields_reject _,
      fun _ => yields_reject _, fun _ _ => yields_reject _, fun _ => yields_reject _⟩
  | succ depth ih =>
    exact ⟨reads_definition ih, reads_statement ih, reads_assignment ih, reads_conditional ih,
      reads_binary ih, reads_unary ih⟩

/-! ### Modules -/

/-- The rounds of a module take the tokens of its statements, up to the end. -/
theorem Grammar.Rounds.statements {inner : Nested} {c : Cursor} {ss : List Stmt}
    (h : Rounds inner c ss) (hinner : inner.Sound) (hstop : c.stop.kind = .eof) :
    ∃ us rest, c.ahead = us ++ rest ∧ Statements ss us ∧ ∀ t ∈ rest.head?, t.kind = .eof := by
  induction h with
  | @done c hat =>
    refine ⟨[], c.ahead, rfl, .nil, fun t ht => ?_⟩
    have hkind : c.current.kind = .eof := (Cursor.atEnd_iff hstop).1 hat
    rwa [Cursor.current, List.headD_eq_head?_getD, Option.mem_def.1 ht] at hkind
  | @attributed c ss _ hk _ ih =>
    obtain ⟨us, hus, hd, hattribute⟩ := yields_skipAttribute hk hstop () c.skipToLineEnd rfl
    obtain ⟨ls, hls, he, hlines⟩ :=
      reads_skipLines c.skipToLineEnd (hd ▸ hstop) () c.skipToLineEnd.skipLines rfl
    obtain ⟨vs, rest, hvs, hss, hrest⟩ := ih (he.trans hd ▸ hstop)
    exact ⟨us ++ (ls ++ vs), rest, by simp [hus, hls, hvs], .attributed hattribute hlines hss,
      hrest⟩
  | @definition c d e s ss _ _ hdef _ hend _ _ ih =>
    obtain ⟨us, hus, hd, hs⟩ := hinner.definition c hstop s d hdef
    obtain ⟨ls, hls, he, hlines⟩ := reads_endOfStatement d (hd ▸ hstop) () e hend
    obtain ⟨vs, rest, hvs, hss, hrest⟩ := ih (he.trans hd ▸ hstop)
    exact ⟨us ++ (ls ++ vs), rest, by simp [hus, hls, hvs], .definition hs hlines hss, hrest⟩

/-- The tokens of a module are newlines and then its statements, up to the end. -/
theorem Module.statements_of_ofTokens {ts : List Token} {m : Module} (h : ofTokens ts = .ok m) :
    ∃ ls us rest, ts = ls ++ (us ++ rest) ∧ Lines ls ∧ Statements m.statements us ∧
      ∀ t ∈ rest.head?, t.kind = .eof := by
  have hstop : (Cursor.ofTokens ts).stop.kind = .eof := Cursor.stopOf_kind ts
  obtain ⟨ls, hls, hd, hlines⟩ := reads_skipLines (.ofTokens ts) hstop () _ rfl
  obtain ⟨us, rest, hus, hss, hrest⟩ :=
    (ofTokens_eq_ok_iff.1 h).statements (Nested.sound_within _) (hd ▸ hstop)
  exact ⟨ls, us, rest, hls.trans (by rw [hus]), hlines, hss, hrest⟩

end WrenAnalysis
