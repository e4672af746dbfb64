/-
# Trees are grouped and have few levels

Every production gives nodes that are grouped, with at most four levels more than the
constructs one level further in, and an expression that is read with operators of some
precedence is followed by an operator that binds less tightly or by none.  So the statements
of a module have at most four levels for each one that may be nested
(`Module.fits_ofTokens`).
-/

import WrenAnalysis.Proofs.Syntax.Rounds
import WrenAnalysis.Proofs.Syntax.Shape

namespace WrenAnalysis

namespace Parser

variable {α β σ : Type}

/-- If the parser ends well from `c`, its value and the cursor behind it go by `Q`. -/
def Ensures (p : Parser α) (c : Cursor) (Q : α → Cursor → Prop) : Prop :=
  ∀ a d, p c = .ok (a, d) → Q a d

variable {p : Parser α} {F : α → Parser β} {A B : Parser β} {c : Cursor} {k : Kind}
  {P : α → Cursor → Prop} {Q : β → Cursor → Prop}

/-- A weaker condition is ensured as well. -/
theorem Ensures.mono {Q' : β → Cursor → Prop} (h : A.Ensures c Q) (hQ : ∀ b d, Q b d → Q' b d) :
    A.Ensures c Q' := fun b d hb => hQ b d (h b d hb)

/-- A value ensures what holds of it where it is given. -/
theorem ensures_pure {b : β} (h : Q b c) : (pure b : Parser β).Ensures c Q := by
  intro b' d hb
  cases hb
  exact h

/-- A parser that refuses everything ensures anything. -/
theorem ensures_reject (e : Expectation) : (reject e : Parser β).Ensures c Q := by
  intro b d hb
  cases hb

/-- What the first parser ensures is what the second goes by. -/
theorem ensures_bind (hp : p.Ensures c P) (hF : ∀ a d, P a d → (F a).Ensures d Q) :
    (p >>= F).Ensures c Q := by
  intro b e hb
  obtain ⟨a, d, ha, hb⟩ := bind_eq_ok_iff.1 hb
  exact hF a d (hp a d ha) b e hb

/-- Whatever the first parser comes to. -/
theorem ensures_behind (hF : ∀ a d, (F a).Ensures d Q) : (p >>= F).Ensures c Q :=
  ensures_bind (fun _ _ _ => trivial) fun a d _ => hF a d

/-- A parser whose value is only dressed. -/
theorem ensures_map {f : α → β} (hp : p.Ensures c fun a d => Q (f a) d) :
    (p >>= fun a => pure (f a)).Ensures c Q := ensures_bind hp fun _ _ h => ensures_pure h

/-- A look at the kind of the token leaves the cursor where it is. -/
theorem ensures_kind {F : Kind → Parser β} (h : (F c.current.kind).Ensures c Q) :
    (kind >>= F).Ensures c Q := fun b e hb => h b e hb

/-- A look at the kind of the second token leaves the cursor where it is. -/
theorem ensures_secondKind {F : Kind → Parser β} (h : (F c.second.kind).Ensures c Q) :
    (secondKind >>= F).Ensures c Q := fun b e hb => h b e hb

/-- The token that is taken is the current one. -/
theorem ensures_take {F : Token → Parser β} (h : (F c.current).Ensures c.advance Q) :
    (take >>= F).Ensures c Q := fun b e hb => h b e hb

/-- Either way of a choice ensures what is wanted of both. -/
theorem ensures_ite {P : Prop} [Decidable P] (hA : P → A.Ensures c Q) (hB : ¬ P → B.Ensures c Q) :
    (if P then A else B).Ensures c Q := by
  split
  · next h => exact hA h
  · next h => exact hB h

/-- A choice by what some parser finds. -/
theorem ensures_either {p : Parser Bool} (hA : ∀ d, A.Ensures d Q) (hB : ∀ d, B.Ensures d Q) :
    (p >>= fun b => if b = true then A else B).Ensures c Q :=
  ensures_behind fun _ d => ensures_ite (fun _ => hA d) fun _ => hB d

/-- A part that is there behind a token of kind `k`, and else is missing. -/
theorem ensures_optional {A : Parser α} {P : α → Prop} {J : Option α → Parser β}
    (hA : ∀ d, A.Ensures d fun a _ => P a)
    (hJ : ∀ o d, (∀ a ∈ o, P a) → (J o).Ensures d Q) :
    (accept k >>= fun b => if b = true then some <$> A >>= J else pure none >>= J).Ensures c Q := by
  refine ensures_either (fun d => ?_) fun d => hJ none d nofun
  refine ensures_bind (ensures_map (Q := fun o _ => ∀ a ∈ o, P a) ?_) fun o e => hJ o e
  refine (hA d).mono fun a _ ha a' ha' => ?_
  cases ha'
  exact ha

/-- What holds before the first round and behind each round holds behind the last. -/
theorem ensures_iterate {step : σ → Parser (Round σ β)} {motive : σ → Cursor → Prop}
    (hstep : ∀ s c, motive s c → (step s).Ensures c fun r d =>
      match r with
      | .again s' => motive s' d
      | .done b => Q b d) {s : σ} (hs : motive s c) : (iterate step s).Ensures c Q := by
  intro b e h
  refine iterate_induction (motive := fun s c => motive s c → Q b e) h
    (fun s c hdone hs => hstep s c hs _ e hdone) (fun s c s' d hagain _ ih hs => ?_) hs
  exact ih (hstep s c hs _ d hagain)

/-- A repetition that collects what its rounds find. -/
theorem ensures_collect {A : Type} {P : A → Prop} {step : List A → Parser (Round (List A) (List A))}
    (hstep : ∀ items c, (step items).Ensures c fun r _ =>
      ∃ more, (r = .again (items ++ more) ∨ r = .done (items ++ more)) ∧ ∀ a ∈ more, P a) :
    (iterate step []).Ensures c fun items _ => ∀ a ∈ items, P a := by
  refine ensures_iterate (motive := fun items _ => ∀ a ∈ items, P a)
    (fun items c hitems => ?_) nofun
  refine (hstep items c).mono ?_
  rintro _ d ⟨more, rfl | rfl, hmore⟩
  · exact fun a ha => (List.mem_append.1 ha).elim (hitems a) (hmore a)
  · exact fun a ha => (List.mem_append.1 ha).elim (hitems a) (hmore a)

end Parser

open WrenAnalysis.Parser

/-! ### Blocks and lists -/

/-- The next token is no operator that binds at least so tightly. -/
def Cursor.Looser (c : Cursor) (least : Nat) : Prop :=
  ∀ p, c.current.kind.precedence = some p → p < least

/-- The constructs have at most so many levels. -/
structure Nested.Fitting (inner : Nested) (levels : Nat) : Prop where
  definition : ∀ c, inner.definition.Ensures c fun s _ => Fits levels (.stmt s)
  branch : ∀ c, inner.branch.Ensures c fun s _ => Fits levels (.stmt s)
  expression : ∀ c, inner.expression.Ensures c fun e _ => Fits levels (.expr e)
  conditional : ∀ c, inner.conditional.Ensures c fun e _ =>
    Fits levels (.expr e) ∧ e.isAssign = false
  operand : ∀ least c, (inner.operand least).Ensures c fun e d =>
    Fits levels (.expr e) ∧ e.BindsAtLeast least ∧ d.Looser least
  unary : ∀ c, inner.unary.Ensures c fun e _ => Fits levels (.expr e) ∧ e.isTight = true

namespace Grammar

variable {inner : Nested} {levels : Nat}

/-- The statements of a block are one level further in. -/
theorem fits_blockBody (h : inner.Fitting levels) (c : Cursor) :
    (blockBody inner).Ensures c fun ss _ => ∀ s ∈ ss, Fits levels (.stmt s) := by
  refine ensures_collect fun body c => ensures_behind fun _ d => ?_
  refine ensures_either (fun d => ensures_pure ⟨[], by simp, nofun⟩) fun d => ?_
  refine ensures_either (fun d => ensures_reject _) fun d => ?_
  refine ensures_kind (ensures_ite (fun _ => ?_) fun _ => ?_)
  · exact ensures_behind fun _ d => ensures_pure ⟨[], by simp, nofun⟩
  · refine ensures_bind (h.definition d) fun s d hs => ensures_behind fun _ d => ?_
    exact ensures_pure ⟨[s], .inl rfl, by simpa using hs⟩

/-- Arguments are one level further in. -/
theorem fits_argumentsUntil (h : inner.Fitting levels) (s : Symbol) (e : Expectation) (c : Cursor) :
    (argumentsUntil inner s e).Ensures c fun es _ => ∀ e ∈ es, Fits levels (.expr e) := by
  refine ensures_collect fun arguments c => ensures_behind fun _ d => ?_
  refine ensures_either (fun d => ensures_pure ⟨[], by simp, nofun⟩) fun d => ?_
  refine ensures_bind (h.expression d) fun a d ha => ensures_behind fun _ d => ?_
  refine ensures_either (fun d => ?_) fun d => ensures_behind fun _ d => ?_
  · exact ensures_pure ⟨[a], .inl rfl, by simpa using ha⟩
  · exact ensures_pure ⟨[a], .inr rfl, by simpa using ha⟩

/-- The keys and values of a map are one level further in. -/
theorem fits_mapEntries (h : inner.Fitting levels) (c : Cursor) :
    (mapEntries inner).Ensures c fun es _ =>
      ∀ e ∈ es, Fits levels (.expr e.key) ∧ Fits levels (.expr e.value) := by
  refine ensures_collect fun entries c => ensures_behind fun _ d => ?_
  refine ensures_either (fun d => ensures_pure ⟨[], by simp, nofun⟩) fun d => ?_
  refine ensures_bind (h.expression d) fun key d hkey => ensures_behind fun _ d => ?_
  refine ensures_behind fun _ d => ensures_behind fun _ d => ?_
  refine ensures_bind (h.expression d) fun value d hvalue => ensures_behind fun _ d => ?_
  refine ensures_either (fun d => ?_) fun d => ensures_behind fun _ d => ?_
  · exact ensures_pure ⟨[.mk key value], .inl rfl,
      by simpa [Entry.key, Entry.value] using ⟨hkey, hvalue⟩⟩
  · exact ensures_pure ⟨[.mk key value], .inr rfl,
      by simpa [Entry.key, Entry.value] using ⟨hkey, hvalue⟩⟩

/-- A block is one level above its statements. -/
theorem fits_block {ps : List Token} {ss : List Stmt} (h : ∀ s ∈ ss, Fits levels (.stmt s)) :
    Fits (levels + 1) (.block (.mk ps ss)) :=
  .mk trivial nofun (List.forall_mem_map.2 h)

/-- A block behind a call is one level above its statements. -/
theorem fits_blockArgument (h : inner.Fitting levels) (c : Cursor) :
    (blockArgument inner).Ensures c fun b _ => Fits (levels + 1) (.block b) := by
  refine ensures_either (fun d => ?_) fun d => ensures_either (fun d => ?_) fun d => ?_
  · exact ensures_map ((fits_blockBody h d).mono fun ss _ hss => fits_block hss)
  · exact ensures_behind fun ps d =>
      ensures_map ((fits_blockBody h d).mono fun ss _ hss => fits_block hss)
  · exact ensures_map ((fits_blockBody h d).mono fun ss _ hss => fits_block hss)

/-! ### Expressions -/

/-- What a call is made with has few levels. -/
def FitsTail (levels : Nat) (tail : Option (List Expr) × Option Block) : Prop :=
  ∀ y ∈ Node.ofTail tail.1 tail.2, Fits levels y

/-- What a name is called with has a level of its own at most. -/
theorem fits_callTail (h : inner.Fitting levels) (c : Cursor) :
    (callTail inner).Ensures c fun tail _ => FitsTail (levels + 1) tail := by
  refine ensures_optional (fun d => fits_argumentsUntil h _ _ d) fun arguments d harguments => ?_
  refine ensures_optional (fun d => fits_blockArgument h d) fun block d hblock => ensures_pure ?_
  intro y hy
  rcases List.mem_append.1 hy with hy | hy
  · obtain ⟨e, he, rfl⟩ := List.mem_map.1 hy
    cases arguments with
    | none => cases he
    | some es => exact (harguments es rfl e he).mono (Nat.le_succ _)
  · obtain ⟨b, hb, rfl⟩ := List.mem_map.1 hy
    exact hblock b (Option.mem_toList.1 hb)

/-- A postfix expression with few levels. -/
def FitsPostfix (levels : Nat) (e : Expr) : Prop := Fits (levels + 2) (.expr e) ∧ e.isPostfix = true

/-- A call of `super` is one level above what it is made with. -/
theorem fits_superCall (h : inner.Fitting levels) (c : Cursor) :
    (superCall inner).Ensures c fun e _ => FitsPostfix levels e := by
  refine ensures_behind fun keyword d => ?_
  refine ensures_optional (P := fun _ => True) (fun d _ _ _ => trivial) fun name d _ => ?_
  exact ensures_map ((fits_callTail h d).mono fun tail _ htail => ⟨.mk trivial nofun htail, rfl⟩)

/-- An expression without parts. -/
theorem fits_leaf {e : Expr} (hgrouped : Grouped (.expr e)) (hlink : (Node.expr e).link = none)
    (hparts : (Node.expr e).parts = []) (he : e.isPostfix = true) : FitsPostfix levels e :=
  ⟨.mk hgrouped (by simp [hlink]) (by simp [hparts]), he⟩

/-- A name is one level above what it is called with. -/
theorem fits_named (h : inner.Fitting levels) (c : Cursor) :
    (named inner).Ensures c fun e _ => FitsPostfix levels e := by
  refine ensures_behind fun name d => ?_
  split
  · exact ensures_pure (fits_leaf trivial rfl rfl rfl)
  · exact ensures_pure (fits_leaf trivial rfl rfl rfl)
  · exact ensures_map ((fits_callTail h d).mono fun tail _ htail => ⟨.mk nofun nofun htail, rfl⟩)

/-- A group is one level above its expression. -/
theorem fits_group (h : inner.Fitting levels) (c : Cursor) :
    (group inner).Ensures c fun e _ => FitsPostfix levels e := by
  refine ensures_behind fun paren d => ensures_behind fun _ d => ?_
  refine ensures_bind (h.expression d) fun e d he => ?_
  refine ensures_behind fun _ d => ensures_behind fun closing d => ?_
  refine ensures_pure ⟨.mk trivial nofun ?_, rfl⟩
  exact List.forall_mem_singleton.2 (he.mono (by omega))

/-- A token that is an expression by itself. -/
theorem fits_literal (make : Token → Expr) (hmake : ∀ t, FitsPostfix levels (make t))
    (c : Cursor) : (make <$> take).Ensures c fun e _ => FitsPostfix levels e :=
  ensures_take (ensures_pure (hmake c.current))

/-- A primary has two levels more than what stands in it. -/
theorem fits_primary (h : inner.Fitting levels) (c : Cursor) :
    (primary inner).Ensures c fun e _ => FitsPostfix levels e := by
  refine ensures_kind ?_
  split
  · exact fits_literal .null (fun _ => fits_leaf trivial rfl rfl rfl) c
  · exact fits_literal .bool (fun _ => fits_leaf trivial rfl rfl rfl) c
  · exact fits_literal .bool (fun _ => fits_leaf trivial rfl rfl rfl) c
  · exact fits_literal .num (fun _ => fits_leaf trivial rfl rfl rfl) c
  · exact fits_literal .str (fun _ => fits_leaf trivial rfl rfl rfl) c
  · exact fits_literal .thisValue (fun _ => fits_leaf trivial rfl rfl rfl) c
  · exact fits_superCall h c
  · exact fits_named h c
  · exact fits_group h c
  · -- a list
    refine ensures_behind fun bracket d => ensures_map ?_
    refine (fits_argumentsUntil h _ _ d).mono fun es _ hes => ⟨.mk trivial nofun ?_, rfl⟩
    exact List.forall_mem_map.2 fun e he => (hes e he).mono (by omega)
  · -- a map
    refine ensures_behind fun brace d => ensures_map ?_
    refine (fits_mapEntries h d).mono fun es _ hes => ⟨.mk trivial nofun fun y hy => ?_, rfl⟩
    obtain ⟨e, he, hy⟩ := List.mem_flatMap.1 hy
    obtain ⟨hkey, hvalue⟩ := hes e he
    rcases List.mem_cons.1 hy with rfl | hy
    · exact hkey.mono (by omega)
    · exact List.mem_singleton.1 hy ▸ hvalue.mono (by omega)
  · exact ensures_reject _

/-- Calls and subscripts go on one primary, and each has what it is made with below it. -/
theorem fits_postfixed (h : inner.Fitting levels) (c : Cursor) :
    (postfixed inner).Ensures c fun e _ => FitsPostfix levels e := by
  refine ensures_bind (fits_primary h c) fun first d hfirst => ?_
  refine ensures_iterate (motive := fun e _ => FitsPostfix levels e) (fun e c he => ?_) hfirst
  refine ensures_kind ?_
  have hlink : ∀ y ∈ some (Node.expr e), Fits (levels + 2) y := by
    rintro y ⟨⟩
    exact he.1
  split
  · -- a call
    refine ensures_behind fun dot d => ensures_behind fun _ d => ensures_behind fun name d => ?_
    refine ensures_bind (fits_callTail h d) fun tail d htail => ?_
    refine ensures_pure ⟨.mk ?_ hlink htail, rfl⟩
    rintro e' ⟨⟩
    exact he.2
  · -- a subscript
    refine ensures_behind fun bracket d => ?_
    refine ensures_bind (fits_argumentsUntil h _ _ d) fun es d hes => ?_
    refine ensures_pure ⟨.mk he.2 hlink ?_, rfl⟩
    exact List.forall_mem_map.2 fun e he => (hes e he).mono (by omega)
  · exact ensures_either (fun d => ensures_pure he) fun d => ensures_pure he
  · exact ensures_pure he

/-- An operand has as many levels as the constructs it is made of allow. -/
theorem fits_unary (h : inner.Fitting levels) (c : Cursor) :
    (unary inner).Ensures c fun e _ => Fits (levels + 2) (.expr e) ∧ e.isTight = true := by
  have hoperator : ∀ c : Cursor,
      (do let operator ← take; return Expr.unary operator (← inner.unary) : Parser Expr).Ensures c
        fun e _ => Fits (levels + 2) (.expr e) ∧ e.isTight = true := by
    refine fun c => ensures_behind fun operator d => ensures_map ?_
    refine (h.unary d).mono fun e _ he => ⟨.mk he.2 nofun ?_, rfl⟩
    exact List.forall_mem_singleton.2 (he.1.mono (by omega))
  refine ensures_kind ?_
  split
  · exact hoperator c
  · exact hoperator c
  · exact hoperator c
  · exact (fits_postfixed h c).mono fun e _ he => ⟨he.1, Expr.isTight_of_isPostfix he.2⟩

/-- The operators of one loop never get tighter, so each of them wants no more of its left
operand than the one before it gives. -/
theorem fits_binary (h : inner.Fitting levels) (least : Nat) (c : Cursor) :
    (binary inner least).Ensures c fun e d =>
      Fits (levels + 2) (.expr e) ∧ e.BindsAtLeast least ∧ d.Looser least := by
  refine ensures_bind (fits_unary h c) fun first d hfirst => ?_
  refine ensures_iterate
    (motive := fun left c => Fits (levels + 2) (.expr left) ∧ left.BindsAtLeast least ∧
      ∀ p, c.current.kind.precedence = some p → left.BindsAtLeast p)
    (fun left c hleft => ?_) ⟨hfirst.1, .tight hfirst.2, fun _ _ => .tight hfirst.2⟩
  obtain ⟨hfits, hleast, hnext⟩ := hleft
  refine ensures_kind ?_
  split
  · next hp => exact ensures_pure ⟨hfits, hleast, fun p hp' => nomatch hp.symm.trans hp'⟩
  · next p hp =>
    refine ensures_ite (fun hlt => ?_) fun hge => ?_
    · refine ensures_pure ⟨hfits, hleast, fun p' hp' => ?_⟩
      cases hp.symm.trans hp'
      exact hlt
    · refine ensures_take (ensures_behind fun _ d => ?_)
      refine ensures_bind (h.operand (p + 1) d) fun right d hright => ?_
      obtain ⟨hfits', hbinds, hlooser⟩ := hright
      refine ensures_pure ⟨.mk ⟨p, hp, hnext p hp, hbinds⟩ ?_ ?_, .binary hp (by omega), fun p' hp' => ?_⟩
      · rintro y ⟨⟩
        exact hfits
      · exact List.forall_mem_singleton.2 (hfits'.mono (by omega))
      · exact .binary hp (Nat.le_of_lt_succ (hlooser p' hp'))

/-- A choice is one level above the operands that it chooses from. -/
theorem fits_conditional (h : inner.Fitting levels) (c : Cursor) :
    (conditional inner).Ensures c fun e _ => Fits (levels + 3) (.expr e) ∧ e.isAssign = false := by
  refine ensures_bind (fits_binary h 1 c) fun condition d hcondition => ?_
  have hchoice := hcondition.2.1.isChoice
  refine ensures_either (fun d => ?_) fun d => ?_
  · refine ensures_behind fun _ d => ?_
    refine ensures_bind (h.conditional d) fun a d ha => ?_
    -- newlines, a colon and newlines again
    refine ensures_behind fun _ d => ensures_behind fun colon d => ensures_behind fun _ d => ?_
    refine ensures_map ?_
    refine (h.conditional d).mono fun b _ hb => ⟨.mk ⟨hchoice, ha.2, hb.2⟩ nofun ?_, rfl⟩
    refine List.forall_mem_cons.2 ⟨hcondition.1, List.forall_mem_cons.2 ⟨ha.1.mono (by omega), ?_⟩⟩
    exact List.forall_mem_singleton.2 (hb.1.mono (by omega))
  · exact ensures_pure ⟨hcondition.1.mono (by omega), Expr.isAssign_of_isChoice hchoice⟩

/-- What is assigned to has no parts but the expression in front of the equals sign. -/
theorem parts_of_target? {e value : Expr} {target : Target} (h : e.target? = some target) :
    ∀ y ∈ (Node.expr (.assign target value)).parts, y = .expr e ∨ y = .expr value := by
  cases Expr.standsFor_of_target? h with
  | name =>
    unfold Target.ofName
    split <;> simp [Node.parts]
  | _ => simp [Node.parts]

/-- An assignment is one level above its sides. -/
theorem fits_assignment (h : inner.Fitting levels) (c : Cursor) :
    (assignment inner).Ensures c fun e _ => Fits (levels + 4) (.expr e) := by
  refine ensures_bind (fits_conditional h c) fun e d he => ensures_kind ?_
  refine ensures_ite (fun _ => ?_) fun _ => ensures_pure (he.1.mono (by omega))
  split
  · exact ensures_reject _
  · next target htarget =>
    refine ensures_behind fun _ d => ensures_behind fun _ d => ensures_map ?_
    refine (h.expression d).mono fun value _ hvalue => .mk trivial nofun fun y hy => ?_
    rcases parts_of_target? htarget y hy with rfl | rfl
    · exact he.1
    · exact hvalue.mono (by omega)

/-! ### Statements -/

/-- A statement has parts one level further in only. -/
theorem fits_stmt {s : Stmt} (h : ∀ y ∈ (Node.stmt s).parts, Fits levels y) :
    Fits (levels + 1) (.stmt s) := .mk (by cases s <;> trivial) nofun h

/-- A condition is one level further in. -/
theorem fits_condition (h : inner.Fitting levels) (keyword : Keyword) (c : Cursor) :
    (condition inner keyword).Ensures c fun e _ => Fits levels (.expr e) := by
  refine ensures_behind fun opening d => ensures_behind fun _ d => ?_
  refine ensures_bind (h.expression d) fun e d he => ?_
  refine ensures_behind fun _ d => ensures_behind fun closing d => ?_
  exact ensures_pure he

/-- An `if` is one level above its condition and its branches. -/
theorem fits_ifElse (h : inner.Fitting levels) (c : Cursor) :
    (ifElse inner).Ensures c fun s _ => Fits (levels + 1) (.stmt s) := by
  refine ensures_behind fun keyword d => ?_
  refine ensures_bind (fits_condition h _ d) fun e d he => ?_
  refine ensures_bind (h.branch d) fun s d hs => ?_
  refine ensures_behind fun _ d => ?_
  refine ensures_either (fun d => ensures_map ?_) fun d => ensures_pure ?_
  · refine (h.branch d).mono fun s' _ hs' => fits_stmt ?_
    simpa [Node.parts] using ⟨he, hs, hs'⟩
  · exact fits_stmt (by simpa [Node.parts] using ⟨he, hs⟩)

/-- A `while` is one level above its condition and its body. -/
theorem fits_whileLoop (h : inner.Fitting levels) (c : Cursor) :
    (whileLoop inner).Ensures c fun s _ => Fits (levels + 1) (.stmt s) := by
  refine ensures_behind fun keyword d => ?_
  refine ensures_bind (fits_condition h _ d) fun e d he => ?_
  refine ensures_map ((h.branch d).mono fun s _ hs => fits_stmt ?_)
  simpa [Node.parts] using ⟨he, hs⟩

/-- A `for` is one level above what it goes through and its body. -/
theorem fits_forLoop (h : inner.Fitting levels) (c : Cursor) :
    (forLoop inner).Ensures c fun s _ => Fits (levels + 1) (.stmt s) := by
  refine ensures_behind fun keyword d => ensures_behind fun opening d => ?_
  refine ensures_behind fun _ d => ensures_behind fun name d => ?_
  refine ensures_behind fun inWord d => ensures_behind fun _ d => ?_
  refine ensures_bind (h.expression d) fun e d he => ?_
  refine ensures_behind fun _ d => ensures_behind fun closing d => ?_
  refine ensures_map ((h.branch d).mono fun s _ hs => fits_stmt ?_)
  simpa [Node.parts] using ⟨he, hs⟩

/-- A `return` is one level above its value. -/
theorem fits_returning (h : inner.Fitting levels) (c : Cursor) :
    (returning inner).Ensures c fun s _ => Fits (levels + 1) (.stmt s) := by
  refine ensures_behind fun keyword d => ensures_kind ?_
  have hnothing : Fits (levels + 1) (.stmt (.returning keyword none)) := fits_stmt nofun
  split
  · exact ensures_pure hnothing
  · exact ensures_pure hnothing
  · exact ensures_pure hnothing
  · refine ensures_map ((h.expression d).mono fun e _ he => fits_stmt ?_)
    simpa [Node.parts] using he

/-- A statement is one level above its parts. -/
theorem fits_statement (h : inner.Fitting levels) (c : Cursor) :
    (statement inner).Ensures c fun s _ => Fits (levels + 1) (.stmt s) := by
  refine ensures_kind ?_
  split
  · exact fits_ifElse h c
  · exact fits_whileLoop h c
  · exact fits_forLoop h c
  · exact fits_returning h c
  · exact ensures_take (ensures_pure (fits_stmt nofun))
  · exact ensures_take (ensures_pure (fits_stmt nofun))
  · refine ensures_behind fun _ d => ensures_map ((fits_blockBody h d).mono fun ss _ hss => ?_)
    exact fits_stmt (List.forall_mem_map.2 hss)
  · refine ensures_map ((h.expression c).mono fun e _ he => fits_stmt ?_)
    simpa [Node.parts] using he

/-! ### Definitions -/

/-- A method is one level above its statements. -/
theorem fits_method (h : inner.Fitting levels) (c : Cursor) :
    (method inner).Ensures c fun m _ => Fits (levels + 1) (.method m) := by
  refine ensures_behind fun found d => ensures_behind fun head d => ?_
  refine ensures_either (fun d => ensures_map ?_) fun d => ensures_ite (fun _ => ?_) fun _ => ?_
  · exact (fits_blockBody h d).mono fun ss _ hss => .mk trivial nofun (List.forall_mem_map.2 hss)
  · exact ensures_pure (.mk trivial nofun nofun)
  · exact ensures_reject _

/-- The methods of a class are one level above their statements. -/
theorem fits_classBody (h : inner.Fitting levels) (c : Cursor) :
    (classBody inner).Ensures c fun ms _ => ∀ m ∈ ms, Fits (levels + 1) (.method m) := by
  refine ensures_collect fun methods c => ensures_behind fun _ d => ?_
  refine ensures_either (fun d => ensures_pure ⟨[], by simp, nofun⟩) fun d => ?_
  refine ensures_either (fun d => ensures_reject _) fun d => ensures_kind ?_
  refine ensures_ite (fun _ => ?_) fun _ => ?_
  · exact ensures_behind fun _ d => ensures_pure ⟨[], by simp, nofun⟩
  · refine ensures_bind (fits_method h d) fun m d hm => ensures_behind fun _ d => ?_
    exact ensures_pure ⟨[m], .inl rfl, by simpa using hm⟩

/-- A class is one level above its methods. -/
theorem fits_classDef (h : inner.Fitting levels) (isForeign : Bool) (c : Cursor) :
    (classDef inner isForeign).Ensures c fun s _ => Fits (levels + 2) (.stmt s) := by
  refine ensures_behind fun name d => ?_
  refine ensures_optional (P := fun _ => True) (fun d _ _ _ => trivial) fun parent d _ => ?_
  refine ensures_behind fun _ d => ensures_map ((fits_classBody h d).mono fun ms _ hms => ?_)
  exact fits_stmt (List.forall_mem_map.2 hms)

/-- An import is one level by itself. -/
theorem fits_importing (c : Cursor) : importing.Ensures c fun s _ => Fits 1 (.stmt s) := by
  refine ensures_behind fun path d => ensures_either (fun d => ?_) fun d => ?_
  · exact ensures_behind fun ns d => ensures_pure (fits_stmt nofun)
  · exact ensures_pure (fits_stmt nofun)

/-- A variable is one level above its value. -/
theorem fits_variableDef (h : inner.Fitting levels) (c : Cursor) :
    (variableDef inner).Ensures c fun s _ => Fits (levels + 1) (.stmt s) := by
  refine ensures_behind fun name d => ensures_either (fun d => ?_) fun d => ?_
  · refine ensures_behind fun _ d => ensures_map ((h.expression d).mono fun e _ he => fits_stmt ?_)
    simpa [Node.parts] using he
  · exact ensures_pure (fits_stmt nofun)

/-- A definition has two levels more than what stands in it. -/
theorem fits_definition (h : inner.Fitting levels) (c : Cursor) :
    (definition inner).Ensures c fun s _ => Fits (levels + 2) (.stmt s) := by
  have hstatement : (statement inner).Ensures c fun s _ => Fits (levels + 2) (.stmt s) :=
    (fits_statement h c).mono fun s _ hs => hs.mono (Nat.le_succ _)
  refine ensures_kind ?_
  split
  · exact ensures_behind fun _ d => fits_classDef h false d
  · refine ensures_secondKind (ensures_ite (fun _ => ?_) fun _ => hstatement)
    exact ensures_behind fun _ d => ensures_behind fun _ d => fits_classDef h true d
  · exact ensures_behind fun _ d => (fits_importing d).mono fun s _ hs => hs.mono (by omega)
  · exact ensures_behind fun _ d => (fits_variableDef h d).mono fun s _ hs => hs.mono (by omega)
  · exact hstatement

end Grammar

open Grammar in
/-- The constructs of the language have at most four levels for each one they may nest. -/
theorem Nested.fitting_within (depth : Nat) : (Nested.within depth).Fitting (4 * depth) := by
  induction depth with
  | zero =>
    exact ⟨fun _ => ensures_reject _, fun _ => ensures_reject _, fun _ => ensures_reject _,
      fun _ => ensures_reject _, fun _ _ => ensures_reject _, fun _ => ensures_reject _⟩
  | succ depth ih =>
    refine ⟨fun c => ?_, fun c => ?_, fun c => ?_, fun c => ?_, fun least c => ?_, fun c => ?_⟩
    · exact (fits_definition ih c).mono fun s _ hs => hs.mono (by omega)
    · exact (fits_statement ih c).mono fun s _ hs => hs.mono (by omega)
    · exact fits_assignment ih c
    · exact (fits_conditional ih c).mono fun e _ he => ⟨he.1.mono (by omega), he.2⟩
    · exact (fits_binary ih least c).mono fun e _ he => ⟨he.1.mono (by omega), he.2⟩
    · exact (fits_unary ih c).mono fun e _ he => ⟨he.1.mono (by omega), he.2⟩

/-! ### Modules -/

/-- The statements of a module have the levels of its definitions. -/
theorem Grammar.Rounds.fits {inner : Nested} {levels : Nat} {c : Cursor} {ss : List Stmt}
    (h : Rounds inner c ss) (hinner : inner.Fitting levels) :
    ∀ s ∈ ss, Fits levels (.stmt s) := by
  induction h with
  | done => exact nofun
  | attributed _ _ _ ih => exact ih
  | definition _ _ hdef _ _ _ _ ih =>
    exact List.forall_mem_cons.2 ⟨hinner.definition _ _ _ hdef, ih⟩

/-- The statements of a module have at most four levels for each one that may be nested. -/
theorem Module.fits_ofTokens {ts : List Token} {m : Module} (h : ofTokens ts = .ok m) :
    ∀ s ∈ m.statements, Fits (4 * Grammar.maxNesting) (.stmt s) :=
  (ofTokens_eq_ok_iff.1 h).fits (Nested.fitting_within _)

end WrenAnalysis
