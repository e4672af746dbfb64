/-
# The grammar, side by side

Every production of the grammar mirrors itself in every pairing, if the constructs one
level further in do.  So the constructs of the language do, as deep as they may nest
(`Pairing.nests_within`).
-/

import WrenAnalysis.Proofs.Syntax.Pairing
import WrenAnalysis.Proofs.Syntax.Relabel
import WrenAnalysis.Syntax.Module

namespace WrenAnalysis

open WrenAnalysis.Parser

/-! ### What starts no construct -/

/-- Every construct refuses tokens of kind `k`. -/
structure Nested.Refuses (k : Kind) (inner : Nested) : Prop where
  definition : Parser.Refuses k inner.definition
  branch : Parser.Refuses k inner.branch
  expression : Parser.Refuses k inner.expression
  conditional : Parser.Refuses k inner.conditional
  operand : ∀ least, Parser.Refuses k (inner.operand least)
  unary : Parser.Refuses k inner.unary

/-- The end of the text, and what only continues a construct. -/
def Kind.StartsNothing (k : Kind) : Prop := k ∈ [.eof, .symbol .dot, .keyword .else_]

namespace Grammar

variable {inner : Nested} {k : Kind}

/-- No primary starts at the end or with what goes on with another construct. -/
theorem refuses_primary (hk : k.StartsNothing) : Refuses k (primary inner) := by
  simp only [Kind.StartsNothing, List.mem_cons, List.not_mem_nil, or_false] at hk
  rcases hk with rfl | rfl | rfl <;> exact refuses_kind (refuses_reject _ _)

/-- No call starts without its primary. -/
theorem refuses_postfixed (hk : k.StartsNothing) : Refuses k (postfixed inner) :=
  (refuses_primary hk).bind _

/-- No operand starts without an operator or a primary. -/
theorem refuses_unary (hk : k.StartsNothing) : Refuses k (unary inner) := by
  have hpostfixed : Refuses k (postfixed inner) := refuses_postfixed hk
  simp only [Kind.StartsNothing, List.mem_cons, List.not_mem_nil, or_false] at hk
  rcases hk with rfl | rfl | rfl <;> exact refuses_kind hpostfixed

/-- No operation starts without its first operand. -/
theorem refuses_binary (hk : k.StartsNothing) (least : Nat) : Refuses k (binary inner least) :=
  (refuses_unary hk).bind _

/-- No choice starts without its condition. -/
theorem refuses_conditional (hk : k.StartsNothing) : Refuses k (conditional inner) :=
  (refuses_binary hk 1).bind _

/-- No assignment starts without its left side. -/
theorem refuses_assignment (hk : k.StartsNothing) : Refuses k (assignment inner) :=
  (refuses_conditional hk).bind _

/-- No statement starts where none of its constructs does. -/
theorem refuses_statement (hk : k.StartsNothing) (h : inner.Refuses k) :
    Refuses k (statement inner) := by
  have hexpr : Refuses k (inner.expression >>= fun e => pure (Stmt.expr e)) := h.expression.bind _
  simp only [Kind.StartsNothing, List.mem_cons, List.not_mem_nil, or_false] at hk
  rcases hk with rfl | rfl | rfl <;> exact refuses_kind hexpr

/-- No definition starts where no statement does. -/
theorem refuses_definition (hk : k.StartsNothing) (h : inner.Refuses k) :
    Refuses k (definition inner) := by
  have hstatement := refuses_statement hk h
  simp only [Kind.StartsNothing, List.mem_cons, List.not_mem_nil, or_false] at hk
  rcases hk with rfl | rfl | rfl <;> exact refuses_kind hstatement

end Grammar

/-- No construct of the language starts with such a token, as deep as it may nest. -/
theorem Nested.refuses_within {k : Kind} (hk : k.StartsNothing) (depth : Nat) :
    (Nested.within depth).Refuses k := by
  induction depth with
  | zero =>
    exact ⟨refuses_reject _ _, refuses_reject _ _, refuses_reject _ _, refuses_reject _ _,
      fun _ => refuses_reject _ _, refuses_reject _ _⟩
  | succ depth ih =>
    exact ⟨Grammar.refuses_definition hk ih, Grammar.refuses_statement hk ih,
      Grammar.refuses_assignment hk, Grammar.refuses_conditional hk, Grammar.refuses_binary hk,
      Grammar.refuses_unary hk⟩

/-! ### Blocks and lists -/

/-- The constructs one level further in are mirrored. -/
structure Pairing.Nests (K : Pairing) (inner inner' : Nested) : Prop where
  definition : K.Mirrors (Stmt.mapTokens K.relabel) inner.definition inner'.definition
  branch : K.Mirrors (Stmt.mapTokens K.relabel) inner.branch inner'.branch
  expression : K.Mirrors (Expr.mapTokens K.relabel) inner.expression inner'.expression
  conditional : K.Mirrors (Expr.mapTokens K.relabel) inner.conditional inner'.conditional
  operand : ∀ least,
    K.Mirrors (Expr.mapTokens K.relabel) (inner.operand least) (inner'.operand least)
  unary : K.Mirrors (Expr.mapTokens K.relabel) inner.unary inner'.unary
  hungry : inner.Refuses .eof

namespace Grammar

open Pairing

variable {K : Pairing} {inner inner' : Nested}

/-- Statements end side by side, but for newlines behind the end of the first list. -/
theorem triple_endOfStatement :
    K.Triple K.Beside id (fun _ => K.Ends) endOfStatement endOfStatement := by
  have hrefuse : ∀ k, K.Triple (K.At k) id (fun _ => K.Ends)
      (reject .newline : Parser Unit) (reject .newline) := fun k =>
    (triple_reject .newline).mono fun _ _ hc => hc.1
  have hstay : ∀ k, K.Triple (K.At k) id (fun _ => K.Ends) (pure ()) (pure ()) := fun k =>
    triple_pure rfl fun _ _ hc => .inl hc.1
  refine triple_kind (fun k => ?_) fun c c' hc _ => ⟨c'.skipLines, rfl, ?_⟩
  · cases k with
    | line => exact triple_skipLines.mono fun _ _ hc => hc.1
    | symbol s =>
      cases s with
      | rightBrace => exact hstay _
      | _ => exact hrefuse _
    | eof => exact hstay _
    | _ => exact hrefuse _
  · -- The first list ends here, and the second goes on behind newlines.
    have hends := K.skipLines hc.1
    rwa [Cursor.skipLines_of_kind hc.2] at hends

/-- Blocks are read side by side. -/
theorem mirrors_blockBody (h : K.Nests inner inner') :
    K.Mirrors (List.map (.mapTokens K.relabel)) (blockBody inner) (blockBody inner') := by
  refine mirrors_iterate_hungry (List.map (.mapTokens K.relabel)) (fun body => ?_)
    (fun body => ?_) []
  · refine triple_skipLines_bind ?_ (hungry_accept (hungry_unlessAtEnd _))
    refine triple_accept (by simp) (triple_done rfl) ?_
    refine triple_unlessAtEnd _ (triple_kindIf (by simp) ?_ ?_)
    · refine triple_bind (mirrors_skipAttribute.mono fun _ _ hc => hc.1) fun _ => ?_
      exact triple_pure rfl fun _ _ => .inl
    · refine triple_bind h.definition fun s => ?_
      refine triple_bind triple_endOfStatement fun _ => ?_
      exact triple_again (by simp)
  · exact hungry_skipLines (hungry_accept (hungry_unlessAtEnd _))

/-- Arguments are read side by side. -/
theorem mirrors_argumentsUntil (h : K.Nests inner inner') (close : Symbol) (e : Expectation) :
    K.Mirrors (List.map (.mapTokens K.relabel)) (argumentsUntil inner close e)
      (argumentsUntil inner' close e) := by
  refine mirrors_iterate (List.map (.mapTokens K.relabel)) (fun arguments => ?_) []
  refine triple_skipLines_bind ?_ (hungry_accept (h.hungry.expression.bind _))
  refine triple_accept (by simp) (triple_done rfl) ?_
  refine triple_bind h.expression fun e => ?_
  refine triple_skipLines_bind ?_ (hungry_accept ((hungry_symbol _ _).bind _))
  refine triple_accept (by simp) ?_ ?_
  · exact triple_again (by simp)
  · refine triple_bind (mirrors_expect _ (by simp)) fun closing => ?_
    exact triple_done (by simp)

/-- Map entries are read side by side. -/
theorem mirrors_mapEntries (h : K.Nests inner inner') :
    K.Mirrors (List.map (.mapTokens K.relabel)) (mapEntries inner) (mapEntries inner') := by
  refine mirrors_iterate (List.map (.mapTokens K.relabel)) (fun entries => ?_) []
  refine triple_skipLines_bind ?_ (hungry_accept (h.hungry.expression.bind _))
  refine triple_accept (by simp) (triple_done rfl) ?_
  refine triple_bind h.expression fun key => ?_
  refine triple_skipLines_bind ?_ ((hungry_symbol _ _).bind _)
  refine triple_bind (mirrors_expect _ (by simp)) fun colon => ?_
  refine triple_skipLines_bind ?_ (h.hungry.expression.bind _)
  refine triple_bind h.expression fun value => ?_
  refine triple_skipLines_bind ?_ (hungry_accept ((hungry_symbol _ _).bind _))
  refine triple_accept (by simp) ?_ ?_
  · exact triple_again (by simp [Entry.mapTokens])
  · refine triple_bind (mirrors_expect _ (by simp)) fun closing => ?_
    exact triple_done (by simp [Entry.mapTokens])

/-- Lists of names are read side by side. -/
theorem mirrors_namesUntil (close : Symbol) (e : Expectation) :
    K.Mirrors (List.map K.relabel) (namesUntil close e) (namesUntil close e) := by
  refine triple_skipLines_bind ?_ (hungry_accept (hungry_iterate ((hungry_name _).bind _)))
  refine triple_accept (by simp) (triple_value rfl) ?_
  refine mirrors_iterate_hungry (List.map K.relabel) (fun names => ?_)
    (fun names => (hungry_name _).bind _) []
  refine triple_bind (mirrors_name _) fun n => ?_
  refine triple_skipLines_bind ?_ (hungry_accept ((hungry_symbol _ _).bind _))
  refine triple_accept (by simp) ?_ ?_
  · refine triple_bind triple_skipLines fun _ => ?_
    exact triple_again (by simp)
  · refine triple_bind (mirrors_expect _ (by simp)) fun closing => ?_
    exact triple_done (by simp)

/-- Block parameters are read side by side. -/
theorem mirrors_blockParameters :
    K.Mirrors (List.map K.relabel) blockParameters blockParameters := by
  refine mirrors_iterate (List.map K.relabel) (fun names => ?_) []
  refine triple_bind (mirrors_name _) fun n => ?_
  refine triple_accept (by simp) ?_ ?_
  · exact triple_again (by simp)
  · refine triple_bind (mirrors_expect _ (by simp)) fun bar => ?_
    exact triple_done (by simp)

/-- Blocks behind calls are read side by side. -/
theorem mirrors_blockArgument (h : K.Nests inner inner') :
    K.Mirrors (.mapTokens K.relabel) (blockArgument inner) (blockArgument inner') := by
  refine triple_accept (by simp) ?_ (triple_accept (by simp) ?_ ?_)
  · refine triple_bind (mirrors_blockBody h) fun body => ?_
    exact triple_value (by simp [Block.mapTokens])
  · refine triple_bind mirrors_blockParameters fun parameters => ?_
    refine triple_bind (mirrors_blockBody h) fun body => ?_
    exact triple_value (by simp [Block.mapTokens])
  · refine triple_bind (mirrors_blockBody h) fun body => ?_
    exact triple_value (by simp [Block.mapTokens])

/-! ### Expressions -/

/-- What names are called with is read side by side. -/
theorem mirrors_callTail (h : K.Nests inner inner') :
    K.Mirrors (Prod.map (Option.map (List.map (.mapTokens K.relabel)))
      (Option.map (.mapTokens K.relabel))) (callTail inner) (callTail inner') := by
  refine triple_optional (by simp) (mirrors_argumentsUntil h _ _) fun arguments => ?_
  refine triple_optional (by simp) (mirrors_blockArgument h) fun block => ?_
  exact triple_value rfl

/-- Calls of `super` are read side by side. -/
theorem triple_superCall (h : K.Nests inner inner') :
    K.Triple (K.At (.keyword .super_)) (.mapTokens K.relabel) (fun _ => K.Beside)
      (superCall inner) (superCall inner') := by
  refine triple_bind (triple_take (by simp)) fun keyword => ?_
  refine triple_optional (by simp) (mirrors_name _) fun name => ?_
  refine triple_bind (mirrors_callTail h) fun tail => ?_
  exact triple_value (by simp [Expr.mapTokens])

/-- Names are read side by side, and are of one class. -/
theorem triple_named (h : K.Nests inner inner') :
    K.Triple (K.At .name) (.mapTokens K.relabel) (fun _ => K.Beside)
      (named inner) (named inner') := by
  refine triple_bind (triple_take (by simp)) fun name => ?_
  have hclass : (K.relabel name).nameClass = name.nameClass := by
    rw [Token.nameClass, K.relabel_text, Token.nameClass]
  rw [hclass]
  cases name.nameClass with
  | plain =>
    refine triple_bind (mirrors_callTail h) fun tail => ?_
    exact triple_value (by simp [Expr.mapTokens])
  | field => exact triple_value rfl
  | staticField => exact triple_value rfl

/-- Groups are read side by side. -/
theorem triple_group (h : K.Nests inner inner') :
    K.Triple (K.At (.symbol .leftParen)) (.mapTokens K.relabel) (fun _ => K.Beside)
      (group inner) (group inner') := by
  refine triple_bind (triple_take (by simp)) fun paren => ?_
  refine triple_skipLines_bind ?_ (h.hungry.expression.bind _)
  refine triple_bind h.expression fun e => ?_
  refine triple_skipLines_bind ?_ ((hungry_symbol _ _).bind _)
  refine triple_bind (mirrors_expect _ (by simp)) fun closing => ?_
  exact triple_value rfl

/-- A token that is an expression by itself. -/
theorem triple_literal {make : Token → Expr} {k : Kind} (hk : k ≠ .eof)
    (hmake : ∀ t, make (K.relabel t) = (make t).mapTokens K.relabel) :
    K.Triple (K.At k) (.mapTokens K.relabel) (fun _ => K.Beside) (make <$> take) (make <$> take) :=
  triple_map (triple_take hk) hmake fun _ _ _ hc => hc

/-- Primaries are read side by side. -/
theorem mirrors_primary (h : K.Nests inner inner') :
    K.Mirrors (.mapTokens K.relabel) (primary inner) (primary inner') := by
  have hrefuse : ∀ k, K.Triple (K.At k) (Expr.mapTokens K.relabel) (fun _ => K.Beside)
      (reject .expression) (reject .expression) := fun k =>
    (triple_reject .expression).mono fun _ _ hc => hc.1
  refine triple_kind_of_line rfl fun k => ?_
  cases k with
  | number => exact triple_literal (by simp) fun _ => rfl
  | string => exact triple_literal (by simp) fun _ => rfl
  | name => exact triple_named h
  | keyword w =>
    cases w with
    | null_ => exact triple_literal (by simp) fun _ => rfl
    | true_ => exact triple_literal (by simp) fun _ => rfl
    | false_ => exact triple_literal (by simp) fun _ => rfl
    | this_ => exact triple_literal (by simp) fun _ => rfl
    | super_ => exact triple_superCall h
    | _ => exact hrefuse _
  | symbol s =>
    cases s with
    | leftParen => exact triple_group h
    | leftBracket =>
      refine triple_bind (triple_take (by simp)) fun bracket => ?_
      refine triple_bind (mirrors_argumentsUntil h _ _) fun elements => ?_
      exact triple_value (by simp [Expr.mapTokens])
    | leftBrace =>
      refine triple_bind (triple_take (by simp)) fun brace => ?_
      refine triple_bind (mirrors_mapEntries h) fun entries => ?_
      exact triple_value (by simp [Expr.mapTokens])
    | _ => exact hrefuse _
  | _ => exact hrefuse _

/-- Calls and subscripts are read side by side. -/
theorem mirrors_postfixed (h : K.Nests inner inner') :
    K.Mirrors (.mapTokens K.relabel) (postfixed inner) (postfixed inner') := by
  refine triple_bind (mirrors_primary h) fun first => ?_
  refine mirrors_iterate _ (fun e => ?_) first
  have hdone : ∀ k, K.Triple (K.At k)
      (Round.map (Expr.mapTokens K.relabel) (Expr.mapTokens K.relabel)) (roundEnds K.Beside K)
      (pure (.done e)) (pure (.done (e.mapTokens K.relabel))) := fun k =>
    triple_pure rfl fun _ _ hc => hc.1
  refine triple_kind (fun k => ?_) fun c c' hc _ => ?_
  · cases k with
    | symbol s =>
      cases s with
      | dot =>
        refine triple_bind (triple_take (by simp)) fun dot => ?_
        refine triple_skipLines_bind ?_ ((hungry_name _).bind _)
        refine triple_bind (mirrors_name _) fun name => ?_
        refine triple_bind (mirrors_callTail h) fun tail => ?_
        exact triple_again (by simp [Expr.mapTokens])
      | leftBracket =>
        refine triple_bind (triple_take (by simp)) fun bracket => ?_
        refine triple_bind (mirrors_argumentsUntil h _ _) fun arguments => ?_
        exact triple_again (by simp [Expr.mapTokens])
      | _ => exact hdone _
    | line =>
      refine triple_bind ((mirrors_skipLinesBefore (by simp)).mono fun _ _ hc => hc.1) fun b => ?_
      cases b with
      | true => exact triple_again rfl
      | false => exact triple_done rfl
    | _ => exact hdone _
  · -- No call goes on behind the end of the first list.
    have hno := skipLinesBefore_of_atEnd hc (k := .symbol .dot) (by simp)
    exact ⟨c', bind_of_ok hno, hc.1⟩

/-- Operands are read side by side. -/
theorem mirrors_unary (h : K.Nests inner inner') :
    K.Mirrors (.mapTokens K.relabel) (unary inner) (unary inner') := by
  have hoperator : ∀ k, k ≠ .eof →
      K.Triple (K.At k) (Expr.mapTokens K.relabel) (fun _ => K.Beside)
        (take >>= fun operator => inner.unary >>= fun e => pure (Expr.unary operator e))
        (take >>= fun operator => inner'.unary >>= fun e => pure (Expr.unary operator e)) := by
    intro k hk
    refine triple_bind (triple_take hk) fun operator => ?_
    refine triple_bind h.unary fun e => ?_
    exact triple_value rfl
  have hoperand : ∀ k, K.Triple (K.At k) (.mapTokens K.relabel) (fun _ => K.Beside)
      (postfixed inner) (postfixed inner') := fun k =>
    (mirrors_postfixed h).mono fun _ _ hc => hc.1
  refine triple_kind_of_line rfl fun k => ?_
  cases k with
  | symbol s =>
    cases s with
    | minus => exact hoperator _ (by simp)
    | bang => exact hoperator _ (by simp)
    | tilde => exact hoperator _ (by simp)
    | _ => exact hoperand _
  | _ => exact hoperand _

/-- Operations are read side by side, for their operators bind alike. -/
theorem mirrors_binary (h : K.Nests inner inner') (least : Nat) :
    K.Mirrors (.mapTokens K.relabel) (binary inner least) (binary inner' least) := by
  refine triple_bind (mirrors_unary h) fun first => ?_
  refine mirrors_iterate _ (fun left => ?_) first
  refine triple_kind_of_line rfl fun k => ?_
  cases hp : k.precedence with
  | none => exact triple_pure rfl fun _ _ hc => hc.1
  | some p =>
    have hk : k ≠ .eof := by
      rintro rfl
      cases hp
    by_cases hlt : p < least
    · simp only [if_pos hlt]
      exact triple_pure rfl fun _ _ hc => hc.1
    · simp only [if_neg hlt]
      refine triple_bind (triple_take hk) fun operator => ?_
      refine triple_skipLines_bind ?_ ((h.hungry.operand (p + 1)).bind _)
      refine triple_bind (h.operand (p + 1)) fun right => ?_
      exact triple_again rfl

/-- Choices are read side by side. -/
theorem mirrors_conditional (h : K.Nests inner inner') :
    K.Mirrors (.mapTokens K.relabel) (conditional inner) (conditional inner') := by
  refine triple_bind (mirrors_binary h 1) fun condition => ?_
  refine triple_accept (by simp) ?_ (triple_value rfl)
  refine triple_skipLines_bind ?_ (h.hungry.conditional.bind _)
  refine triple_bind h.conditional fun thenBranch => ?_
  refine triple_skipLines_bind ?_ ((hungry_symbol _ _).bind _)
  refine triple_bind (mirrors_expect _ (by simp)) fun colon => ?_
  refine triple_skipLines_bind ?_ (h.hungry.conditional.bind _)
  refine triple_bind h.conditional fun elseBranch => ?_
  exact triple_value rfl

/-- Assignments are read side by side, and one side may be assigned to if the other may. -/
theorem mirrors_assignment (h : K.Nests inner inner') :
    K.Mirrors (.mapTokens K.relabel) (assignment inner) (assignment inner') := by
  refine triple_bind (mirrors_conditional h) fun e => ?_
  refine triple_kindIf (by simp) ?_ (triple_value rfl)
  rw [Expr.target?_mapTokens K.relabel_text]
  cases e.target? with
  | none => exact (triple_reject _).mono fun _ _ hc => hc.1
  | some target =>
    refine triple_bind (triple_take (by simp)) fun equals => ?_
    refine triple_skipLines_bind ?_ (h.hungry.expression.bind _)
    refine triple_bind h.expression fun value => ?_
    exact triple_value rfl

/-! ### Statements -/

/-- Conditions are read side by side. -/
theorem mirrors_condition (h : K.Nests inner inner') (keyword : Keyword) :
    K.Mirrors (.mapTokens K.relabel) (condition inner keyword) (condition inner' keyword) := by
  refine triple_bind (mirrors_expect _ (by simp)) fun opening => ?_
  refine triple_skipLines_bind ?_ (h.hungry.expression.bind _)
  refine triple_bind h.expression fun e => ?_
  refine triple_skipLines_bind ?_ ((hungry_symbol _ _).bind _)
  refine triple_bind (mirrors_expect _ (by simp)) fun closing => ?_
  exact triple_value rfl

/-- An `if` is read side by side, with its `else` or without. -/
theorem triple_ifElse (h : K.Nests inner inner') :
    K.Triple (K.At (.keyword .if_)) (.mapTokens K.relabel) (fun _ => K.Beside)
      (ifElse inner) (ifElse inner') := by
  refine triple_bind (triple_take (by simp)) fun keyword => ?_
  refine triple_bind (mirrors_condition h _) fun condition => ?_
  refine triple_bind h.branch fun thenBranch => ?_
  refine triple_bind (mirrors_skipLinesBefore (by simp)) fun _ => ?_
  refine triple_accept (by simp) ?_ (triple_value rfl)
  refine triple_bind h.branch fun elseBranch => ?_
  exact triple_value rfl

/-- A `while` is read side by side. -/
theorem triple_whileLoop (h : K.Nests inner inner') :
    K.Triple (K.At (.keyword .while_)) (.mapTokens K.relabel) (fun _ => K.Beside)
      (whileLoop inner) (whileLoop inner') := by
  refine triple_bind (triple_take (by simp)) fun keyword => ?_
  refine triple_bind (mirrors_condition h _) fun condition => ?_
  refine triple_bind h.branch fun body => ?_
  exact triple_value rfl

/-- A `for` is read side by side. -/
theorem triple_forLoop (h : K.Nests inner inner') :
    K.Triple (K.At (.keyword .for_)) (.mapTokens K.relabel) (fun _ => K.Beside)
      (forLoop inner) (forLoop inner') := by
  refine triple_bind (triple_take (by simp)) fun keyword => ?_
  refine triple_bind (mirrors_expect _ (by simp)) fun opening => ?_
  refine triple_skipLines_bind ?_ ((hungry_name _).bind _)
  refine triple_bind (mirrors_name _) fun name => ?_
  refine triple_bind (mirrors_expect _ (by simp)) fun inWord => ?_
  refine triple_skipLines_bind ?_ (h.hungry.expression.bind _)
  refine triple_bind h.expression fun iterator => ?_
  refine triple_skipLines_bind ?_ ((hungry_symbol _ _).bind _)
  refine triple_bind (mirrors_expect _ (by simp)) fun closing => ?_
  refine triple_bind h.branch fun body => ?_
  exact triple_value rfl

/-- A `return` is read side by side, with its value or without. -/
theorem triple_returning (h : K.Nests inner inner') :
    K.Triple (K.At (.keyword .return_)) (.mapTokens K.relabel) (fun _ => K.Beside)
      (returning inner) (returning inner') := by
  refine triple_bind (triple_take (by simp)) fun keyword => ?_
  refine triple_kind_of_line rfl fun k => ?_
  have hnone : ∀ k, K.Triple (K.At k) (Stmt.mapTokens K.relabel) (fun _ => K.Beside)
      (pure (.returning keyword none)) (pure (.returning (K.relabel keyword) none)) := fun k =>
    triple_pure rfl fun _ _ hc => hc.1
  have hsome : ∀ k, K.Triple (K.At k) (Stmt.mapTokens K.relabel) (fun _ => K.Beside)
      (inner.expression >>= fun e => pure (.returning keyword (some e)))
      (inner'.expression >>= fun e => pure (.returning (K.relabel keyword) (some e))) := fun k =>
    triple_bind (h.expression.mono fun _ _ hc => hc.1) fun _ => triple_value rfl
  cases k with
  | symbol s =>
    cases s with
    | rightBrace => exact hnone _
    | _ => exact hsome _
  | line => exact hnone _
  | eof => exact hnone _
  | _ => exact hsome _

/-- Statements are read side by side. -/
theorem mirrors_statement (h : K.Nests inner inner') :
    K.Mirrors (.mapTokens K.relabel) (statement inner) (statement inner') := by
  have hexpr : ∀ k, K.Triple (K.At k) (Stmt.mapTokens K.relabel) (fun _ => K.Beside)
      (inner.expression >>= fun e => pure (.expr e))
      (inner'.expression >>= fun e => pure (.expr e)) := fun k =>
    triple_bind (h.expression.mono fun _ _ hc => hc.1) fun _ => triple_value rfl
  refine triple_kind_of_line rfl fun k => ?_
  cases k with
  | keyword w =>
    cases w with
    | if_ => exact triple_ifElse h
    | while_ => exact triple_whileLoop h
    | for_ => exact triple_forLoop h
    | return_ => exact triple_returning h
    | break_ => exact triple_map (triple_take (by simp)) (fun _ => rfl) fun _ _ _ hc => hc
    | continue_ => exact triple_map (triple_take (by simp)) (fun _ => rfl) fun _ _ _ hc => hc
    | _ => exact hexpr _
  | symbol s =>
    cases s with
    | leftBrace =>
      refine triple_bind (triple_take (by simp)) fun brace => ?_
      refine triple_bind (mirrors_blockBody h) fun body => ?_
      exact triple_value (by simp [Stmt.mapTokens])
    | _ => exact hexpr _
  | _ => exact hexpr _

/-! ### Definitions -/

/-- Parameters of setters are read side by side. -/
theorem mirrors_setterValue : K.Mirrors K.relabel setterValue setterValue := by
  refine triple_bind (mirrors_expect _ (by simp)) fun opening => ?_
  refine triple_bind (mirrors_name _) fun value => ?_
  refine triple_bind (mirrors_expect _ (by simp)) fun closing => ?_
  exact triple_value rfl

/-- Parameter lists are read side by side. -/
theorem mirrors_parameters :
    K.Mirrors (Option.map (List.map K.relabel)) parameters parameters := by
  refine triple_accept (by simp) ?_ (triple_value rfl)
  refine triple_bind (mirrors_namesUntil _ _) fun names => ?_
  exact triple_value rfl

/-- Heads of methods are read side by side. -/
theorem mirrors_methodHead :
    K.Mirrors (Prod.map K.relabel (Prod.map id (Option.map (List.map K.relabel))))
      methodHead methodHead := by
  refine triple_kind_of_line rfl fun k => ?_
  by_cases hname : k = .name
  · simp only [if_pos hname]
    refine triple_bind (triple_take (by simp [hname])) fun name => ?_
    refine triple_accept (by simp) ?_ ?_
    · refine triple_bind mirrors_setterValue fun value => ?_
      exact triple_value rfl
    · refine triple_bind mirrors_parameters fun parameters => ?_
      exact triple_value rfl
  · simp only [if_neg hname]
    by_cases hbracket : k = .symbol .leftBracket
    · simp only [if_pos hbracket]
      refine triple_bind (triple_take (by simp [hbracket])) fun bracket => ?_
      refine triple_bind (mirrors_namesUntil _ _) fun names => ?_
      refine triple_accept (by simp) ?_ (triple_value rfl)
      refine triple_bind mirrors_setterValue fun value => ?_
      exact triple_value (by simp)
    · simp only [if_neg hbracket]
      by_cases hoperator : k.isOperatorName = true
      · simp only [if_pos hoperator]
        have hk : k ≠ .eof := by
          rintro rfl
          cases hoperator
        refine triple_bind (triple_take hk) fun operator => ?_
        refine triple_bind mirrors_parameters fun parameters => ?_
        exact triple_value rfl
      · simp only [if_neg hoperator]
        exact (triple_reject _).mono fun _ _ hc => hc.1

/-- Words in front of methods are read side by side. -/
theorem mirrors_modifiers : K.Mirrors id modifiers modifiers := by
  refine mirrors_iterate id (fun found => ?_) _
  let same : Round Modifiers Modifiers → Round Modifiers Modifiers := Round.map id id
  have hdone : ∀ k, K.Triple (K.At k) same (roundEnds K.Beside K)
      (pure (.done found)) (pure (.done found)) := fun k => triple_pure rfl fun _ _ hc => hc.1
  have hagain : ∀ w next, K.Triple (K.At (.keyword w)) same (roundEnds K.Beside K)
      (take >>= fun _ => pure (.again next)) (take >>= fun _ => pure (.again next)) :=
    fun w next => triple_bind (triple_take (by simp)) fun _ => triple_again rfl
  refine triple_kind_of_line rfl fun k => ?_
  cases k with
  | keyword w =>
    cases w with
    | construct_ => exact hagain _ _
    | foreign_ => exact hagain _ _
    | static_ => exact hagain _ _
    | _ => exact hdone _
  | _ => exact hdone _

/-- Methods are read side by side. -/
theorem mirrors_method (h : K.Nests inner inner') :
    K.Mirrors (.mapTokens K.relabel) (method inner) (method inner') := by
  refine triple_bind mirrors_modifiers fun found => ?_
  refine triple_bind mirrors_methodHead fun head => ?_
  refine triple_accept (by simp) ?_ ?_
  · refine triple_bind (mirrors_blockBody h) fun body => ?_
    exact triple_value (by simp [Method.mapTokens, MethodHead.mapTokens])
  · by_cases hforeign : found.isForeign = true
    · simp only [id, if_pos hforeign]
      exact triple_value rfl
    · simp only [id, if_neg hforeign]
      exact triple_reject _

/-- Bodies of classes are read side by side. -/
theorem mirrors_classBody (h : K.Nests inner inner') :
    K.Mirrors (List.map (.mapTokens K.relabel)) (classBody inner) (classBody inner') := by
  refine mirrors_iterate_hungry (List.map (.mapTokens K.relabel)) (fun methods => ?_)
    (fun methods => ?_) []
  · refine triple_skipLines_bind ?_ (hungry_accept (hungry_unlessAtEnd _))
    refine triple_accept (by simp) (triple_done rfl) ?_
    refine triple_unlessAtEnd _ (triple_kindIf (by simp) ?_ ?_)
    · refine triple_bind (mirrors_skipAttribute.mono fun _ _ hc => hc.1) fun _ => ?_
      exact triple_pure rfl fun _ _ => .inl
    · refine triple_bind (mirrors_method h) fun m => ?_
      refine triple_bind triple_endOfStatement fun _ => ?_
      exact triple_again (by simp)
  · exact hungry_skipLines (hungry_accept (hungry_unlessAtEnd _))

/-- Classes are read side by side. -/
theorem mirrors_classDef (h : K.Nests inner inner') (isForeign : Bool) :
    K.Mirrors (.mapTokens K.relabel) (classDef inner isForeign) (classDef inner' isForeign) := by
  refine triple_bind (mirrors_name _) fun className => ?_
  refine triple_optional (by simp) (mirrors_name _) fun superclass => ?_
  refine triple_bind (mirrors_expect _ (by simp)) fun brace => ?_
  refine triple_bind (mirrors_classBody h) fun methods => ?_
  exact triple_value (by simp [Stmt.mapTokens])

/-- Imported names are read side by side. -/
theorem mirrors_importedNames :
    K.Mirrors (List.map (.mapTokens K.relabel)) importedNames importedNames := by
  refine mirrors_iterate (List.map (.mapTokens K.relabel)) (fun names => ?_) []
  refine triple_skipLines_bind ?_ ((hungry_name _).bind _)
  refine triple_bind (mirrors_name _) fun imported => ?_
  refine triple_optional (by simp) (mirrors_name _) fun knownAs => ?_
  refine triple_accept (by simp) ?_ ?_
  · exact triple_again (by simp [ImportedName.mapTokens])
  · exact triple_done (by simp [ImportedName.mapTokens])

/-- Imports are read side by side. -/
theorem mirrors_importing : K.Mirrors (.mapTokens K.relabel) importing importing := by
  refine triple_bind (mirrors_expect _ (by simp)) fun path => ?_
  refine triple_accept (by simp) ?_ (triple_value rfl)
  refine triple_bind mirrors_importedNames fun names => ?_
  exact triple_value rfl

/-- Variables are read side by side. -/
theorem mirrors_variableDef (h : K.Nests inner inner') :
    K.Mirrors (.mapTokens K.relabel) (variableDef inner) (variableDef inner') := by
  refine triple_bind (mirrors_name _) fun name => ?_
  refine triple_accept (by simp) ?_ (triple_value rfl)
  refine triple_skipLines_bind ?_ (h.hungry.expression.bind _)
  refine triple_bind h.expression fun value => ?_
  exact triple_value rfl

/-- A class that is foreign, of which two keywords are seen. -/
theorem triple_foreignClass (h : K.Nests inner inner') :
    K.Triple (fun c c' => K.At (.keyword .foreign_) c c' ∧
        K.At (.keyword .class_) c.advance c'.advance) (.mapTokens K.relabel) (fun _ => K.Beside)
      (take >>= fun _ => take >>= fun _ => classDef inner true)
      (take >>= fun _ => take >>= fun _ => classDef inner' true) := by
  have hforeign : K.Triple (fun c c' => K.At (.keyword .foreign_) c c' ∧
      K.At (.keyword .class_) c.advance c'.advance) K.relabel (fun _ => K.At (.keyword .class_))
      take take := by
    rintro c c' ⟨⟨hc, hk⟩, hnext⟩
    exact ⟨c'.advance, by rw [Parser.take, (K.take hc (by simp [hk])).1], hnext⟩
  refine triple_bind hforeign fun _ => ?_
  exact triple_bind (triple_take (by simp)) fun _ => mirrors_classDef h true

/-- Definitions are read side by side. -/
theorem mirrors_definition (h : K.Nests inner inner') :
    K.Mirrors (.mapTokens K.relabel) (definition inner) (definition inner') := by
  have hstatement : ∀ k, K.Triple (K.At k) (.mapTokens K.relabel) (fun _ => K.Beside)
      (statement inner) (statement inner') := fun k =>
    (mirrors_statement h).mono fun _ _ hc => hc.1
  refine triple_kind_of_line rfl fun k => ?_
  cases k with
  | keyword w =>
    cases w with
    | class_ => exact triple_bind (triple_take (by simp)) fun _ => mirrors_classDef h false
    | foreign_ => exact triple_secondIf (by simp) (by simp) (triple_foreignClass h) (hstatement _)
    | import_ => exact triple_bind (triple_take (by simp)) fun _ => mirrors_importing
    | var_ => exact triple_bind (triple_take (by simp)) fun _ => mirrors_variableDef h
    | _ => exact hstatement _
  | _ => exact hstatement _

end Grammar

/-! ### All levels -/

open Grammar in
/-- The next level out is mirrored if a level is. -/
theorem Pairing.Nests.succ {K : Pairing} {depth depth' : Nat}
    (h : K.Nests (.within depth) (.within depth')) :
    K.Nests (.within (depth + 1)) (.within (depth' + 1)) where
  definition := mirrors_definition h
  branch := mirrors_statement h
  expression := mirrors_assignment h
  conditional := mirrors_conditional h
  operand := mirrors_binary h
  unary := mirrors_unary h
  hungry := Nested.refuses_within (by simp [Kind.StartsNothing]) (depth + 1)

/-- The constructs of the language are mirrored, as deep as they may nest. -/
theorem Pairing.nests_within (K : Pairing) (depth : Nat) :
    K.Nests (.within depth) (.within depth) := by
  induction depth with
  | zero =>
    exact ⟨triple_reject _, triple_reject _, triple_reject _, triple_reject _,
      fun _ => triple_reject _, triple_reject _,
      Nested.refuses_within (by simp [Kind.StartsNothing]) 0⟩
  | succ depth ih => exact ih.succ

/-! ### Modules

The end of a module is where pairings differ.  In a firm one, both lists end together.
-/

namespace Pairing

/-- The cursors never go apart. -/
structure Firm (K : Pairing) : Prop where
  beside : ∀ {c c'}, K.Ends c c' → K.Beside c c'
  atEnd : ∀ {c c'}, K.Beside c c' → c.current.kind = .eof → c'.current.kind = .eof

variable {K : Pairing} {α β γ δ : Type} {g : α → β} {h : γ → δ} {p : Parser α} {p' : Parser β}
  {R : γ → Cursor → Cursor → Prop}

/-- A firm pairing never parts, so what ends beside each other mirrors itself. -/
theorem Firm.mirrors (hK : K.Firm) (hp : K.Triple K.Beside g (fun _ => K.Ends) p p') :
    K.Mirrors g p p' :=
  hp.post fun _ _ _ => hK.beside

/-- In a firm pairing both lists end at once. -/
theorem Firm.triple_atEnd (hK : K.Firm) {A B : Parser γ} {A' B' : Parser δ}
    (hA : K.Triple K.Beside h R A A') (hB : K.Triple K.Beside h R B B') :
    K.Triple K.Beside h R (Parser.atEnd >>= fun b => if b = true then A else B)
      (Parser.atEnd >>= fun b => if b = true then A' else B') := by
  intro c c' hc
  obtain ⟨hstop, hstop'⟩ := K.stop hc
  have hkind : c'.current.kind = .eof ↔ c.current.kind = .eof := by
    by_cases hend : c.current.kind = .eof
    · exact iff_of_true (hK.atEnd hc hend) hend
    · rw [Beside.kind hc hend]
  have heq : c'.atEnd = c.atEnd := by
    rw [Bool.eq_iff_iff, Cursor.atEnd_iff hstop', Cursor.atEnd_iff hstop, hkind]
  show K.Answers h R ((if c.atEnd = true then A else B) c) ((if c'.atEnd = true then A' else B') c')
  rw [heq]
  split
  · exact hA c c' hc
  · exact hB c c' hc

open Grammar in
/-- In a firm pairing modules are read side by side. -/
theorem Firm.mirrors_module (hK : K.Firm) {inner inner' : Nested} (h : K.Nests inner inner') :
    K.Mirrors (.mapTokens K.relabel) (Grammar.module inner) (Grammar.module inner') := by
  refine triple_bind (hK.mirrors triple_skipLines) fun _ => ?_
  refine mirrors_iterate (List.map (.mapTokens K.relabel)) (fun statements => ?_) []
  refine hK.triple_atEnd (triple_done rfl) (triple_kindIf (by simp) ?_ ?_)
  · -- an attribute
    refine triple_bind (mirrors_skipAttribute.mono fun _ _ hc => hc.1) fun _ => ?_
    refine triple_bind (hK.mirrors triple_skipLines) fun _ => ?_
    exact triple_again rfl
  · -- a definition
    refine triple_bind h.definition fun s => ?_
    refine triple_kindIf (by simp) ((triple_reject _).mono fun _ _ hc => hc.1) ?_
    refine triple_bind (hK.mirrors triple_endOfStatement) fun _ => ?_
    exact triple_again (by simp)

end Pairing
end WrenAnalysis
