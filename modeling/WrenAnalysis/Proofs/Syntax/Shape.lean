/-
# The shape of trees

A node of a tree has parts, each read by a construct of its own, and perhaps one part that a
loop of the grammar had read before: the left operand of a binary operator, the receiver of a
call or of a subscript (`Node.link`).  A chain of operators or calls is as long as its text,
so the levels that are left count parts only (`Fits`).

`Grouped` is what the precedence of operators demands of a node.
-/

import WrenAnalysis.Syntax.Grammar.Expression

namespace WrenAnalysis

/-- A place in a tree. -/
inductive Node where
  | expr (e : Expr)
  | stmt (s : Stmt)
  | block (b : Block)
  | method (m : Method)

namespace Node

/-- What a call is made with. -/
def ofTail (arguments : Option (List Expr)) (block : Option Block) : List Node :=
  (arguments.getD []).map expr ++ block.toList.map Node.block

/-- The part that was there before the node was built around it. -/
def link : Node → Option Node
  | expr (.binary left _ _) => some (expr left)
  | expr (.call receiver _ _ _) => receiver.map expr
  | expr (.subscript receiver _ _) => some (expr receiver)
  | _ => none

/-- The other parts. -/
def parts : Node → List Node
  | expr (.list _ elements) => elements.map expr
  | expr (.map _ entries) => entries.flatMap fun e => [expr e.key, expr e.value]
  | expr (.superCall _ _ arguments b) => ofTail arguments b
  | expr (.call _ _ arguments b) => ofTail arguments b
  | expr (.subscript _ _ arguments) => arguments.map expr
  | expr (.unary _ operand) => [expr operand]
  | expr (.binary _ _ right) => [expr right]
  | expr (.conditional condition thenBranch elseBranch) =>
    [expr condition, expr thenBranch, expr elseBranch]
  | expr (.group inner) => [expr inner]
  | expr (.assign (.setter place) value) => [expr place, expr value]
  | expr (.assign _ value) => [expr value]
  | expr _ => []
  | stmt (.classDef _ _ _ methods) => methods.map method
  | stmt (.var _ initializer) => initializer.toList.map expr
  | stmt (.block body) => body.map stmt
  | stmt (.ifElse _ condition thenBranch elseBranch) =>
    expr condition :: stmt thenBranch :: elseBranch.toList.map stmt
  | stmt (.whileLoop _ condition body) => [expr condition, stmt body]
  | stmt (.forLoop _ _ iterator body) => [expr iterator, stmt body]
  | stmt (.returning _ value) => value.toList.map expr
  | stmt (.expr e) => [expr e]
  | stmt _ => []
  | block b => b.body.map stmt
  | method m => m.body.map stmt

/-- All parts of a node. -/
def children (x : Node) : List Node := x.link.toList ++ x.parts

/-- `y` is `x` or somewhere in it. -/
inductive Has : Node → Node → Prop
  | self {x : Node} : Has x x
  | child {x y z : Node} : y ∈ x.children → Has y z → Has x z

/-- A part of what is in a node is in the node. -/
theorem Has.trans {x y z : Node} (h : x.Has y) (h' : y.Has z) : x.Has z := by
  induction h with
  | self => exact h'
  | child hchild _ ih => exact .child hchild (ih h')

end Node

/-- The node stands somewhere in the module. -/
def Module.Has (m : Module) (x : Node) : Prop := ∃ s ∈ m.statements, (Node.stmt s).Has x

/-! ### Assignable places -/

/-- An expression in front of an equals sign, and the place that it stands for. -/
inductive Expr.StandsFor : Expr → Target → Prop
  | name {n : Token} : StandsFor (.call none n none none) (.ofName n)
  | field {n : Token} : StandsFor (.field n) (.field n)
  | staticField {n : Token} : StandsFor (.staticField n) (.staticField n)
  | call {e : Expr} {n : Token} :
      StandsFor (.call (some e) n none none) (.setter (.call (some e) n none none))
  | subscript {e : Expr} {b : Token} {es : List Expr} :
      StandsFor (.subscript e b es) (.setter (.subscript e b es))

/-- What may be assigned to stands for its place. -/
theorem Expr.standsFor_of_target? {e : Expr} {target : Target} (h : e.target? = some target) :
    e.StandsFor target := by
  unfold target? at h
  split at h
  · cases h
    exact .name
  · cases h
    exact .field
  · cases h
    exact .staticField
  · cases h
    exact .call
  · cases h
    exact .subscript
  · cases h

/-! ### What precedence demands -/

namespace Expr

/-- No part of the expression stands open to its left or right. -/
def isPostfix : Expr → Bool
  | .unary .. | .binary .. | .conditional .. | .assign .. => false
  | _ => true

/-- The expression is no operand of a binary operator, nor looser than one. -/
def isTight : Expr → Bool
  | .binary .. | .conditional .. | .assign .. => false
  | _ => true

/-- The expression is a choice or an assignment. -/
def isChoice : Expr → Bool
  | .conditional .. | .assign .. => true
  | _ => false

/-- The expression is an assignment. -/
def isAssign : Expr → Bool
  | .assign .. => true
  | _ => false

/-- Nothing stands open around a call or a primary. -/
theorem isTight_of_isPostfix {e : Expr} (h : e.isPostfix = true) : e.isTight = true := by
  cases e <;> first | rfl | cases h

/-- A prefix or postfix expression, or one whose binary operator binds at least so tightly. -/
inductive BindsAtLeast (least : Nat) : Expr → Prop
  | tight {e : Expr} : e.isTight = true → BindsAtLeast least e
  | binary {l r : Expr} {o : Token} {p : Nat} :
      o.kind.precedence = some p → least ≤ p → BindsAtLeast least (.binary l o r)

/-- An operation is no choice. -/
theorem BindsAtLeast.isChoice {e : Expr} {least : Nat} (h : e.BindsAtLeast least) :
    e.isChoice = false := by
  cases h with
  | @tight e he => cases e <;> first | rfl | cases he
  | binary => rfl

/-- What is no choice is no assignment. -/
theorem isAssign_of_isChoice {e : Expr} (h : e.isChoice = false) : e.isAssign = false := by
  cases e <;> first | rfl | cases h

end Expr

/-- The operands of a node are as tight as its operator wants them. -/
def Grouped : Node → Prop
  | .expr (.binary left operator right) =>
    ∃ p, operator.kind.precedence = some p ∧ left.BindsAtLeast p ∧ right.BindsAtLeast (p + 1)
  | .expr (.unary _ operand) => operand.isTight = true
  | .expr (.call receiver _ _ _) => ∀ e ∈ receiver, e.isPostfix = true
  | .expr (.subscript receiver _ _) => receiver.isPostfix = true
  | .expr (.conditional condition thenBranch elseBranch) =>
    condition.isChoice = false ∧ thenBranch.isAssign = false ∧ elseBranch.isAssign = false
  | _ => True

/-! ### Levels -/

/-- Every node in `x` is grouped, and a path down from `x` goes over fewer than `levels` parts,
however many links it follows. -/
inductive Fits : (levels : Nat) → Node → Prop
  | mk {levels : Nat} {x : Node} : Grouped x → (∀ y ∈ x.link, Fits (levels + 1) y) →
      (∀ y ∈ x.parts, Fits levels y) → Fits (levels + 1) x

namespace Fits

variable {levels more : Nat} {x y : Node}

/-- More levels may be allowed. -/
theorem mono (h : Fits levels x) (hle : levels ≤ more) : Fits more x := by
  induction h generalizing more with
  | mk hx _ _ ihlink ihparts =>
    obtain ⟨more, rfl⟩ := Nat.exists_eq_add_of_lt hle
    exact .mk hx (fun y hy => ihlink y hy (by omega)) fun y hy => ihparts y hy (by omega)

/-- What fits is grouped. -/
theorem grouped (h : Fits levels x) : Grouped x := by
  cases h with
  | mk hx => exact hx

/-- What stands directly below fits as well. -/
theorem of_child (h : Fits levels x) (hy : y ∈ x.children) : Fits levels y := by
  cases h with
  | mk _ hlink hparts =>
    rcases List.mem_append.1 hy with hy | hy
    · exact hlink y (Option.mem_toList.1 hy)
    · exact (hparts y hy).mono (Nat.le_succ _)

/-- What stands anywhere below fits as well. -/
theorem of_has (h : Fits levels x) (hy : x.Has y) : Fits levels y := by
  induction hy with
  | self => exact h
  | child hchild _ ih => exact ih (h.of_child hchild)

end Fits
end WrenAnalysis
