/-
# The places of a body

The places in a statement or an expression are listed here by recursion on the tree, each
in front of those in it (`Stmt.inner`, `Expr.inner`).  Classes and imports in a body are
places, and nothing in them is.

`BodyNode.walk` keeps the places still to visit in a list and counts what it has visited.
It comes to the same (`BodyNode.walk_eq`): it goes through all places in this order, unless
there are more of them than it may visit.
-/

import Mathlib.Data.List.Basic
import Mathlib.Tactic.SplitIfs
import WrenAnalysis.Index.Binding

namespace WrenAnalysis

mutual

/-- The places in an expression, itself apart. -/
def Expr.inner : Expr → List BodyNode
  | .null _ | .bool _ | .num _ | .str _ | .field _ | .staticField _ | .thisValue _ => []
  | .list _ elements => exprPlaces elements
  | .map _ entries => entryPlaces entries
  | .superCall _ _ arguments block => argumentPlaces arguments ++ blockPlaces block
  | .call receiver _ arguments block =>
    optionalPlaces receiver ++ argumentPlaces arguments ++ blockPlaces block
  | .subscript receiver _ arguments => .expr receiver :: receiver.inner ++ exprPlaces arguments
  | .unary _ operand => .expr operand :: operand.inner
  | .binary left _ right => .expr left :: left.inner ++ .expr right :: right.inner
  | .conditional condition thenBranch elseBranch =>
    .expr condition :: condition.inner ++ .expr thenBranch :: thenBranch.inner ++
      .expr elseBranch :: elseBranch.inner
  | .group inner => .expr inner :: inner.inner
  | .assign target value => target.places ++ .expr value :: value.inner

/-- The places in expressions, with the expressions. -/
def exprPlaces : List Expr → List BodyNode
  | [] => []
  | e :: es => .expr e :: e.inner ++ exprPlaces es

def Entry.places : Entry → List BodyNode
  | .mk key value => .expr key :: key.inner ++ .expr value :: value.inner

def entryPlaces : List Entry → List BodyNode
  | [] => []
  | e :: es => e.places ++ entryPlaces es

def optionalPlaces : Option Expr → List BodyNode
  | none => []
  | some e => .expr e :: e.inner

def argumentPlaces : Option (List Expr) → List BodyNode
  | none => []
  | some es => exprPlaces es

/-- Only a setter has a place of its own that it writes to. -/
def Target.places : Target → List BodyNode
  | .plain _ | .field _ | .staticField _ => []
  | .setter place => .expr place :: place.inner

def Block.places : Block → List BodyNode
  | .mk _ body => stmtPlaces body

def blockPlaces : Option Block → List BodyNode
  | none => []
  | some b => b.places

/-- The places in a statement, itself apart. -/
def Stmt.inner : Stmt → List BodyNode
  | .importing .. | .classDef .. | .breaking _ | .continuing _ => []
  | .var _ initializer => optionalPlaces initializer
  | .block body => stmtPlaces body
  | .ifElse _ condition thenBranch elseBranch =>
    .expr condition :: condition.inner ++ .stmt thenBranch :: thenBranch.inner ++
      branchPlaces elseBranch
  | .whileLoop _ condition body => .expr condition :: condition.inner ++ .stmt body :: body.inner
  | .forLoop _ _ iterator body => .expr iterator :: iterator.inner ++ .stmt body :: body.inner
  | .returning _ value => optionalPlaces value
  | .expr e => .expr e :: e.inner

def branchPlaces : Option Stmt → List BodyNode
  | none => []
  | some s => .stmt s :: s.inner

/-- The places in statements, with the statements. -/
def stmtPlaces : List Stmt → List BodyNode
  | [] => []
  | s :: ss => .stmt s :: s.inner ++ stmtPlaces ss

end

namespace BodyNode

/-- The places in a place. -/
def inner : BodyNode → List BodyNode
  | stmt s => s.inner
  | expr e => e.inner

/-- A place and the places in it, in the order of the text. -/
def places (n : BodyNode) : List BodyNode := n :: n.inner

/-- The places of expressions are those of their nodes. -/
theorem exprPlaces_eq (es : List Expr) : exprPlaces es = (es.map expr).flatMap places := by
  induction es with
  | nil => rfl
  | cons e es ih =>
    rw [exprPlaces, ih, List.map_cons, List.flatMap_cons]
    rfl

/-- The places of map entries are those of their keys and values. -/
theorem entryPlaces_eq (es : List Entry) :
    entryPlaces es = (es.flatMap fun e => [expr e.key, expr e.value]).flatMap places := by
  induction es with
  | nil => rfl
  | cons e es ih =>
    obtain ⟨key, value⟩ := e
    rw [entryPlaces, ih, List.flatMap_cons, List.flatMap_append, Entry.places]
    simp [places, inner, Entry.key, Entry.value]

/-- The places of statements are those of their nodes. -/
theorem stmtPlaces_eq (ss : List Stmt) : stmtPlaces ss = (ss.map stmt).flatMap places := by
  induction ss with
  | nil => rfl
  | cons s ss ih =>
    rw [stmtPlaces, ih, List.map_cons, List.flatMap_cons]
    rfl

/-- The places of an expression that may be missing are those of its node. -/
theorem optionalPlaces_eq (e : Option Expr) :
    optionalPlaces e = (e.toList.map expr).flatMap places := by
  cases e with
  | none => rfl
  | some e => simp [optionalPlaces, places, inner]

/-- The places of a branch that may be missing are those of its node. -/
theorem branchPlaces_eq (s : Option Stmt) :
    branchPlaces s = (s.toList.map stmt).flatMap places := by
  cases s with
  | none => rfl
  | some s => simp [branchPlaces, places, inner]

/-- The places of arguments are those of their nodes. -/
theorem argumentPlaces_eq (es : Option (List Expr)) :
    argumentPlaces es = (ofArguments es).flatMap places := by
  cases es with
  | none => rfl
  | some es => exact exprPlaces_eq es

/-- The places of a block that may be missing are those of its node. -/
theorem blockPlaces_eq (b : Option Block) : blockPlaces b = (ofBlock b).flatMap places := by
  cases b with
  | none => rfl
  | some b =>
    obtain ⟨parameters, body⟩ := b
    exact stmtPlaces_eq body

/-- Below an expression stand the nodes that it is made of. -/
theorem inner_ofExpr (e : Expr) : e.inner = (ofExpr e).flatMap places := by
  cases e with
  | assign target value =>
    cases target <;> simp [Expr.inner, Target.places, ofExpr, places, inner]
  | _ =>
    simp [Expr.inner, ofExpr, places, inner, exprPlaces_eq, entryPlaces_eq, optionalPlaces_eq,
      argumentPlaces_eq, blockPlaces_eq]

/-- Below a statement stand the nodes that it is made of. -/
theorem inner_ofStmt (s : Stmt) : s.inner = (ofStmt s).flatMap places := by
  cases s <;>
    simp [Stmt.inner, ofStmt, places, inner, stmtPlaces_eq, optionalPlaces_eq, branchPlaces_eq]

/-- The places in a place are those of its children, one child behind the other. -/
theorem places_eq (n : BodyNode) : n.places = n :: n.children.flatMap places := by
  cases n with
  | stmt s => rw [places, inner, inner_ofStmt, children]
  | expr e => rw [places, inner, inner_ofExpr, children]

/-- **The walk goes through all places in order**, if it may visit that many, and
otherwise gives up. -/
theorem walk_eq (budget : Nat) (todo : List BodyNode) :
    walk budget todo =
      if (todo.flatMap places).length ≤ budget then some ((todo.flatMap places).flatMap bindings)
      else none := by
  induction budget generalizing todo with
  | zero =>
    cases todo with
    | nil => rfl
    | cons n todo => simp [walk, places]
  | succ budget ih =>
    cases todo with
    | nil => rfl
    | cons n todo =>
      -- What is still to visit behind `n` is what stands behind `n` in the order.
      have hbehind : (n :: todo).flatMap places = n :: (n.children ++ todo).flatMap places := by
        rw [List.flatMap_cons, places_eq, List.flatMap_append, List.cons_append]
      rw [walk, ih, hbehind, List.length_cons, List.flatMap_cons]
      simp only [Nat.succ_le_succ_iff, apply_ite (Option.map (n.bindings ++ ·)), Option.map_some,
        Option.map_none]

end BodyNode

namespace Method

/-- The places in the body of a method, in the order of the text. -/
def places (m : Method) : List BodyNode := stmtPlaces m.body

/-- The bindings of a method are those of its places, unless these exceed the budget. -/
theorem bindings_eq (m : Method) (budget : Nat) :
    m.bindings budget =
      if m.places.length ≤ budget then some (m.places.flatMap BodyNode.bindings) else none := by
  rw [bindings, BodyNode.walk_eq, places, BodyNode.stmtPlaces_eq]

end Method
end WrenAnalysis
