/-
# The bindings of a method

The variables declared and the fields assigned in the body of a method,
wherever they stand in it, in the order of the text.  The walk keeps a list of
nodes still to visit and gives up once it has visited more than it may.
-/

import WrenAnalysis.Syntax.Outline

namespace WrenAnalysis

/-- What a completion stands for. -/
inductive CompletionKind where
  | class_
  | method
  /-- A static method. -/
  | function
  | variable_
  | field
  deriving DecidableEq, Repr, Inhabited

/-- The word for a kind of completion. -/
def CompletionKind.word : CompletionKind → String
  | class_ => "class"
  | method => "method"
  | function => "function"
  | variable_ => "variable"
  | field => "field"

/-- A name that can be completed. -/
structure Completion where
  name : String
  kind : CompletionKind
  deriving DecidableEq, Repr, Inhabited

/-- A place in a body. -/
inductive BodyNode where
  | stmt (s : Stmt)
  | expr (e : Expr)

namespace BodyNode

/-- The places of the statements of a block. -/
def ofBlock (block : Option Block) : List BodyNode :=
  match block with
  | none => []
  | some b => b.body.map stmt

/-- The places of the arguments of a call. -/
def ofArguments (arguments : Option (List Expr)) : List BodyNode :=
  (arguments.getD []).map expr

/-- The places directly in an expression, in the order of the text. -/
def ofExpr : Expr → List BodyNode
  | .assign (.setter place) value => [expr place, expr value]
  | .assign _ value => [expr value]
  | .call receiver _ arguments block =>
    receiver.toList.map expr ++ ofArguments arguments ++ ofBlock block
  | .superCall _ _ arguments block => ofArguments arguments ++ ofBlock block
  | .subscript receiver _ arguments => expr receiver :: arguments.map expr
  | .list _ elements => elements.map expr
  | .map _ entries => entries.flatMap fun e => [expr e.key, expr e.value]
  | .unary _ operand => [expr operand]
  | .binary left _ right => [expr left, expr right]
  | .conditional condition thenBranch elseBranch =>
    [expr condition, expr thenBranch, expr elseBranch]
  | .group inner => [expr inner]
  | _ => []

/-- The places directly in a statement, in the order of the text.  Classes and
imports in a body are not looked into. -/
def ofStmt : Stmt → List BodyNode
  | .var _ initializer => initializer.toList.map expr
  | .block body => body.map stmt
  | .ifElse _ condition thenBranch elseBranch =>
    expr condition :: stmt thenBranch :: elseBranch.toList.map stmt
  | .whileLoop _ condition body => [expr condition, stmt body]
  | .forLoop _ _ iterator body => [expr iterator, stmt body]
  | .returning _ value => value.toList.map expr
  | .expr e => [expr e]
  | _ => []

/-- The places directly in a place. -/
def children : BodyNode → List BodyNode
  | stmt s => ofStmt s
  | expr e => ofExpr e

/-- What a place binds by itself. -/
def bindings : BodyNode → List Completion
  | stmt (.var name _) => [⟨name.text, .variable_⟩]
  | expr (.assign (.field name) _) => [⟨name.text, .field⟩]
  | expr (.assign (.staticField name) _) => [⟨name.text, .field⟩]
  | _ => []

/-- The bindings at the places `todo` and in them, in the order of the text;
nothing if there are more than `budget` places. -/
def walk : (budget : Nat) → (todo : List BodyNode) → Option (List Completion)
  | _, [] => some []
  | 0, _ :: _ => none
  | budget + 1, node :: todo => (walk budget (node.children ++ todo)).map (node.bindings ++ ·)

end BodyNode

namespace Method

/-- The variables and fields a method binds; nothing if its body has more than
`budget` places. -/
def bindings (m : Method) (budget : Nat) : Option (List Completion) :=
  BodyNode.walk budget (m.body.map .stmt)

end Method
end WrenAnalysis
