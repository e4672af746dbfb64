/-
# Nesting

Constructs of the language contain each other without end, but a tree may only
be so deep.  The productions therefore do not call each other: a production at
some level is given the productions one level further in (`Nested`), and the
levels are stacked until the depth allowed is used up, where everything is
refused (`Nested.exhausted`).
-/

import WrenAnalysis.Syntax.Cursor
import WrenAnalysis.Syntax.Tree

namespace WrenAnalysis

/-- The constructs that may stand one level further in. -/
structure Nested where
  /-- A class, an import, a variable or a statement. -/
  definition : Parser Stmt
  /-- A statement that is the body of another one. -/
  branch : Parser Stmt
  /-- An expression of any kind. -/
  expression : Parser Expr
  /-- An expression that is no assignment. -/
  conditional : Parser Expr
  /-- An expression whose binary operators bind at least so tightly. -/
  operand : Nat → Parser Expr
  /-- An operand with the unary operators in front of it. -/
  unary : Parser Expr

namespace Nested

/-- The depth is used up. -/
def exhausted : Nested where
  definition := .reject .shallowerNesting
  branch := .reject .shallowerNesting
  expression := .reject .shallowerNesting
  conditional := .reject .shallowerNesting
  operand _ := .reject .shallowerNesting
  unary := .reject .shallowerNesting

end Nested
end WrenAnalysis
