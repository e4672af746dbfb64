/-
# Expressions

From the tightest to the loosest: primaries, calls and subscripts behind them,
unary operators, binary operators by their precedence, the conditional, and
assignment.
-/

import WrenAnalysis.Syntax.Grammar.Block

namespace WrenAnalysis

/-- How tightly a binary operator binds, from 1. -/
def Kind.precedence : Kind → Option Nat
  | .symbol .pipePipe => some 1
  | .symbol .ampAmp => some 2
  | .symbol .eqEq | .symbol .bangEq => some 3
  | .keyword .is_ => some 4
  | .symbol .lt | .symbol .gt | .symbol .ltEq | .symbol .gtEq => some 5
  | .symbol .pipe => some 6
  | .symbol .caret => some 7
  | .symbol .amp => some 8
  | .symbol .ltLt | .symbol .gtGt => some 9
  | .symbol .dotDot | .symbol .dotDotDot => some 10
  | .symbol .plus | .symbol .minus => some 11
  | .symbol .star | .symbol .slash | .symbol .percent => some 12
  | _ => none

/-- The place a name stands for, by its underscores. -/
def Target.ofName (name : Token) : Target :=
  match name.nameClass with
  | .plain => .plain name
  | .field => .field name
  | .staticField => .staticField name

/-- The place an expression stands for in front of an equals sign. -/
def Expr.target? : Expr → Option Target
  | .call none name none none => some (.ofName name)
  | .field name => some (.field name)
  | .staticField name => some (.staticField name)
  | .call (some receiver) name none none => some (.setter (.call (some receiver) name none none))
  | .subscript receiver bracket arguments => some (.setter (.subscript receiver bracket arguments))
  | _ => none

namespace Grammar

open WrenAnalysis.Parser

/-- The arguments and the block of a call, each of which may be missing. -/
def callTail (inner : Nested) : Parser (Option (List Expr) × Option Block) := do
  let arguments ←
    if ← accept (.symbol .leftParen) then
      some <$> argumentsUntil inner .rightParen .argumentsClose
    else pure none
  let block ←
    if ← accept (.symbol .leftBrace) then some <$> blockArgument inner else pure none
  return (arguments, block)

/-- `super`, by itself or with the name of a method. -/
def superCall (inner : Nested) : Parser Expr := do
  let keyword ← take
  let name ← if ← accept (.symbol .dot) then some <$> name .superName else pure none
  let (arguments, block) ← callTail inner
  return .superCall keyword name arguments block

/-- A field, or a name with what it is called with. -/
def named (inner : Nested) : Parser Expr := do
  let name ← take
  match name.nameClass with
  | .field => return .field name
  | .staticField => return .staticField name
  | .plain =>
    let (arguments, block) ← callTail inner
    return .call none name arguments block

/-- An expression in parentheses. -/
def group (inner : Nested) : Parser Expr := do
  let _ ← take
  skipLines
  let e ← inner.expression
  skipLines
  let _ ← expect (.symbol .rightParen) .groupClose
  return .group e

/-- An expression no part of which stands open to its left or right. -/
def primary (inner : Nested) : Parser Expr := do
  match ← kind with
  | .keyword .null_ => .null <$> take
  | .keyword .true_ => .bool <$> take
  | .keyword .false_ => .bool <$> take
  | .number => .num <$> take
  | .string => .str <$> take
  | .keyword .this_ => .thisValue <$> take
  | .keyword .super_ => superCall inner
  | .name => named inner
  | .symbol .leftParen => group inner
  | .symbol .leftBracket =>
    let bracket ← take
    return .list bracket (← argumentsUntil inner .rightBracket .listClose)
  | .symbol .leftBrace =>
    let brace ← take
    return .map brace (← mapEntries inner)
  | _ => reject .expression

/-- A primary with the calls and subscripts behind it.  A call may go on at the
start of a later line. -/
def postfixed (inner : Nested) : Parser Expr := do
  iterate (fun e => do
    match ← kind with
    | .symbol .dot =>
      let _ ← take
      skipLines
      let name ← name .calledName
      let (arguments, block) ← callTail inner
      return .again (.call (some e) name arguments block)
    | .symbol .leftBracket =>
      let bracket ← take
      let arguments ← argumentsUntil inner .rightBracket .subscriptClose
      return .again (.subscript e bracket arguments)
    | .line => if ← skipLinesBefore (.symbol .dot) then return .again e else return .done e
    | _ => return .done e) (← primary inner)

/-- An operand with the unary operators in front of it. -/
def unary (inner : Nested) : Parser Expr := do
  match ← kind with
  | .symbol .minus | .symbol .bang | .symbol .tilde =>
    let operator ← take
    return .unary operator (← inner.unary)
  | _ => postfixed inner

/-- Operands with binary operators between them that bind at least as tightly as
`least`.  Operators of one precedence group to the left. -/
def binary (inner : Nested) (least : Nat) : Parser Expr := do
  iterate (fun left => do
    match (← kind).precedence with
    | none => return .done left
    | some p =>
      if p < least then return .done left
      else
        let operator ← take
        skipLines
        return .again (.binary left operator (← inner.operand (p + 1)))) (← unary inner)

/-- A choice between two expressions, or one without a choice.  Choices group to
the right. -/
def conditional (inner : Nested) : Parser Expr := do
  let condition ← binary inner 1
  if ← accept (.symbol .question) then
    skipLines
    let thenBranch ← inner.conditional
    skipLines
    let _ ← expect (.symbol .colon) .conditionalColon
    skipLines
    return .conditional condition thenBranch (← inner.conditional)
  else
    return condition

/-- An assignment, or an expression without one.  Assignments group to the right. -/
def assignment (inner : Nested) : Parser Expr := do
  let e ← conditional inner
  if (← kind) = .symbol .eq then
    match e.target? with
    | none => reject .assignable
    | some target =>
      let _ ← take
      skipLines
      return .assign target (← inner.expression)
  else
    return e

end Grammar
end WrenAnalysis
