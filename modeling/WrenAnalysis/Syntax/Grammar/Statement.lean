/-
# Statements

Control flow, imports, variables and classes with their methods.
-/

import WrenAnalysis.Syntax.Grammar.Expression

namespace WrenAnalysis

/-- The kinds of token that name a method called by an operator. -/
def Kind.isOperatorName : Kind → Bool
  | .symbol .plus | .symbol .minus | .symbol .star | .symbol .slash | .symbol .percent
  | .symbol .lt | .symbol .gt | .symbol .ltEq | .symbol .gtEq | .symbol .eqEq | .symbol .bangEq
  | .symbol .amp | .symbol .pipe | .symbol .caret | .symbol .ltLt | .symbol .gtGt
  | .symbol .dotDot | .symbol .dotDotDot | .keyword .is_ | .symbol .bang | .symbol .tilde => true
  | _ => false

namespace Grammar

open WrenAnalysis.Parser

/-- The condition of a statement in parentheses, behind its keyword. -/
def condition (inner : Nested) (keyword : Keyword) : Parser Expr := do
  let _ ← expect (.symbol .leftParen) (.conditionOpen keyword)
  skipLines
  let e ← inner.expression
  skipLines
  let _ ← expect (.symbol .rightParen) .conditionClose
  return e

/-- `if`, with an `else` that may stand on a later line. -/
def ifElse (inner : Nested) : Parser Stmt := do
  let keyword ← take
  let condition ← condition inner .if_
  let thenBranch ← inner.branch
  let _ ← skipLinesBefore (.keyword .else_)
  if ← accept (.keyword .else_) then
    return .ifElse keyword condition thenBranch (some (← inner.branch))
  else
    return .ifElse keyword condition thenBranch none

/-- `while`. -/
def whileLoop (inner : Nested) : Parser Stmt := do
  let keyword ← take
  let condition ← condition inner .while_
  return .whileLoop keyword condition (← inner.branch)

/-- `for`. -/
def forLoop (inner : Nested) : Parser Stmt := do
  let keyword ← take
  let _ ← expect (.symbol .leftParen) (.conditionOpen .for_)
  skipLines
  let name ← name .loopName
  let _ ← expect (.keyword .in_) .loopIn
  skipLines
  let iterator ← inner.expression
  skipLines
  let _ ← expect (.symbol .rightParen) .loopClose
  return .forLoop keyword name iterator (← inner.branch)

/-- `return`, with a value unless the statement ends. -/
def returning (inner : Nested) : Parser Stmt := do
  let keyword ← take
  match ← kind with
  | .line | .symbol .rightBrace | .eof => return .returning keyword none
  | _ => return .returning keyword (some (← inner.expression))

/-- A statement that declares nothing. -/
def statement (inner : Nested) : Parser Stmt := do
  match ← kind with
  | .keyword .if_ => ifElse inner
  | .keyword .while_ => whileLoop inner
  | .keyword .for_ => forLoop inner
  | .keyword .return_ => returning inner
  | .keyword .break_ => .breaking <$> take
  | .keyword .continue_ => .continuing <$> take
  | .symbol .leftBrace =>
    let _ ← take
    return .block (← blockBody inner)
  | _ => return .expr (← inner.expression)

/-- The parameter of a setter in parentheses, behind its equals sign. -/
def setterValue : Parser Token := do
  let _ ← expect (.symbol .leftParen) .setterOpen
  let value ← name .setterParameter
  let _ ← expect (.symbol .rightParen) .setterClose
  return value

/-- A parameter list in parentheses, which may be missing. -/
def parameters : Parser (Option (List Token)) := do
  if ← accept (.symbol .leftParen) then
    return some (← namesUntil .rightParen .parametersClose)
  else
    return none

/-- The name, the kind and the parameters of a method. -/
def methodHead : Parser (Token × MethodKind × Option (List Token)) := do
  let k ← kind
  if k = .name then
    let name ← take
    if ← accept (.symbol .eq) then
      return (name, .setter, some [← setterValue])
    else
      return (name, .named, ← parameters)
  else if k = .symbol .leftBracket then
    let bracket ← take
    let names ← namesUntil .rightBracket .subscriptParametersClose
    if ← accept (.symbol .eq) then
      return (bracket, .subscriptSetter, some (names ++ [← setterValue]))
    else
      return (bracket, .subscript, some names)
  else if k.isOperatorName then
    let operator ← take
    return (operator, .operator, ← parameters)
  else
    reject .methodName

/-- The words in front of a method. -/
structure Modifiers where
  isConstruct : Bool := false
  isForeign : Bool := false
  isStatic : Bool := false
  deriving DecidableEq, Repr

/-- The words in front of a method, in any order and number. -/
def modifiers : Parser Modifiers :=
  iterate (fun found => do
    match ← kind with
    | .keyword .construct_ => let _ ← take; return .again { found with isConstruct := true }
    | .keyword .foreign_ => let _ ← take; return .again { found with isForeign := true }
    | .keyword .static_ => let _ ← take; return .again { found with isStatic := true }
    | _ => return .done found) {}

/-- A method.  Only a foreign one may have no body. -/
def method (inner : Nested) : Parser Method := do
  let found ← modifiers
  let (name, kind, parameters) ← methodHead
  let head : MethodHead :=
    ⟨name, kind, parameters, found.isConstruct, found.isForeign, found.isStatic⟩
  if ← accept (.symbol .leftBrace) then
    return .mk head (← blockBody inner)
  else if found.isForeign then
    return .mk head []
  else
    reject .methodBody

/-- Methods up to the closing brace, the opening one taken. -/
def classBody (inner : Nested) : Parser (List Method) :=
  iterate (fun methods => do
    skipLines
    if ← accept (.symbol .rightBrace) then
      return .done methods
    else if ← atEnd then
      reject .classEnd
    else if (← kind) = .symbol .hash then
      skipAttribute
      return .again methods
    else
      let m ← method inner
      endOfStatement
      return .again (methods ++ [m])) []

/-- A class, its keyword taken. -/
def classDef (inner : Nested) (isForeign : Bool) : Parser Stmt := do
  let className ← name .className
  let superclass ←
    if ← accept (.keyword .is_) then some <$> name .superclassName else pure none
  let _ ← expect (.symbol .leftBrace) .classBody
  return .classDef isForeign className superclass (← classBody inner)

/-- The names an import brings in, behind its `for`. -/
def importedNames : Parser (List ImportedName) :=
  iterate (fun names => do
    skipLines
    let imported ← name .importedName
    let knownAs ← if ← accept (.keyword .as_) then some <$> name .importAlias else pure none
    let names := names ++ [⟨imported, knownAs⟩]
    if ← accept (.symbol .comma) then return .again names else return .done names) []

/-- An import, its keyword taken. -/
def importing : Parser Stmt := do
  let path ← expect .string .modulePath
  if ← accept (.keyword .for_) then
    return .importing path (← importedNames)
  else
    return .importing path []

/-- A variable, its keyword taken. -/
def variableDef (inner : Nested) : Parser Stmt := do
  let name ← name .variableName
  if ← accept (.symbol .eq) then
    skipLines
    return .var name (some (← inner.expression))
  else
    return .var name none

/-- A class, an import, a variable or a statement. -/
def definition (inner : Nested) : Parser Stmt := do
  match ← kind with
  | .keyword .class_ =>
    let _ ← take
    classDef inner false
  | .keyword .foreign_ =>
    if (← secondKind) = .keyword .class_ then
      let _ ← take
      let _ ← take
      classDef inner true
    else
      statement inner
  | .keyword .import_ =>
    let _ ← take
    importing
  | .keyword .var_ =>
    let _ ← take
    variableDef inner
  | _ => statement inner

end Grammar
end WrenAnalysis
