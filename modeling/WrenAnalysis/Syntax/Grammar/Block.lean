/-
# Blocks and lists

The productions that repeat others: statements up to a closing brace, and
expressions, map entries and names with commas between them.  Newlines may
stand around every item.
-/

import WrenAnalysis.Syntax.Grammar.Nested

namespace WrenAnalysis
namespace Grammar

open WrenAnalysis.Parser

/-- A statement ends at a newline, a closing brace or the end of the text.  Only
the newlines are taken. -/
def endOfStatement : Parser Unit := do
  match ← kind with
  | .line => skipLines
  | .symbol .rightBrace => return
  | .eof => return
  | _ => reject .newline

/-- Statements up to the closing brace, the opening one taken. -/
def blockBody (inner : Nested) : Parser (List Stmt) :=
  iterate (fun body => do
    skipLines
    if ← accept (.symbol .rightBrace) then
      return .done body
    else if ← atEnd then
      reject .blockEnd
    else if (← kind) = .symbol .hash then
      skipAttribute
      return .again body
    else
      let s ← inner.definition
      endOfStatement
      return .again (body ++ [s])) []

/-- Expressions up to the closing symbol.  A comma may stand behind the last. -/
def argumentsUntil (inner : Nested) (close : Symbol) (unclosed : Expectation) :
    Parser (List Expr) :=
  iterate (fun arguments => do
    skipLines
    if ← accept (.symbol close) then
      return .done arguments
    else
      let e ← inner.expression
      skipLines
      if ← accept (.symbol .comma) then
        return .again (arguments ++ [e])
      else
        let _ ← expect (.symbol close) unclosed
        return .done (arguments ++ [e])) []

/-- Keys and values up to the closing brace, the opening one taken. -/
def mapEntries (inner : Nested) : Parser (List Entry) :=
  iterate (fun entries => do
    skipLines
    if ← accept (.symbol .rightBrace) then
      return .done entries
    else
      let key ← inner.expression
      skipLines
      let _ ← expect (.symbol .colon) .mapColon
      skipLines
      let value ← inner.expression
      skipLines
      if ← accept (.symbol .comma) then
        return .again (entries ++ [.mk key value])
      else
        let _ ← expect (.symbol .rightBrace) .mapClose
        return .done (entries ++ [.mk key value])) []

/-- Names with commas between them up to the closing symbol.  No comma stands
behind the last. -/
def namesUntil (close : Symbol) (unclosed : Expectation) : Parser (List Token) := do
  skipLines
  if ← accept (.symbol close) then
    return []
  else
    iterate (fun names => do
      let n ← name .parameterName
      skipLines
      if ← accept (.symbol .comma) then
        skipLines
        return .again (names ++ [n])
      else
        let _ ← expect (.symbol close) unclosed
        return .done (names ++ [n])) []

/-- The parameters of a block behind its first bar. -/
def blockParameters : Parser (List Token) :=
  iterate (fun names => do
    let n ← name .blockParameterName
    if ← accept (.symbol .comma) then
      return .again (names ++ [n])
    else
      let _ ← expect (.symbol .pipe) .blockParametersClose
      return .done (names ++ [n])) []

/-- A block behind a call, its opening brace taken. -/
def blockArgument (inner : Nested) : Parser Block := do
  if ← accept (.symbol .pipePipe) then
    return .mk [] (← blockBody inner)
  else if ← accept (.symbol .pipe) then
    let parameters ← blockParameters
    return .mk parameters (← blockBody inner)
  else
    return .mk [] (← blockBody inner)

end Grammar
end WrenAnalysis
