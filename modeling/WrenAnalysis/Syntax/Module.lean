/-
# Parsing a module

The levels of the grammar are stacked `maxNesting` deep, and a module is the
definitions that the outermost level reads from the tokens of a text.
-/

import WrenAnalysis.Syntax.Grammar.Statement
import WrenAnalysis.Token.Lexer

namespace WrenAnalysis

/-- The constructs of the language with `depth` levels of nesting left. -/
def Nested.within : (depth : Nat) → Nested
  | 0 => .exhausted
  | depth + 1 =>
    let inner := within depth
    { definition := Grammar.definition inner
      branch := Grammar.statement inner
      expression := Grammar.assignment inner
      conditional := Grammar.conditional inner
      operand := Grammar.binary inner
      unary := Grammar.unary inner }

namespace Grammar

open WrenAnalysis.Parser

/-- The levels a tree may have. -/
def maxNesting : Nat := 64

/-- Definitions up to the end of the text. -/
def module (inner : Nested) : Parser Module := do
  skipLines
  iterate (fun statements => do
    if ← atEnd then
      return .done ⟨statements⟩
    else if (← kind) = .symbol .hash then
      skipAttribute
      skipLines
      return .again statements
    else
      let s ← inner.definition
      if (← kind) = .symbol .rightBrace then
        reject .newline
      else
        endOfStatement
        return .again (statements ++ [s])) []

end Grammar

namespace Module

/-- The module written by a list of tokens. -/
def ofTokens (ts : List Token) : Except SyntaxError Module :=
  match Grammar.module (.within Grammar.maxNesting) (.ofTokens ts) with
  | .ok (m, _) => .ok m
  | .error r => .error r.toError

/-- The module written by a text. -/
def parse (text : String) : Except SyntaxError Module :=
  match Token.tokenize text with
  | .ok ts => ofTokens ts
  | .error e => .error (.lexical e)

end Module
end WrenAnalysis
