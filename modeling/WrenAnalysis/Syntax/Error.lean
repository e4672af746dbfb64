/-
# Syntax errors

A text is refused at the first token the grammar cannot go on with.  The error
says what the grammar wanted there and what it found; a text that is no
sequence of tokens is refused for that.
-/

import WrenAnalysis.Token.Basic
import WrenAnalysis.Token.Fault

namespace WrenAnalysis

/-- What the grammar wants at some token. -/
inductive Expectation where
  | shallowerNesting
  | newline
  | blockEnd
  | className
  | superclassName
  | classBody
  | classEnd
  | methodName
  | methodBody
  | setterOpen
  | setterParameter
  | setterClose
  | parameterName
  | parametersClose
  | subscriptParametersClose
  | modulePath
  | importedName
  | importAlias
  | variableName
  | conditionOpen (keyword : Keyword)
  | conditionClose
  | loopName
  | loopIn
  | loopClose
  | assignable
  | conditionalColon
  | calledName
  | superName
  | argumentsClose
  | subscriptClose
  | groupClose
  | listClose
  | mapColon
  | mapClose
  | blockParameterName
  | blockParametersClose
  | expression
  /-- Any token: a repetition goes on only over tokens. -/
  | anyToken
  deriving DecidableEq, Repr, Inhabited

namespace Expectation

/-- The wording of each want. -/
def text : Expectation → String
  | shallowerNesting => "shallower nesting"
  | newline => "newline"
  | blockEnd => "'\x7d'"
  | className => "class name"
  | superclassName => "superclass name"
  | classBody => "'\x7b' after class name"
  | classEnd => "'\x7d' after class body"
  | methodName => "method name"
  | methodBody => "'\x7b' before method body"
  | setterOpen => "'(' after '='"
  | setterParameter => "setter parameter"
  | setterClose => "')' after setter parameter"
  | parameterName => "parameter name"
  | parametersClose => "')' after parameters"
  | subscriptParametersClose => "']'"
  | modulePath => "module path string"
  | importedName => "imported variable name"
  | importAlias => "alias after 'as'"
  | variableName => "variable name"
  | conditionOpen keyword => "'(' after '" ++ keyword.spelling ++ "'"
  | conditionClose => "')' after condition"
  | loopName => "loop variable name"
  | loopIn => "'in' after loop variable"
  | loopClose => "')' after loop expression"
  | assignable => "assignable target before '='"
  | conditionalColon => "':' in conditional expression"
  | calledName => "method name after '.'"
  | superName => "method name after 'super.'"
  | argumentsClose => "')' after arguments"
  | subscriptClose => "']' after subscript"
  | groupClose => "')' after expression"
  | listClose => "']' after list elements"
  | mapColon => "':' after map key"
  | mapClose => "'\x7d' after map entries"
  | blockParameterName => "block parameter name"
  | blockParametersClose => "'|' after block parameters"
  | expression => "expression"
  | anyToken => "token"

end Expectation

/-- Why a text is not a module. -/
inductive SyntaxError where
  /-- The text is no sequence of tokens. -/
  | lexical (e : LexicalError)
  /-- The grammar cannot go on at a token. -/
  | unexpected (expected : Expectation) (found : Token)
  deriving DecidableEq, Repr

namespace SyntaxError

/-- Where the error is. -/
def position : SyntaxError → Position
  | lexical e => e.position
  | unexpected _ found => found.position

/-- What was wanted there. -/
def expected : SyntaxError → String
  | lexical _ => "valid token"
  | unexpected expected _ => expected.text

/-- What stands there. -/
def found : SyntaxError → String
  | lexical e => e.fault.message
  | unexpected _ found => found.describe

/-- The whole message, with its place. -/
def message (e : SyntaxError) : String :=
  "expected " ++ e.expected ++ ", found " ++ e.found ++ " at " ++ e.position.text

end SyntaxError
end WrenAnalysis
