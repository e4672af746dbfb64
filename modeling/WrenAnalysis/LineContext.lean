/-
# What stands left of the cursor

While a line is being typed it rarely parses, so help with it looks at its
tokens alone.  Those left of the cursor are swept from right to left
(`LineContext.sweep`), which tells whether the cursor is in an argument list, at
which argument, whose list it is, and what the names before the dots are.
-/

import WrenAnalysis.Token.Lexer

namespace WrenAnalysis

/-- A name with a dot behind it. -/
structure ChainLink where
  text : String
  column : Nat
  isClassShaped : Bool
  nameClass : NameClass
  deriving DecidableEq, Repr

/-- What a name token says as a link. -/
def ChainLink.ofToken (t : Token) : ChainLink :=
  ⟨t.text, t.position.column, t.isClassShaped, t.nameClass⟩

/-- What the tokens left of a cursor say. -/
structure LineContext where
  /-- The cursor is in an argument list that is still open. -/
  inParameterList : Bool := false
  /-- The commas between the cursor and the parenthesis of that list. -/
  activeParameter : Nat := 0
  /-- There is a dot left of the cursor. -/
  afterAnyDot : Bool := false
  /-- The names with a dot behind them, in the order of the text. -/
  chain : List ChainLink := []
  /-- The name directly before the parenthesis of the open list. -/
  callTarget : Option String := none
  deriving DecidableEq, Repr

namespace LineContext

/-- The name closest to the cursor that has a dot behind it. -/
def receiver (c : LineContext) : Option ChainLink := c.chain.getLast?

/-- The sweep at some token: what the tokens right of it say. -/
structure Sweep where
  context : LineContext := {}
  /-- The closing parentheses whose opening ones are still to come. -/
  depth : Nat := 0
  /-- The token to the right is a dot. -/
  beforeDot : Bool := false
  /-- The token to the right opens the argument list of the cursor. -/
  beforeList : Bool := false
  deriving DecidableEq, Repr

namespace Sweep

/-- A token directly before the open list names it, if it is a name. -/
def target (s : Sweep) (t : Token) : Option String :=
  if s.beforeList ∧ t.kind = .name then some t.text else s.context.callTarget

/-- The sweep moved one token to the left. -/
def step (t : Token) (s : Sweep) : Sweep :=
  let context := { s.context with callTarget := s.target t }
  let rest : Sweep := { context, depth := s.depth, beforeDot := t.kind = .symbol .dot }
  match t.kind with
  | .symbol .rightParen => { rest with depth := s.depth + 1 }
  | .symbol .leftParen =>
    if s.depth > 0 then { rest with depth := s.depth - 1 }
    else if context.inParameterList then rest
    else { rest with context := { context with inParameterList := true }, beforeList := true }
  | .symbol .comma =>
    if s.depth = 0 ∧ !context.inParameterList then
      { rest with context := { context with activeParameter := context.activeParameter + 1 } }
    else rest
  | .symbol .dot => { rest with context := { context with afterAnyDot := true } }
  | .name =>
    if s.beforeDot ∧ s.depth = 0 then
      { rest with context := { context with chain := .ofToken t :: context.chain } }
    else rest
  | _ => rest

end Sweep

/-- The context given by the tokens left of a cursor. -/
def ofTokens (ts : List Token) : LineContext := (ts.foldr Sweep.step {}).context

/-- A token that stands at the cursor or left of it, line ends apart. -/
def isVisible (column : Nat) (t : Token) : Bool :=
  t.position.column ≤ column ∧ t.kind ≠ .line ∧ t.kind ≠ .eof

/-- The context of a cursor in front of the character at `column`. -/
def ofText (text : String) (column : Nat) : LineContext :=
  ofTokens ((Token.tokenizePrefix text).filter (isVisible column))

end LineContext
end WrenAnalysis
