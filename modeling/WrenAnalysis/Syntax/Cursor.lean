/-
# Reading a list of tokens

A cursor is the tokens still ahead and the token that stands behind the last
one, which marks the end.  A parser takes a cursor to a value and a later
cursor, or refuses the token it is at.  All repetition goes through
`Parser.iterate`, whose rounds each take at least one token.
-/

import WrenAnalysis.Syntax.Error

namespace WrenAnalysis

/-- A place in a list of tokens. -/
structure Cursor where
  /-- The tokens still ahead. -/
  ahead : List Token
  /-- What is seen once there are none. -/
  stop : Token
  deriving DecidableEq, Repr

namespace Cursor

/-- The end behind the last of `ts`: the token itself if it marks the end, else
a mark directly behind it. -/
def stopOf (ts : List Token) : Token :=
  match ts.getLast? with
  | none => .eof .start
  | some t => if t.kind = .eof then t else .eof (t.position.advance t.length)

/-- The cursor at the first of `ts`. -/
def ofTokens (ts : List Token) : Cursor := ⟨ts, stopOf ts⟩

/-- The token at the cursor. -/
def current (c : Cursor) : Token := c.ahead.headD c.stop

/-- The token behind that one. -/
def second (c : Cursor) : Token := c.ahead.tail.headD c.stop

/-- Nothing is left to read. -/
def atEnd (c : Cursor) : Bool := c.ahead.isEmpty || c.current.kind = .eof

/-- The cursor behind its token; at the end it stays. -/
def advance (c : Cursor) : Cursor := if c.atEnd then c else { c with ahead := c.ahead.tail }

/-- The cursor behind the newlines at it. -/
def skipLines (c : Cursor) : Cursor := { c with ahead := c.ahead.dropWhile (·.kind = .line) }

/-- The cursor at the newline or the end that closes a line. -/
def skipToLineEnd (c : Cursor) : Cursor :=
  { c with ahead := c.ahead.dropWhile fun t => t.kind ≠ .line ∧ t.kind ≠ .eof }

end Cursor

/-- A want that was not met, with the cursor where it was not. -/
structure Rejection where
  expected : Expectation
  cursor : Cursor
  deriving DecidableEq, Repr

/-- The error that a rejection is reported as. -/
def Rejection.toError (r : Rejection) : SyntaxError := .unexpected r.expected r.cursor.current

/-- Takes a cursor to a value and a later cursor. -/
def Parser (α : Type) : Type := Cursor → Except Rejection (α × Cursor)

namespace Parser

/-- One parser after another; the first rejection stands. -/
instance : Monad Parser where
  pure a := fun c => .ok (a, c)
  bind p f := fun c =>
    match p c with
    | .ok (a, c') => f a c'
    | .error r => .error r

/-- Refuses the current token. -/
def reject {α : Type} (expected : Expectation) : Parser α := fun c => .error ⟨expected, c⟩

/-- The kind of the current token. -/
def kind : Parser Kind := fun c => .ok (c.current.kind, c)

/-- The kind of the token behind the current one. -/
def secondKind : Parser Kind := fun c => .ok (c.second.kind, c)

/-- Nothing is left to read. -/
def atEnd : Parser Bool := fun c => .ok (c.atEnd, c)

/-- Takes the current token. -/
def take : Parser Token := fun c => .ok (c.current, c.advance)

/-- Takes the current token if it has the kind. -/
def accept (k : Kind) : Parser Bool := fun c =>
  if c.current.kind = k then .ok (true, c.advance) else .ok (false, c)

/-- Takes the current token, which has to have the kind. -/
def expect (k : Kind) (expected : Expectation) : Parser Token := fun c =>
  if c.current.kind = k then .ok (c.current, c.advance) else .error ⟨expected, c⟩

/-- Takes a name. -/
def name (expected : Expectation) : Parser Token := expect .name expected

/-- Skips newlines. -/
def skipLines : Parser Unit := fun c => .ok ((), c.skipLines)

/-- Skips newlines if there are any and a token of the kind follows them. -/
def skipLinesBefore (k : Kind) : Parser Bool := fun c =>
  if c.current.kind = .line ∧ c.skipLines.current.kind = k then .ok (true, c.skipLines)
  else .ok (false, c)

/-- Skips an attribute, which reaches to the end of its line. -/
def skipAttribute : Parser Unit := fun c => .ok ((), c.skipToLineEnd)

/-- What a round of a repetition comes to. -/
inductive Round (σ α : Type) where
  /-- Another round follows. -/
  | again (state : σ)
  /-- The repetition is over. -/
  | done (value : α)

/-- Repeats a step until it is done.  A round that is to be followed by another
one has to take a token. -/
def iterate {σ α : Type} (step : σ → Parser (Round σ α)) (s : σ) : Parser α := fun c =>
  match step s c with
  | .error r => .error r
  | .ok (.done a, c') => .ok (a, c')
  | .ok (.again s', c') =>
    if c'.ahead.length < c.ahead.length then iterate step s' c' else .error ⟨.anyToken, c'⟩
termination_by c => c.ahead.length

end Parser
end WrenAnalysis
