/-
# Lexical errors

A text can fail to be a sequence of tokens for six reasons.  The error names
the reason and the start of the construct that is at fault.
-/

import WrenAnalysis.Text.Position

namespace WrenAnalysis

/-- Why a text is not a sequence of tokens. -/
inductive LexicalFault where
  /-- No token starts with this character. -/
  | unrecognized (c : Char)
  | unterminatedString
  | unterminatedRawString
  /-- The text ends behind a backslash. -/
  | incompleteEscape
  | unterminatedInterpolation
  | unterminatedComment
  deriving DecidableEq, Repr, Inhabited

namespace LexicalFault

/-- The wording of each reason. -/
def message : LexicalFault → String
  | unrecognized c => "Unrecognized character '" ++ c.toString ++ "'"
  | unterminatedString => "Unterminated string"
  | unterminatedRawString => "Unterminated raw string"
  | incompleteEscape => "Incomplete escape sequence"
  | unterminatedInterpolation => "Unterminated string interpolation"
  | unterminatedComment => "Unterminated block comment"

end LexicalFault

/-- A fault and the start of the construct it is in. -/
structure LexicalError where
  fault : LexicalFault
  position : Position
  deriving DecidableEq, Repr, Inhabited

namespace LexicalError

/-- The whole message, with its place. -/
def message (e : LexicalError) : String := e.fault.message ++ " at " ++ e.position.text

end LexicalError
end WrenAnalysis
