/-
# Tokens

A token keeps its kind, its characters and the position of the first of them.
Its length is the number of its characters.
-/

import WrenAnalysis.Text.Position
import WrenAnalysis.Text.Quoted
import WrenAnalysis.Token.Kind
import WrenAnalysis.Token.Name

namespace WrenAnalysis

/-- A piece of the text with its place. -/
structure Token where
  kind : Kind
  text : String
  position : Position
  deriving DecidableEq, Repr, Inhabited

namespace Token

/-- The number of characters. -/
def length (t : Token) : Nat := t.text.length

/-- The end of the text, at `p`. -/
def eof (p : Position) : Token := ⟨.eof, "", p⟩

/-- A name whose first character is uppercase. -/
def isClassShaped (t : Token) : Bool := t.kind = .name && Text.isClassShaped t.text

/-- The class of the token's text, whatever its kind. -/
def nameClass (t : Token) : NameClass := .of t.text

/-- The token as messages name it. -/
def describe (t : Token) : String :=
  match t.kind with
  | .eof => "end of input"
  | .line => "newline"
  | _ => "'" ++ t.text ++ "'"

/-- The token with its kind and its place. -/
def display (t : Token) : String :=
  t.kind.label ++ " " ++ Text.quoted t.text ++ " @" ++ t.position.text

end Token
end WrenAnalysis
