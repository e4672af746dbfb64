/-
# Names and what their spelling says

The language tells fields from other names by leading underscores, and by
custom a class is named with an uppercase first letter.
-/

import WrenAnalysis.Text.Numeric
import WrenAnalysis.Text.Uppercase

namespace WrenAnalysis

/-- What a name stands for, read off its leading underscores. -/
inductive NameClass where
  /-- A variable, a parameter or a method. -/
  | plain
  /-- A field of an instance: one underscore. -/
  | field
  /-- A field of a class: two underscores or more. -/
  | staticField
  deriving DecidableEq, Repr, Inhabited

namespace NameClass

/-- The class of a name given by its characters. -/
def ofChars : List Char → NameClass
  | '_' :: '_' :: _ => staticField
  | '_' :: _ => field
  | _ => plain

/-- The class of a name. -/
def of (text : String) : NameClass := ofChars text.toList

end NameClass

namespace Text

/-- The first character is uppercase, as in the name of a class. -/
def isClassShaped (text : String) : Bool :=
  match text.toList with
  | [] => false
  | c :: _ => isUppercase c

/-- A name starts with a letter or an underscore. -/
def isNameStart (c : Char) : Bool := isAlphabetic c || c == '_'

/-- A name goes on with letters, digits and underscores. -/
def isNamePart (c : Char) : Bool := isAlphanumeric c || c == '_'

end Text
end WrenAnalysis
