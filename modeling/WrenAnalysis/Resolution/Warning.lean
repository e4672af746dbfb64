/-
# What a resolution reports

A resolution never fails as a whole.  It reports the files it loaded and a
warning for each import or file it could do nothing with.
-/

import WrenAnalysis.Resolution.Library
import WrenAnalysis.Syntax.Error

namespace WrenAnalysis

/-- An import or a file that a resolution could do nothing with. -/
inductive Warning where
  /-- No candidate of an import exists. -/
  | importNotFound (file origin : String)
  | readFailure (identity : String) (error : ReadError)
  /-- The file was found and does not parse. -/
  | badSyntax (identity : String) (error : SyntaxError)
  deriving DecidableEq, Repr

/-- The wording of each warning. -/
def Warning.message : Warning → String
  | importNotFound file origin =>
    "couldn't find " ++ file ++ " in any path (imported from " ++ origin ++ ")"
  | readFailure identity error => "error reading " ++ identity ++ ": " ++ error.message
  | badSyntax identity error => identity ++ ": " ++ error.message

/-- What a resolution has done. -/
structure Report where
  /-- The identities it parsed and registered, in the order of their loads' ends. -/
  loaded : List String
  warnings : List Warning
  /-- No load of any resolution was under way at its end. -/
  settled : Bool
  deriving DecidableEq, Repr

end WrenAnalysis
