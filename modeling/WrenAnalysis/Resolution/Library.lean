/-
# The files imports are read from

A library is a finite set of files, each under the key of its path.  A file may
be there and still refuse to be read.
-/

import WrenAnalysis.Path

namespace WrenAnalysis

/-- Why a file was not read. -/
inductive ReadError where
  /-- The file is there and cannot be read. -/
  | unreadable (key : String)
  /-- There is no such file. -/
  | missing (key : String)
  deriving DecidableEq, Repr

/-- The wording of each reason. -/
def ReadError.message : ReadError → String
  | unreadable key => key ++ " is not readable"
  | missing key => key ++ " does not exist"

/-- The files that can be imported. -/
structure Library where
  /-- What a file is kept under; spellings of one path share it. -/
  key : String → String := Path.normalize
  /-- How many normal paths there are at most for one key. -/
  spellings : Nat := 1
  /-- The text of each file, or nothing for one that cannot be read. -/
  entries : List (String × Option String) := []

namespace Library

/-- The file at a path, if there is one. -/
def find? (l : Library) (path : String) : Option (Option String) := l.entries.lookup (l.key path)

/-- There is a file at a path. -/
def contains (l : Library) (path : String) : Bool := (l.find? path).isSome

/-- The text at a path. -/
def read (l : Library) (path : String) : Except ReadError String :=
  match l.find? path with
  | some (some text) => .ok text
  | some none => .error (.unreadable (l.key path))
  | none => .error (.missing (l.key path))

/-- The list with a file under a key, in the place of an older one or at the end. -/
def putEntry (key : String) (text : Option String) :
    List (String × Option String) → List (String × Option String)
  | [] => [(key, text)]
  | e :: es => if e.1 = key then (key, text) :: es else e :: putEntry key text es

/-- The library with a file at a path, in the place of an older one. -/
def put (l : Library) (path : String) (text : Option String) : Library :=
  { l with entries := putEntry (l.key path) text l.entries }

end Library
end WrenAnalysis
