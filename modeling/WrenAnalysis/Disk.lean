/-
# The files of a machine

A disk is a finite tree of files and directories.  A path is followed from the
working directory or from the root, step by step, and may lead to nothing, to a
directory, or through something that is no directory.
-/

import WrenAnalysis.Path

namespace WrenAnalysis

/-- What stands at the end of a path. -/
inductive DiskNode where
  | file (text : String)
  | directory
  deriving DecidableEq, Repr

/-- Why a path does not lead to a text. -/
inductive DiskError where
  | notFound
  | notADirectory
  | isADirectory
  | nameTooLong
  deriving DecidableEq, Repr

/-- The wording of the operating system. -/
def DiskError.message : DiskError → String
  | notFound => "No such file or directory (os error 2)"
  | notADirectory => "Not a directory (os error 20)"
  | isADirectory => "Is a directory (os error 21)"
  | nameTooLong => "File name too long (os error 36)"

/-- Files and directories by their names from the root on, with a working directory. -/
structure Disk where
  nodes : List (List String × DiskNode) := []
  /-- The names of the working directory. -/
  cwd : List String := []
  deriving DecidableEq, Repr

namespace Disk

/-- One step from a place, with no look at the disk. -/
def advance (place : List String) : Path.Component → List String
  | .root => []
  | .current => place
  | .parent => place.dropLast
  | .normal name => place ++ [name]

/-- The place of a path, with no look at the disk. -/
def locate (d : Disk) (path : String) : List String :=
  (Path.components path).foldl advance d.cwd

/-- The places that a path leads through, with no look at the disk. -/
def waypoints (d : Disk) (path : String) : List (List String) :=
  let steps := Path.components path
  (List.range (steps.length + 1)).map fun n => (steps.take n).foldl advance d.cwd

/-- The text of an absolute path with these names. -/
def absolute (names : List String) : String := "/" ++ "/".intercalate names

/-- What stands under these names.  What leads to a node is a directory. -/
def node? (d : Disk) (names : List String) : Option DiskNode :=
  match d.nodes.lookup names with
  | some n => some n
  | none =>
    if d.nodes.any (fun n => names.isPrefixOf n.1) ∨ names.isPrefixOf d.cwd then some .directory
    else none

/-- A path has fewer bytes than this. -/
def pathLimit : Nat := 4096

/-- A name has at most this many bytes. -/
def nameLimit : Nat := 255

/-- One more name on the way. -/
def enter (d : Disk) (place : List String) (name : String) : Except DiskError (List String) :=
  match d.node? place with
  | none => .error .notFound
  | some (.file _) => .error .notADirectory
  | some .directory =>
    if name = "" ∨ name = "." then .ok place
    else if name = ".." then .ok place.dropLast
    else if name.utf8ByteSize > nameLimit then .error .nameTooLong
    else if (d.node? (place ++ [name])).isSome then .ok (place ++ [name])
    else .error .notFound

/-- The names a path leads to. -/
def follow (d : Disk) (path : String) : Except DiskError (List String) :=
  if path.isEmpty then .error .notFound
  else if path.utf8ByteSize ≥ pathLimit then .error .nameTooLong
  else
    let start := if Path.isAbsolute path then [] else d.cwd
    ((Path.segments path.toList).map String.ofList).foldlM (d.enter ·) start

/-- What a path leads to. -/
def find (d : Disk) (path : String) : Except DiskError DiskNode :=
  match d.follow path with
  | .error e => .error e
  | .ok names =>
    match d.node? names with
    | some n => .ok n
    | none => .error .notFound

/-- A path leads to a file. -/
def isFile (d : Disk) (path : String) : Bool :=
  match d.find path with
  | .ok (.file _) => true
  | _ => false

/-- The text of the file that a path leads to. -/
def read (d : Disk) (path : String) : Except DiskError String :=
  match d.find path with
  | .ok (.file text) => .ok text
  | .ok .directory => .error .isADirectory
  | .error e => .error e

end Disk
end WrenAnalysis
