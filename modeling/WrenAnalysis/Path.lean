/-
# Paths

A path is text: parts with slashes between them, from the root of the file
system or from wherever it is taken to start.  What it means is its list of
components, in which repeated slashes, slashes at the end and inner dots do not
show.  All work on paths is on their text and their components; no file system
is asked.
-/

namespace WrenAnalysis
namespace Path

/-- A step of a path. -/
inductive Component where
  /-- The slash in front of an absolute path. -/
  | root
  /-- The dot in front of a relative path. -/
  | current
  /-- Two dots. -/
  | parent
  | normal (name : String)
  deriving DecidableEq, Repr, Inhabited

/-- The parts between the slashes; there is one more than there are slashes. -/
def segments : List Char → List (List Char)
  | [] => [[]]
  | c :: cs =>
    if c = '/' then [] :: segments cs
    else
      match segments cs with
      | [] => [[c]]
      | s :: ss => (c :: s) :: ss

/-- The slash or the dot that starts a path, and the parts behind it. -/
def split : List Char → List Char × List (List Char)
  | '/' :: cs => (['/'], segments cs)
  | ['.'] => (['.'], [])
  | '.' :: '/' :: cs => (['.'], segments ('/' :: cs))
  | cs => ([], segments cs)

/-- A part that is no step: nothing between two slashes, or a dot. -/
def isSkipped (segment : List Char) : Bool := segment = [] || segment = ['.']

/-- The step that a part is. -/
def Component.ofSegment (segment : List Char) : Component :=
  if segment = ['.', '.'] then .parent else .normal (String.ofList segment)

/-- The step that the start of a path is. -/
def Component.ofLead : List Char → List Component
  | ['/'] => [.root]
  | ['.'] => [.current]
  | _ => []

/-- The steps of a path. -/
def components (path : String) : List Component :=
  let (lead, parts) := split path.toList
  Component.ofLead lead ++ (parts.filter fun s => !isSkipped s).map .ofSegment

/-- Two paths have the same steps. -/
def same (a b : String) : Bool := components a = components b

/-- The path starts at the root. -/
def isAbsolute (path : String) : Bool := path.toList.head? = some '/'

/-- A path taken from the directory `base`.  An absolute path is taken as it is. -/
def join (base path : String) : String :=
  if isAbsolute path then path
  else if base.toList.getLast?.all (· = '/') then base ++ path
  else base ++ "/" ++ path

/-- The list without the parts at its end that are no steps. -/
def trimEnd (parts : List (List Char)) : List (List Char) :=
  (parts.reverse.dropWhile isSkipped).reverse

/-- The path without its last step; the root and the empty path have none. -/
def parent? (path : String) : Option String :=
  let (lead, parts) := split path.toList
  match trimEnd parts with
  | [] => if lead = ['.'] then some "" else none
  | p :: ps => some (String.ofList (lead ++ ['/'].intercalate (trimEnd (p :: ps).dropLast)))

/-- One step taken from a path without inner dots.  Two dots take back a named
step and are kept where there is none. -/
def step (done : List Component) : Component → List Component
  | .current => done
  | .parent =>
    match done.getLast? with
    | some (.normal _) => done.dropLast
    | _ => done ++ [.parent]
  | c => done ++ [c]

/-- The steps without dots, and with as few double dots as can be. -/
def normalSteps (cs : List Component) : List Component := cs.foldl step []

/-- The text of a step. -/
def Component.text : Component → String
  | .root => "/"
  | .current => "."
  | .parent => ".."
  | .normal name => name

/-- The text of a path with these steps. -/
def render (cs : List Component) : String := cs.foldl (fun path c => join path c.text) ""

/-- The path written with as few steps as can be, `.` if there are none. -/
def normalize (path : String) : String :=
  let text := render (normalSteps (components path))
  if text.isEmpty then "." else text

/-- The path and what is left when its steps are dropped from the end. -/
def ancestorsUpTo : Nat → String → List String
  | 0, path => [path]
  | n + 1, path =>
    match parent? path with
    | none => [path]
    | some up => path :: ancestorsUpTo n up

/-- The path and every directory above it, from the inside out. -/
def ancestors (path : String) : List String := ancestorsUpTo path.length path

end Path
end WrenAnalysis
