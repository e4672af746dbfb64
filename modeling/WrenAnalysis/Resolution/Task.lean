/-
# Resolving imports

A task follows the imports of a module, and of every file it loads, until all
are registered.  Files are read while other things happen, so a task is data: the
reads it has issued and not consumed, the identities it has marked pending, and
its report so far.  A read holds the content of its file as of its issue.  It can
be consumed at once, unless a gate on its path was closed at its issue; then it
waits until the gate is opened.

The reads of a task form a queue.  The task takes the read at its head
(`Task.turn`): one that waits is put aside, any other is consumed, which may issue
further reads at the end of the queue.
-/

import WrenAnalysis.ImportPath
import WrenAnalysis.Registry
import WrenAnalysis.Resolution.Warning
import WrenAnalysis.Syntax.Module
import WrenAnalysis.Syntax.Outline

namespace WrenAnalysis

/-- A read that was issued and not consumed. -/
structure Load where
  identity : String
  path : String
  /-- The content of the file when the read was issued. -/
  content : Except ReadError String
  /-- A gate holds the read back. -/
  waiting : Bool

namespace Load

/-- The module that a read yields, or why there is none. -/
def parse (l : Load) : Except Warning Module :=
  match l.content with
  | .error e => .error (.readFailure l.identity e)
  | .ok text =>
    match Module.parse text with
    | .error e => .error (.badSyntax l.identity e)
    | .ok m => .ok m

/-- How many imports the file has; none if it yields no module. -/
def importCount (l : Load) : Nat :=
  match l.parse with
  | .ok m => m.imports.length
  | .error _ => 0

/-- The directory that the imports of the file are taken from. -/
def directory (l : Load) : String := (Path.parent? l.path).getD "."

end Load

/-- What a resolution draws on. -/
structure Sources where
  library : Library
  /-- The paths whose reads are held back. -/
  gates : List String
  searchPaths : List String

/-- The search paths a task uses. -/
inductive Scope where
  /-- Those of the workspace, for a document of it. -/
  | workspace
  /-- Its own. -/
  | own (searchPaths : List String)
  deriving DecidableEq, Repr

/-- A resolution under way. -/
structure Task where
  scope : Scope
  /-- The reads to be taken up, in order. -/
  queue : List Load := []
  /-- The reads that were taken up and wait. -/
  parked : List Load := []
  /-- The identities it has marked pending and not finished. -/
  claimed : List String := []
  /-- The paths of all reads it has issued, in order. -/
  issued : List String := []
  loaded : List String := []
  warnings : List Warning := []

namespace Task

/-- All reads that were issued and not consumed. -/
def inFlight (t : Task) : List Load := t.queue ++ t.parked

/-- No read is left. -/
def isDone (t : Task) : Bool := t.inFlight.isEmpty

/-- The task with one more warning. -/
def warn (t : Task) (w : Warning) : Task := { t with warnings := t.warnings ++ [w] }

/-- The task with one more read and the claim to its identity. -/
def issue (t : Task) (l : Load) : Task :=
  { t with
    queue := t.queue ++ [l]
    claimed := if l.identity ∈ t.claimed then t.claimed else t.claimed ++ [l.identity]
    issued := t.issued ++ [l.path] }

/-- Follows one import of a file in the directory `dir`.  An import any of whose
candidates is ready or pending needs nothing; otherwise its first candidate that
exists is read. -/
def follow (src : Sources) (dir : String) (s : Registry × Task) (literal : String) :
    Registry × Task :=
  let (r, t) := s
  if ImportPath.isBuiltin literal then (r, t)
  else
    let file := ImportPath.file literal
    let candidates := ImportPath.candidates dir file src.searchPaths
    if candidates.any fun c => r.state (ImportPath.identity c) ≠ .absent then (r, t)
    else
      match candidates.find? src.library.contains with
      | none => (r, t.warn (.importNotFound file dir))
      | some path =>
        let identity := ImportPath.identity path
        match r.begin? identity with
        | none => (r, t)
        | some r =>
          (r, t.issue ⟨identity, path, src.library.read path, Path.normalize path ∈ src.gates⟩)

/-- Follows the imports of a module in the directory `dir`, in order. -/
def followAll (src : Sources) (dir : String) (m : Module) (s : Registry × Task) :
    Registry × Task :=
  m.importLiterals.foldl (follow src dir) s

/-- Consumes a read, which is no longer in flight.  Its module is registered and
its imports are followed, unless the identity is no longer pending. -/
def consume (src : Sources) (s : Registry × Task) (l : Load) : Registry × Task :=
  let (r, t) := s
  let t := { t with claimed := t.claimed.filter (· ≠ l.identity) }
  match l.parse with
  | .error w => (r.complete l.identity none, t.warn w)
  | .ok m =>
    match r.complete? l.identity (some m) with
    | none => (r, t)
    | some r => followAll src l.directory m (r, { t with loaded := t.loaded ++ [l.identity] })

/-- Takes up the read at the head of the queue; nothing without one. -/
def turn? (src : Sources) (s : Registry × Task) : Option (Registry × Task) :=
  match s.2.queue with
  | [] => none
  | l :: queue =>
    let t := { s.2 with queue }
    if l.waiting then some (s.1, { t with parked := t.parked ++ [l] })
    else some (consume src (s.1, t) l)

/-- Takes up reads until the queue is empty, at most `turns` of them. -/
def drainUpTo (src : Sources) : (turns : Nat) → Registry × Task → Registry × Task
  | 0, s => s
  | turns + 1, s =>
    match turn? src s with
    | none => s
    | some s => drainUpTo src turns s

/-- How many imports a file has; none if it does not parse. -/
def fileImports : Option String → Nat
  | none => 0
  | some text =>
    match Module.parse text with
    | .ok m => m.imports.length
    | .error _ => 0

/-- The sum of numbers. -/
def total (counts : List Nat) : Nat := counts.foldr (· + ·) 0

/-- More reads than these a task cannot take up now: those in its queue, one for
each import of those, and one for each import of a file of the library, which is
registered at most once under each of its normal paths. -/
def turnBound (library : Library) (t : Task) : Nat :=
  total (t.queue.map fun l => 1 + l.importCount) +
    library.spellings * total (library.entries.map fun e => fileImports e.2)

/-- Takes up reads until the queue is empty. -/
def drain (src : Sources) (s : Registry × Task) : Registry × Task :=
  drainUpTo src (turnBound src.library s.2) s

/-- A task that follows the imports of a module in the directory `dir`. -/
def start (src : Sources) (scope : Scope) (dir : String) (m : Module) (r : Registry) :
    Registry × Task :=
  followAll src dir m (r, { scope })

/-- A read held back by the gate on a path. -/
def waitsAt (path : String) (l : Load) : Bool := Path.normalize l.path = path

/-- Lets go the reads held back by the gate on a path.  Those put aside go to the
end of the queue. -/
def release (path : String) (t : Task) : Task :=
  let free := fun (l : Load) => if waitsAt path l then { l with waiting := false } else l
  { t with
    queue := t.queue.map free ++ (t.parked.filter (waitsAt path)).map free
    parked := t.parked.filter fun l => !waitsAt path l }

/-- The reads held back by the gate on a path. -/
def waitingAt (path : String) (t : Task) : Nat :=
  (t.inFlight.filter fun l => l.waiting && waitsAt path l).length

/-- The registry without the claims of a task that is given up. -/
def abandon (t : Task) (r : Registry) : Registry :=
  t.claimed.foldl (fun r identity => r.complete identity none) r

/-- The report of a task that is done. -/
def report (t : Task) (r : Registry) : Report := ⟨t.loaded, t.warnings, r.isSettled⟩

end Task
end WrenAnalysis
