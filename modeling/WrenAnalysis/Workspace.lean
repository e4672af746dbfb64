/-
# Workspaces

A workspace keeps the documents that are open, loads what they import, and
publishes an index of all of it whenever no load is under way.  A document whose
imports have to wait becomes a task of the workspace, which is continued or given
up later.  Everything that happens to a workspace is an action.
-/

import WrenAnalysis.Index.Basic
import WrenAnalysis.Resolution.Task

namespace WrenAnalysis

/-- The open documents and all that goes with them. -/
structure Workspace where
  registry : Registry := {}
  library : Library := {}
  /-- The normal paths whose reads are held back. -/
  gates : List String := []
  searchPaths : List String := []
  walkBudget : Nat := Index.defaultBudget
  /-- The index that was published last. -/
  index : Index := {}
  /-- The tasks that wait, by name. -/
  tasks : List (String × Task) := []

/-- What can happen to a workspace. -/
inductive Action where
  /-- A module is registered under an identity as it is; its imports are not followed. -/
  | seed (identity text : String)
  /-- A document has a new text. -/
  | change (identity text : String) (task : Option String)
  /-- A document is opened. -/
  | openDocument (identity text : String) (task : Option String)
  /-- The imports of a text are followed with search paths of their own. -/
  | resolve (text origin : String) (searchPaths : List String) (task : Option String)
  /-- A task that waits goes on. -/
  | poll (task : String)
  /-- A task that waits is given up. -/
  | drop (task : String)
  /-- Reads of a path are held back no longer. -/
  | release (path : String)
  /-- Reads of a path are held back from now on. -/
  | gate (path : String)
  /-- A file gets a text, or becomes unreadable. -/
  | file (path : String) (text : Option String)
  /-- Imports are looked for in one more directory. -/
  | addSearchPath (path : String)
  deriving DecidableEq, Repr

/-- What an action comes to. -/
inductive Outcome where
  | done
  /-- The text does not parse, and nothing has happened. -/
  | refused (error : SyntaxError)
  /-- The document is open, and nothing has happened. -/
  | alreadyOpen
  /-- All imports are followed. -/
  | finished (report : Report)
  /-- The task waits under its name. -/
  | blocked
  /-- The task would have to wait and has no name. -/
  | dropped
  | noTask
  /-- Whether there was a task to give up, or a gate to close. -/
  | was (held : Bool)
  /-- How many reads were let go. -/
  | freed (count : Nat)
  /-- The search paths after one was added. -/
  | searched (paths : List String)
  deriving DecidableEq, Repr

/-- What an action comes to and what it shows on the way. -/
structure Effect where
  outcome : Outcome
  /-- The paths read, in order. -/
  reads : List String := []
  /-- An index was published. -/
  published : Bool := false
  deriving DecidableEq, Repr

/-- The list with a search path, unless one with the same steps is there. -/
def addSearchPath (paths : List String) (path : String) : List String :=
  if paths.any (Path.same path) then paths else paths ++ [path]

namespace Workspace

/-- What the tasks of the workspace draw on. -/
def sources (w : Workspace) (scope : Scope) : Sources where
  library := w.library
  gates := w.gates
  searchPaths :=
    match scope with
    | .workspace => w.searchPaths
    | .own paths => paths

/-- Publishes the index of the registry. -/
def publish (w : Workspace) : Workspace :=
  { w with index := Index.build w.registry w.walkBudget }

/-- Publishes the index of the registry if no load is under way. -/
def publishIfSettled (w : Workspace) : Workspace :=
  if w.registry.isSettled then w.publish else w

/-- The workspace without the task of a name. -/
def forget (w : Workspace) (name : String) : Workspace :=
  { w with tasks := w.tasks.filter (·.1 ≠ name) }

/-- Gives up a task, which is not kept. -/
def abandon (w : Workspace) (t : Task) : Workspace :=
  { w with registry := t.abandon w.registry }

/-- Gives up the task of a name, if there is one. -/
def dropTask (w : Workspace) (name : String) : Workspace :=
  match w.tasks.lookup name with
  | some t => (w.forget name).abandon t
  | none => w

/-- Keeps a task under a name, in the place of an older one, which is given up. -/
def keep (w : Workspace) (name : String) (t : Task) : Workspace :=
  let w := w.dropTask name
  { w with tasks := w.tasks ++ [(name, t)] }

/-- Lets a task run until it is done or only waits.  The task of a document
publishes when it is done and no other load is under way; a task that waits is
kept under its name, or given up without one.  It had issued `seen` reads before. -/
def run (w : Workspace) (name : Option String) (seen : Nat) (t : Task) : Workspace × Effect :=
  let (registry, t) := Task.drain (w.sources t.scope) (w.registry, t)
  let w := { w with registry }
  let reads := t.issued.drop seen
  if t.isDone then
    let published := t.scope = .workspace && registry.isSettled
    (if published then w.publish else w,
      { outcome := .finished (t.report registry), reads, published })
  else
    match name with
    | some name => (w.keep name t, { outcome := .blocked, reads })
    | none => (w.abandon t, { outcome := .dropped, reads })

/-- Follows the imports of a module in the directory `dir`. -/
def follow (w : Workspace) (scope : Scope) (dir : String) (m : Module) (name : Option String) :
    Workspace × Effect :=
  let (registry, t) := Task.start (w.sources scope) scope dir m w.registry
  run { w with registry } name 0 t

/-- Registers a module under an identity as it is. -/
def seed (w : Workspace) (identity text : String) : Workspace × Effect :=
  match Module.parse text with
  | .error e => (w, { outcome := .refused e })
  | .ok m =>
    let w := { w with registry := w.registry.insert identity m }
    (w.publishIfSettled, { outcome := .done, published := w.registry.isSettled })

/-- Registers the new text of a document and follows its imports.  A text that
does not parse leaves the older one in place. -/
def change (w : Workspace) (path text : String) (name : Option String) : Workspace × Effect :=
  match Module.parse text with
  | .error e => (w, { outcome := .refused e })
  | .ok m =>
    let identity := ImportPath.identity path
    let w := { w with registry := w.registry.insert identity m }
    w.follow .workspace (ImportPath.originDir identity) m name

/-- As a change, for a document that is not registered. -/
def openDocument (w : Workspace) (path text : String) (name : Option String) :
    Workspace × Effect :=
  let identity := ImportPath.identity path
  if w.registry.state identity = .ready then (w, { outcome := .alreadyOpen })
  else w.change identity text name

/-- Follows the imports of a text with search paths of its own. -/
def resolve (w : Workspace) (text origin : String) (searchPaths : List String)
    (name : Option String) : Workspace × Effect :=
  match Module.parse text with
  | .error e => (w, { outcome := .refused e })
  | .ok m => w.follow (.own searchPaths) origin m name

/-- Lets the task of a name go on. -/
def poll (w : Workspace) (name : String) : Workspace × Effect :=
  match w.tasks.lookup name with
  | none => (w, { outcome := .noTask })
  | some t => (w.forget name).run (some name) t.issued.length t

/-- Lets go the reads of a path. -/
def release (w : Workspace) (path : String) : Workspace × Effect :=
  let path := Path.normalize path
  let count := Task.total (w.tasks.map fun t => t.2.waitingAt path)
  ({ w with
      gates := w.gates.filter (· ≠ path)
      tasks := w.tasks.map fun t => (t.1, t.2.release path) },
    { outcome := .freed count })

/-- Holds back the reads of a path. -/
def gate (w : Workspace) (path : String) : Workspace × Effect :=
  let path := Path.normalize path
  if path ∈ w.gates then (w, { outcome := .was false })
  else ({ w with gates := w.gates ++ [path] }, { outcome := .was true })

/-- An action on the workspace. -/
def act (w : Workspace) : Action → Workspace × Effect
  | .seed identity text => w.seed identity text
  | .change identity text task => w.change identity text task
  | .openDocument identity text task => w.openDocument identity text task
  | .resolve text origin searchPaths task => w.resolve text origin searchPaths task
  | .poll task => w.poll task
  | .drop task => (w.dropTask task, { outcome := .was (w.tasks.lookup task).isSome })
  | .release path => w.release path
  | .gate path => w.gate path
  | .file path text => ({ w with library := w.library.put path text }, { outcome := .done })
  | .addSearchPath path =>
    let paths := WrenAnalysis.addSearchPath w.searchPaths path
    ({ w with searchPaths := paths }, { outcome := .searched paths })

/-- A workspace with these files, gates, search paths and budget, and nothing open. -/
def fresh (files : List (String × Option String)) (gated searchPaths : List String)
    (walkBudget : Nat) : Workspace where
  library := files.foldl (fun l f => l.put f.1 f.2) {}
  gates := gated.map Path.normalize
  searchPaths := searchPaths
  walkBudget := walkBudget

/-- The names that the document at a path binds, by the index published last. -/
def boundIn (w : Workspace) (path : String) : List Completion :=
  w.index.variablesIn (ImportPath.identity path)

end Workspace
end WrenAnalysis
