/-
# Settings of an analysis

The search paths and the budget of an analysis.  They come in layers: a settings
file, a list of paths from the environment, and single paths; a later layer only
adds to the search paths.

How the text of a settings file is written is left open: a reader takes it apart into
entries (`Settings.Reader`), and what the entries say is told here.
-/

import WrenAnalysis.Disk
import WrenAnalysis.Text.Word
import WrenAnalysis.Workspace

namespace WrenAnalysis

/-- What an analysis goes by. -/
structure Settings where
  searchPaths : List String := []
  walkBudget : Nat := Index.defaultBudget
  deriving DecidableEq, Repr

/-- Why there are no settings. -/
inductive SettingsError where
  /-- The text is no settings text. -/
  | invalid
  /-- A settings file is there and holds no settings. -/
  | unusable (path : String)
  | unreadable (path : String) (cause : DiskError)
  deriving DecidableEq, Repr

namespace SettingsError

/-- The wording of each reason. -/
def message : SettingsError → String
  | invalid => "invalid analyzer configuration"
  | unusable path => "failed to load " ++ path
  | unreadable path _ => "failed to read " ++ path

/-- The reason behind the reason. -/
def cause : SettingsError → Option String
  | invalid => none
  | unusable _ => some invalid.message
  | unreadable _ cause => some cause.message

end SettingsError

namespace Settings

/-- The name of a settings file. -/
def fileName : String := "wrena.toml"

/-- The variable that lists further search paths. -/
def variableName : String := "WRENA_PATH"

/-- One search path more, unless one with the same steps is there. -/
def add (s : Settings) (path : String) : Settings :=
  { s with searchPaths := addSearchPath s.searchPaths path }

/-- A value of a setting. -/
inductive Value where
  | integer (n : Int)
  | strings (items : List String)
  deriving DecidableEq, Repr

/-- A reader of settings texts: the entries of a text, in order, or nothing if the text is
none of its format. -/
abbrev Reader : Type := String → Option (List (String × Value))

/-- Applies a setting.  A budget of zero is none. -/
def adopt? (base : String) (s : Settings) : String × Value → Option Settings
  | ("search-paths", .strings paths) =>
    some (paths.foldl (fun s path => s.add (Path.join base path)) s)
  | ("walk-budget", .integer (.ofNat n)) =>
    if n ≥ Text.wordLimit then none
    else if n = 0 then some s
    else some { s with walkBudget := n }
  | _ => none

/-- The settings written by a text that `read` takes apart.  Its search paths are taken from
`base`. -/
def parseWith (read : Reader) (text base : String) : Except SettingsError Settings :=
  match (read text).bind fun entries => entries.foldlM (adopt? base) {} with
  | some s => .ok s
  | none => .error .invalid

/-- The settings in a file.  Its search paths are taken from its directory. -/
def loadWith (read : Reader) (d : Disk) (path : String) : Except SettingsError Settings :=
  match d.read path with
  | .error e => .error (.unreadable path e)
  | .ok text =>
    match parseWith read text ((Path.parent? path).getD ".") with
    | .error _ => .error (.unusable path)
    | .ok s => .ok s

/-- The settings file of a directory: its own or that of the closest one above. -/
def discover (d : Disk) (start : String) : Option String :=
  ((Path.ancestors start).map fun dir => Path.join dir fileName).find? d.isFile

/-- The entries of a list of paths with colons between them; empty ones do not count. -/
def splitPaths (list : String) : List String :=
  (list.splitOn ":").filter fun path => !path.isEmpty

/-- The search paths of a list more. -/
def addList (s : Settings) (list : String) : Settings := (splitPaths list).foldl add s

end Settings
end WrenAnalysis
