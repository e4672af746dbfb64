/-
# Running commands

A command line is run on a disk, with a list of further search paths from the
environment and with an input, and comes to what it prints and an exit code.
-/

import WrenAnalysis.Command.Arguments
import WrenAnalysis.Command.Interactive
import WrenAnalysis.Settings.Toml

namespace WrenAnalysis
namespace Command

/-- What a command comes to. -/
structure Result where
  exitCode : Nat
  output : Output
  deriving DecidableEq, Repr

/-- What a command is run in. -/
structure Machine where
  disk : Disk
  /-- The list of further search paths. -/
  searchList : Option String := none
  /-- The input. -/
  stdin : String := ""
  /-- The reader of its settings files. -/
  reader : Settings.Reader := Toml.parse?

/-- The name and version of the program. -/
def versionText : String := "wrena 0.1.0\n"

/-- What the program is for and how it is called. -/
def helpText : String :=
  unlines ["Wren source analysis: symbols, signatures and cursor context", "",
    "Usage: wrena [COMMAND]", "",
    "Commands:",
    "  index      Resolve files and their imports, then print the symbol index",
    "  signature  Print every signature declared for a method name",
    "  line       Analyze one line of text as if the cursor were at `--column`",
    "  tokens     Dump the token stream of a file",
    "  check      Parse a file and report the first syntax error",
    "  help       Print this message or the help of the given subcommand(s)", "",
    "Options:",
    "  -h, --help     Print help",
    "  -V, --version  Print version"]

/-- A command that fails, with what it has printed before. -/
def failure (o : Output) (message cause : String) : Result :=
  ⟨1, o.complain (failureText message cause)⟩

/-- The settings of a command: those of its settings file, then the list of the
environment, then its options. -/
def settings (m : Machine) (c : Context) : Except SettingsError Settings := do
  let file := c.config.orElse fun _ => Settings.discover m.disk (Disk.absolute m.disk.cwd)
  let base ← match file with
    | some path => Settings.loadWith m.reader m.disk path
    | none => pure {}
  let listed := match m.searchList with
    | some list => base.addList list
    | none => base
  return c.includes.foldl Settings.add listed

/-- The files of a disk as a library, each under its absolute path.  A normal path
is a root or none, some double dots and names, and the first two decide the names;
a path is too short for more than a third of `Disk.pathLimit` double dots. -/
def library (d : Disk) : Library where
  key path :=
    match d.follow path with
    | .ok names => Disk.absolute names
    | .error _ => ""
  spellings := Disk.pathLimit
  entries := d.nodes.filterMap fun n =>
    match n.2 with
    | .file text => some (Disk.absolute n.1, some text)
    | .directory => none

/-- The text of a file, or the failure to read it. -/
def readFile (m : Machine) (o : Output) (path : String) : Except Result String :=
  match m.disk.read path with
  | .ok text => .ok text
  | .error e => .error (failure o ("Failed to read file '" ++ path ++ "'") e.message)

/-- The workspace with one more document, its warnings printed. -/
def openFile (m : Machine) (s : Workspace × Output) (path : String) :
    Except Result (Workspace × Output) := do
  let (w, o) := s
  let text ← readFile m o path
  let (w, effect) := w.change path text none
  match effect.outcome with
  | .finished report =>
    return (w, o.complain (unlines (report.warnings.map fun w => "warning: " ++ w.message)))
  | .refused e => throw (failure o (path ++ " does not parse") e.message)
  | _ => return (w, o)

/-- The workspace of files, with the core library unless it is left out. -/
def openFiles (m : Machine) (c : Context) (files : List String) :
    Except Result (Workspace × Output) :=
  match settings m c with
  | .error e => .error (failure {} e.message (e.cause.getD ""))
  | .ok s =>
    let w : Workspace :=
      { library := library m.disk, searchPaths := s.searchPaths, walkBudget := s.walkBudget }
    let w := if c.noCore then w else (w.seed CoreLibrary.identity CoreLibrary.text).1
    files.foldlM (openFile m) (w, {})

/-- Prints the index of files. -/
def runIndex (m : Machine) (files : List String) (c : Context) (json : Bool) :
    Except Result Result := do
  let (w, o) ← openFiles m c files
  let text := if json then w.index.json.pretty 0 ++ "\n" else w.index.render
  return ⟨0, o.print text⟩

/-- Prints the signatures of a method. -/
def runSignature (m : Machine) (name : String) (files : List String) (c : Context) :
    Except Result Result := do
  let (w, o) ← openFiles m c files
  let signatures := w.index.signaturesFor name
  if signatures.isEmpty then
    return ⟨1, o.complain ("no signatures for '" ++ name ++ "'\n")⟩
  else
    return ⟨0, o.print (unlines (signatures.map Signature.line))⟩

/-- Prints the context of a cursor. -/
def runLine (text : String) (column : Option Nat) : Result :=
  let context := LineContext.ofText text (column.getD text.length)
  ⟨0, ({} : Output).print (context.json.compact ++ "\n")⟩

/-- Prints the tokens of a file. -/
def runTokens (m : Machine) (file : String) : Except Result Result := do
  let text ← readFile m {} file
  match Token.tokenize text with
  | .ok ts => return ⟨0, ({} : Output).print (unlines (ts.map Token.line))⟩
  | .error e => return failure {} (file ++ " does not tokenize") e.message

/-- Tells whether a file parses. -/
def runCheck (m : Machine) (file : String) : Except Result Result := do
  let text ← readFile m {} file
  match Module.parse text with
  | .ok _ => return ⟨0, ({} : Output).print (file ++ ": ok\n")⟩
  | .error e => return ⟨1, ({} : Output).complain (file ++ ": " ++ e.message ++ "\n")⟩

/-- The result of a command, failed or not. -/
def settle : Except Result Result → Result
  | .ok r => r
  | .error r => r

/-- Runs a request. -/
def Request.run (m : Machine) : Request → Result
  | .interactive => ⟨0, Interactive.run m.stdin⟩
  | .version => ⟨0, ({} : Output).print versionText⟩
  | .help => ⟨0, ({} : Output).print helpText⟩
  | .index files context json => settle (runIndex m files context json)
  | .signature name files context => settle (runSignature m name files context)
  | .line text column => runLine text column
  | .tokens file => settle (runTokens m file)
  | .check file => settle (runCheck m file)

/-- The exit code of a command line that makes no request. -/
def usageExit : Nat := 2

/-- Runs a command line. -/
def run (m : Machine) (arguments : List String) : Result :=
  match Request.ofArguments arguments with
  | some request => request.run m
  | none => ⟨usageExit, ({} : Output).complain "error: invalid usage; see --help\n"⟩

end Command
end WrenAnalysis
