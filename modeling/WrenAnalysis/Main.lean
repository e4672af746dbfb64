/-
# The program

The program `wrena`: it looks up the files that its command line needs, runs the
command on them and prints what comes of it.  Without arguments it answers line by
line.
-/

import WrenAnalysis.Command.Lookup

namespace WrenAnalysis
namespace Program

open Command

/-- What stands at a place of the file system. -/
def probe (place : List String) : IO (Option (List String × DiskNode)) := do
  try
    return some (place, .file (← IO.FS.readFile (Disk.absolute place)))
  catch
    | .inappropriateType _ 21 _ => return some (place, .directory)
    | _ => return none

/-- The disk with all that the command line looks at. -/
partial def gather (m : Machine) (arguments : List String) (seen : List (List String)) :
    IO Machine := do
  match (places m arguments).eraseDups.filter (· ∉ seen) with
  | [] => return m
  | new =>
    let found ← new.filterMapM probe
    gather { m with disk := { m.disk with nodes := m.disk.nodes ++ found } } arguments (seen ++ new)

/-- Prints on both streams. -/
def emit (o : Output) : IO Unit := do
  IO.print o.stdout
  (← IO.getStdout).flush
  IO.eprint o.stderr

/-- Answers lines until one asks to quit or the input ends. -/
partial def converse (index : Index) (input : IO.FS.Stream) (prompt : String) : IO Unit := do
  IO.print prompt
  (← IO.getStdout).flush
  let line ← input.getLine
  if line.isEmpty then emit Interactive.farewell
  else
    match Interactive.reply? index line with
    | none => return
    | some o =>
      emit o
      converse index input prompt

/-- Runs a command line and gives its exit code. -/
def run (arguments : List String) : IO UInt32 := do
  if Request.ofArguments arguments = some .interactive then
    let input ← IO.getStdin
    emit Interactive.greeting
    converse Interactive.coreIndex input (if ← input.isTty then "> " else "")
    return 0
  else
    let root : Disk := {}
    let cwd := root.locate (toString (← IO.currentDir))
    let machine :=
      { disk := { cwd }, searchList := ← IO.getEnv Settings.variableName, reader := Toml.parse? }
    let result := Command.run (← gather machine arguments []) arguments
    emit result.output
    return result.exitCode.toUInt32

end Program
end WrenAnalysis

/-- The program. -/
def main (arguments : List String) : IO UInt32 := WrenAnalysis.Program.run arguments
