/-
# The interactive command

Without arguments the program reads lines, and for each one prints the context of
its cursor and the signatures of the method that is being called.  A bar in the
line marks the cursor; a line that starts with a colon is a command.
-/

import WrenAnalysis.Command.CoreLibrary
import WrenAnalysis.Command.Output
import WrenAnalysis.Command.Render
import WrenAnalysis.Text.Backspace
import WrenAnalysis.Text.Blank

namespace WrenAnalysis
namespace Command
namespace Interactive

/-- What the command says about itself. -/
def help : String :=
  "Type a line of Wren; mark the cursor with '|' (default: end of line).\n" ++
  "Commands: :quit | :exit | :q, :help\n"

/-- The line without its first bar, and the column of the bar; without one, the
end of the line. -/
def splitCursor (line : String) : String × Nat :=
  let left := line.toList.takeWhile (· ≠ '|')
  (String.ofList (left ++ (line.toList.dropWhile (· ≠ '|')).tail), left.length)

/-- The index of the core library. -/
def coreIndex : Index :=
  match Module.parse CoreLibrary.text with
  | .ok m => Index.build (Registry.insert {} CoreLibrary.identity m) Index.defaultBudget
  | .error _ => {}

/-- What is printed about a line of the language. -/
def analyze (index : Index) (line : String) : String :=
  let (text, column) := splitCursor line
  let context := LineContext.ofText text column
  let signatures := match context.callTarget with
    | some target => index.signaturesFor target
    | none => []
  unlines (context.json.compact :: signatures.map fun s => "  " ++ s.label)

/-- What is printed in reply to a line; nothing at all to one that asks to quit. -/
def reply? (index : Index) (line : String) : Option Output :=
  let line := Text.trimEnd (Text.applyBackspaces line)
  if line ∈ [":quit", ":exit", ":q"] then none
  else if line = ":help" then some { stderr := help }
  else if line.toList.head? = some ':' then
    some { stderr := "Unknown command. Type :help for help.\n" }
  else if line.isEmpty then some {}
  else some { stdout := analyze index line }

/-- What is printed at the end of the input. -/
def farewell : Output := { stdout := "\n" }

/-- What is printed in reply to lines, up to one that asks to quit. -/
def readLines (index : Index) : List String → Output
  | [] => farewell
  | line :: lines =>
    match reply? index line with
    | none => {}
    | some o => o.followedBy (readLines index lines)

/-- The lines of an input.  The last one may have no end. -/
def linesOf (input : String) : List String :=
  let pieces := input.splitOn "\n"
  if pieces.getLast? = some "" then pieces.dropLast else pieces

/-- What is printed before the first line. -/
def greeting : Output := { stderr := help }

/-- The interactive command on an input. -/
def run (input : String) : Output := greeting.followedBy (readLines coreIndex (linesOf input))

end Interactive
end Command
end WrenAnalysis
