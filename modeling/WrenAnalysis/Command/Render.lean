/-
# What commands print

The index and the context of a line as text and as JSON, the tokens of a text,
and the form of error messages.
-/

import WrenAnalysis.Index.Basic
import WrenAnalysis.LineContext
import WrenAnalysis.Text.Json

namespace WrenAnalysis

/-- Lines, each with its end. -/
def unlines (lines : List String) : String := String.join (lines.map (· ++ "\n"))

/-- A completion as text. -/
def Completion.line (c : Completion) : String := "  " ++ c.name ++ " (" ++ c.kind.word ++ ")"

/-- A signature as text. -/
def Signature.line (s : Signature) : String := s.label ++ "  [" ++ s.source ++ "]"

/-- The names bound in a file as text; nothing without any. -/
def FileBindings.lines (f : FileBindings) : List String :=
  if f.bound.isEmpty then []
  else ("variables in " ++ f.identity ++ ":") :: f.bound.map Completion.line

/-- The index as text. -/
def Index.render (index : Index) : String :=
  unlines (["completions:"] ++ index.completions.map Completion.line ++
    ["signatures:"] ++ index.signatures.map (fun s => "  " ++ s.line) ++
    index.files.flatMap FileBindings.lines ++
    index.walkErrors.map fun e => "skipped: " ++ e.message)

/-- A completion as JSON. -/
def Completion.json (c : Completion) : Text.Json :=
  .object [("name", .string c.name), ("kind", .string c.kind.word)]

/-- A signature as JSON. -/
def Signature.json (s : Signature) : Text.Json :=
  .object [("method", .string s.method), ("label", .string s.label),
    ("parameters", .array (s.parameters.map .string)), ("source", .string s.source)]

/-- The names bound in a file as JSON. -/
def FileBindings.json (f : FileBindings) : Text.Json :=
  .object [("identity", .string f.identity),
    ("variables", .array (f.bound.map Completion.json))]

/-- The index as JSON. -/
def Index.json (index : Index) : Text.Json :=
  .object [("completions", .array (index.completions.map Completion.json)),
    ("signatures", .array (index.signatures.map Signature.json)),
    ("files", .array (index.files.map FileBindings.json))]

/-- A link of a chain as JSON. -/
def ChainLink.json (l : ChainLink) : Text.Json :=
  .object [("text", .string l.text), ("column", .number l.column),
    ("is_class_shaped", .bool l.isClassShaped),
    ("is_instance_field", .bool (l.nameClass = .field)),
    ("is_static_field", .bool (l.nameClass = .staticField))]

/-- The context of a line as JSON. -/
def LineContext.json (c : LineContext) : Text.Json :=
  .object [("in_parameter_list", .bool c.inParameterList),
    ("active_parameter_index", .number c.activeParameter),
    ("after_any_dot", .bool c.afterAnyDot),
    ("identifier_chain", .array (c.chain.map ChainLink.json)),
    ("call_target", (c.callTarget.map .string).getD .null)]

/-- A token in a listing. -/
def Token.line (t : Token) : String :=
  t.position.text ++ " " ++ t.kind.label ++ " " ++ t.describe

/-- The lines of a text behind the first stand four places in. -/
def indented (text : String) : String := "    " ++ text.replace "\n" "\n    "

/-- The message of a command that fails, with the reason behind it. -/
def failureText (message cause : String) : String :=
  "Error: " ++ message ++ "\n\nCaused by:\n" ++ indented cause ++ "\n"

end WrenAnalysis
