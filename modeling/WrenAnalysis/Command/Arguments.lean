/-
# Command line arguments

A command line names a command and gives it options and operands in any order.
An option that takes a value has it attached or as the next argument; behind two
dashes everything is an operand.

Arguments are checked in the order they come.  So a call for help is heard if all
that stands before it can be used, and what stands behind it does not matter.
-/

import WrenAnalysis.Text.Word

namespace WrenAnalysis
namespace Command

/-- What decides the modules that a command knows. -/
structure Context where
  /-- Further directories to look for imports in. -/
  includes : List String := []
  /-- The settings file to use. -/
  config : Option String := none
  /-- The core library is left out. -/
  noCore : Bool := false
  deriving DecidableEq, Repr

/-- What a command line asks for. -/
inductive Request where
  /-- Reading lines and telling their contexts. -/
  | interactive
  | version
  | help
  | index (files : List String) (context : Context) (json : Bool)
  | signature (name : String) (files : List String) (context : Context)
  | line (text : String) (column : Option Nat)
  | tokens (file : String)
  | check (file : String)
  deriving DecidableEq, Repr

/-- What the text of a value or an operand stands for. -/
inductive ValueKind where
  | text
  /-- A file or a directory, whose name is not empty. -/
  | path
  /-- A number of a machine word. -/
  | word
  deriving DecidableEq, Repr

/-- The text stands for something of the kind. -/
def ValueKind.accepts : ValueKind → String → Bool
  | text, _ => true
  | path, s => !s.isEmpty
  | word, s => (Text.word? s).isSome

/-- The options there are. -/
inductive Switch where
  | include_ | config | noCore | json | column | help
  deriving DecidableEq, Repr

namespace Switch

/-- The name behind two dashes. -/
def longName : Switch → String
  | include_ => "include"
  | config => "config"
  | noCore => "no-core"
  | json => "json"
  | column => "column"
  | help => "help"

/-- The letter behind one dash. -/
def letter? : Switch → Option Char
  | include_ => some 'I'
  | help => some 'h'
  | _ => none

/-- The kind of the value that the option comes with. -/
def valueKind? : Switch → Option ValueKind
  | include_ | config => some .path
  | column => some .word
  | _ => none

/-- The option may be given more than once. -/
def isRepeatable : Switch → Bool
  | include_ => true
  | _ => false

end Switch

/-- The commands that take options and operands. -/
inductive Verb where
  | index | signature | line | tokens | check
  deriving DecidableEq, Repr

namespace Verb

/-- The word that calls for the command. -/
def name : Verb → String
  | index => "index"
  | signature => "signature"
  | line => "line"
  | tokens => "tokens"
  | check => "check"

/-- The command that a word calls for. -/
def ofName? (name : String) : Option Verb :=
  [index, signature, line, tokens, check].find? (·.name = name)

/-- The options of the command. -/
def options : Verb → List Switch
  | index => [.include_, .config, .noCore, .json, .help]
  | signature => [.include_, .config, .noCore, .help]
  | line => [.column, .help]
  | tokens | check => [.help]

/-- The kind of the operand that has so many before it; nothing if the command takes
no more. -/
def operandKind? : Verb → Nat → Option ValueKind
  | index, _ => some .path
  | signature, 0 => some .text
  | signature, _ => some .path
  | line, 0 => some .text
  | tokens, 0 | check, 0 => some .path
  | _, _ => none

end Verb

/-- The options and operands of a command line, in order. -/
structure Given where
  values : List (Switch × String) := []
  switches : List Switch := []
  operands : List String := []
  deriving DecidableEq, Repr

namespace Given

/-- One more operand, if the command takes it. -/
def operand? (verb : Verb) (g : Given) (text : String) : Option Given :=
  match verb.operandKind? g.operands.length with
  | some kind =>
    if kind.accepts text then some { g with operands := g.operands ++ [text] } else none
  | none => none

/-- One more option; only some may be repeated. -/
def switch? (g : Given) (s : Switch) : Option Given :=
  if s ∈ g.switches ∧ !s.isRepeatable then none else some { g with switches := g.switches ++ [s] }

/-- One more option with its value, which is of the right kind. -/
def value? (g : Given) (s : Switch) (kind : ValueKind) (value : String) : Option Given :=
  if kind.accepts value then
    (g.switch? s).map fun g => { g with values := g.values ++ [(s, value)] }
  else none

/-- The value of an option. -/
def get? (g : Given) (s : Switch) : Option String := g.values.lookup s

/-- All values of an option. -/
def all (g : Given) (s : Switch) : List String := (g.values.filter (·.1 = s)).map (·.2)

/-- The option is given. -/
def has (g : Given) (s : Switch) : Bool := s ∈ g.switches

end Given

/-- What the text of an argument can be. -/
inductive Argument where
  /-- Two dashes: what follows are operands. -/
  | separator
  | operand (text : String)
  /-- A long option, with a value attached or not. -/
  | long (name : String) (value : Option String)
  /-- A short option, with what is attached to it. -/
  | short (letter : Char) (attached : List Char)
  deriving DecidableEq, Repr

/-- The part of a text up to its first equals sign, and the part behind it. -/
def splitEquals (cs : List Char) : String × Option String :=
  let name := String.ofList (cs.takeWhile (· ≠ '='))
  match cs.dropWhile (· ≠ '=') with
  | [] => (name, none)
  | _ :: value => (name, some (String.ofList value))

/-- What an argument is by its dashes.  A dash by itself is an operand. -/
def Argument.ofText (text : String) : Argument :=
  match text.toList with
  | ['-', '-'] => .separator
  | '-' :: '-' :: cs => let (name, value) := splitEquals cs; .long name value
  | '-' :: c :: cs => .short c cs
  | _ => .operand text

/-- The value attached to a short option, which may have an equals sign in front. -/
def attachedValue : List Char → String
  | '=' :: cs => String.ofList cs
  | cs => String.ofList cs

/-- Arguments being read from left to right. -/
structure Reading where
  given : Given := {}
  /-- The option whose value comes next, and the kind of the value. -/
  pending : Option (Switch × ValueKind) := none
  /-- Two dashes have been read. -/
  operandsOnly : Bool := false
  deriving DecidableEq, Repr

namespace Reading

/-- An option is read, with the value attached to it. -/
def switch? (r : Reading) (s : Switch) (attached : Option String) : Option Reading :=
  match s.valueKind?, attached with
  | some kind, some value => (r.given.value? s kind value).map fun given => { r with given }
  | some kind, none => some { r with pending := some (s, kind) }
  | none, none => (r.given.switch? s).map fun given => { r with given }
  | none, some _ => none

/-- An operand is read. -/
def operand? (verb : Verb) (r : Reading) (text : String) : Option Reading :=
  (r.given.operand? verb text).map fun given => { r with given }

/-- The next argument is read; nothing if it is no use.  A value does not look
like an option, and behind a call for help nothing counts. -/
def next? (verb : Verb) (r : Reading) (text : String) : Option Reading :=
  if r.given.has .help then some r
  else if r.operandsOnly then r.operand? verb text
  else
    match r.pending, Argument.ofText text with
    | some (s, kind), .operand value =>
      (r.given.value? s kind value).map fun given => { r with given, pending := none }
    | some _, _ => none
    | none, .operand text => r.operand? verb text
    | none, .separator => some { r with operandsOnly := true }
    | none, .long name attached =>
      (verb.options.find? (·.longName = name)).bind fun s => r.switch? s attached
    | none, .short letter attached =>
      (verb.options.find? (·.letter? = some letter)).bind fun s =>
        if attached.isEmpty ∨ s = .help then r.switch? s none
        else r.switch? s (some (attachedValue attached))

end Reading

/-- Reads the arguments of a command; nothing if they are no use. -/
def readArguments (verb : Verb) (arguments : List String) : Option Given :=
  match arguments.foldlM (Reading.next? verb) {} with
  | some { given, pending := none, .. } => some given
  | _ => none

/-- The part of the options that decides the modules known. -/
def Given.context (g : Given) : Context where
  includes := g.all .include_
  config := g.get? .config
  noCore := g.has .noCore

/-- The request of a command with its options and operands; nothing if some are
missing. -/
def Given.request? (verb : Verb) (g : Given) : Option Request :=
  if g.has .help then some .help
  else
    match verb, g.operands with
    | .index, file :: files => some (.index (file :: files) g.context (g.has .json))
    | .signature, name :: file :: files => some (.signature name (file :: files) g.context)
    | .line, [text] => some (.line text ((g.get? .column).bind Text.word?))
    | .tokens, [file] => some (.tokens file)
    | .check, [file] => some (.check file)
    | _, _ => none

/-- There is help about the word: a command, or help itself. -/
def hasHelp (name : String) : Bool := name = "help" || (Verb.ofName? name).isSome

/-- The request of a command line; nothing if it makes none. -/
def Request.ofArguments : List String → Option Request
  | [] => some .interactive
  | ["--"] => some .interactive
  | "--version" :: _ => some .version
  | "--help" :: _ => some .help
  | ["help"] => some .help
  | ["help", name] => if hasHelp name then some .help else none
  | first :: rest =>
    match Argument.ofText first with
    | .short 'V' _ => some .version
    | .short 'h' _ => some .help
    | .operand name =>
      match Verb.ofName? name with
      | none => none
      | some verb => (readArguments verb rest).bind (Given.request? verb)
    | _ => none

end Command
end WrenAnalysis
