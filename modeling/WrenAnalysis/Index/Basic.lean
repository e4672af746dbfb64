/-
# The index of symbols

The index lists what the modules of a registry declare: the names that can be
completed, the signatures of all methods, and per file the names it binds.  It
is built in one pass over the registry.  A class name, a method name, and a
name within a file are listed once, where they first occur; methods of
different classes share their names.

Beside the lists stand two tables, the places of the signatures under the name
they are looked up by and the place of each file under its identity, so that
nothing is searched when the index is asked (`Index.signaturesFor`,
`Index.variablesIn`).
-/

import WrenAnalysis.Index.Binding
import WrenAnalysis.Registry

namespace WrenAnalysis

/-- A method as help shows it. -/
structure Signature where
  /-- The name it is looked up by. -/
  method : String
  label : String
  parameters : List String
  /-- The identity of the module that declares it. -/
  source : String
  deriving DecidableEq, Repr

/-- The names bound in a file. -/
structure FileBindings where
  identity : String
  bound : List Completion
  deriving DecidableEq, Repr

/-- A method whose body has too many places to look for bindings. -/
structure WalkError where
  source : String
  className : String
  method : String
  budget : Nat
  deriving DecidableEq, Repr

/-- The wording of a walk that was given up. -/
def WalkError.message (e : WalkError) : String :=
  s!"walking {e.className}.{e.method} in {e.source} exceeded {e.budget} nodes"

/-- The declarations of all modules. -/
structure Index where
  completions : List Completion := []
  signatures : List Signature := []
  files : List FileBindings := []
  /-- Under each name, the places of its signatures in the list, in order. -/
  signaturePlaces : List (String × List Nat) := []
  /-- Under each identity, the place of its file in the list.  The first entry
  counts. -/
  filePlaces : List (String × Nat) := []
  walkErrors : List WalkError := []
  deriving DecidableEq, Repr

namespace Index

/-- The places a body may have if nothing else is asked for. -/
def defaultBudget : Nat := 10000

/-- Class names and method names are listed apart. -/
def sameName (a b : Completion) : Bool :=
  a.name == b.name && (a.kind == .class_) == (b.kind == .class_)

/-- The list with a completion, unless its name is there. -/
def addCompletion (cs : List Completion) (c : Completion) : List Completion :=
  if cs.any (sameName c) then cs else cs ++ [c]

/-- The list with a binding, unless its name is there; the first kind counts. -/
def addBinding (cs : List Completion) (c : Completion) : List Completion :=
  if cs.any (·.name = c.name) then cs else cs ++ [c]

/-- What a method is completed as.  Setters complete as their property;
operators and subscripts do not complete. -/
def completionOf (h : MethodHead) : Option Completion :=
  match h.kind with
  | .named | .setter => some ⟨h.name.text, if h.isStatic then .function else .method⟩
  | _ => none

/-- The table with one more place under a name. -/
def note (name : String) (place : Nat) : List (String × List Nat) → List (String × List Nat)
  | [] => [(name, [place])]
  | e :: es => if e.1 = name then (name, e.2 ++ [place]) :: es else e :: note name place es

/-- An index under construction, with the bindings of the file that is being
added. -/
structure Builder where
  index : Index := {}
  bindings : List Completion := []
  deriving DecidableEq, Repr

namespace Builder

/-- Adds a method of a class. -/
def addMethod (source className : String) (budget : Nat) (b : Builder) (m : Method) : Builder :=
  let signature : Signature :=
    ⟨m.head.displayName, m.head.label className, m.head.parameterNames, source⟩
  let index := { b.index with
    signatures := b.index.signatures ++ [signature]
    signaturePlaces := note signature.method b.index.signatures.length b.index.signaturePlaces
    completions := (completionOf m.head).toList.foldl addCompletion b.index.completions }
  match m.bindings budget with
  | some bindings => { index, bindings := bindings.foldl addBinding b.bindings }
  | none =>
    let error : WalkError := ⟨source, className, m.head.displayName, budget⟩
    { b with index := { index with walkErrors := index.walkErrors ++ [error] } }

/-- Adds a class and its methods. -/
def addClass (source : String) (budget : Nat) (b : Builder) (c : ClassDef) : Builder :=
  let completions := addCompletion b.index.completions ⟨c.name.text, .class_⟩
  c.methods.foldl (addMethod source c.name.text budget)
    { b with index := { b.index with completions } }

/-- Adds a statement at the top level of a module. -/
def addStmt (source : String) (budget : Nat) (b : Builder) (s : Stmt) : Builder :=
  match s.classDef?, s.variableDef? with
  | some c, _ => addClass source budget b c
  | none, some v => { b with bindings := addBinding b.bindings ⟨v.name.text, .variable_⟩ }
  | none, none => b

end Builder

/-- Adds a module. -/
def addModule (budget : Nat) (index : Index) (unit : String × Module) : Index :=
  let b := unit.2.statements.foldl (Builder.addStmt unit.1 budget) { index }
  { b.index with
    filePlaces := (unit.1, b.index.files.length) :: b.index.filePlaces
    files := b.index.files ++ [⟨unit.1, b.bindings⟩] }

/-- The index of the ready modules of a registry. -/
def build (r : Registry) (budget : Nat) : Index := r.units.foldl (addModule budget) {}

/-- The class names, in order. -/
def classes (index : Index) : List String :=
  (index.completions.filter (·.kind = .class_)).map (·.name)

/-- The signatures of the methods looked up by a name, in order. -/
def signaturesFor (index : Index) (name : String) : List Signature :=
  ((index.signaturePlaces.lookup name).getD []).filterMap fun place => index.signatures[place]?

/-- The names bound in a file. -/
def variablesIn (index : Index) (identity : String) : List Completion :=
  match (index.filePlaces.lookup identity).bind fun place => index.files[place]? with
  | some file => file.bound
  | none => []

end Index
end WrenAnalysis
