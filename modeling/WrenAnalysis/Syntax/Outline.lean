/-
# What a module declares

The imports, the classes and the variables at the top level of a module, and
the names under which its methods are known.
-/

import WrenAnalysis.Syntax.Tree

namespace WrenAnalysis

/-- An import at the top level. -/
structure ImportDef where
  /-- The literal as written, quotes included. -/
  path : Token
  names : List ImportedName

/-- A class at the top level. -/
structure ClassDef where
  isForeign : Bool
  name : Token
  superclass : Option Token
  methods : List Method

/-- A variable at the top level. -/
structure VariableDef where
  name : Token
  initializer : Option Expr

namespace Stmt

/-- The import that a statement is. -/
def importDef? : Stmt → Option ImportDef
  | importing path names => some ⟨path, names⟩
  | _ => none

/-- The class that a statement is. -/
def classDef? : Stmt → Option ClassDef
  | classDef isForeign name superclass methods => some ⟨isForeign, name, superclass, methods⟩
  | _ => none

/-- The variable that a statement declares. -/
def variableDef? : Stmt → Option VariableDef
  | var name initializer => some ⟨name, initializer⟩
  | _ => none

end Stmt

namespace Module

/-- The imports at the top level, in order. -/
def imports (m : Module) : List ImportDef := m.statements.filterMap Stmt.importDef?

/-- The classes at the top level, in order. -/
def classes (m : Module) : List ClassDef := m.statements.filterMap Stmt.classDef?

/-- The variables at the top level, in order. -/
def variableDefs (m : Module) : List VariableDef := m.statements.filterMap Stmt.variableDef?

/-- The names of the classes at the top level, in order. -/
def classNames (m : Module) : List String := m.classes.map (·.name.text)

/-- The literals of the imports at the top level, in order. -/
def importLiterals (m : Module) : List String := m.imports.map (·.path.text)

end Module

namespace MethodHead

/-- The name a method is looked up by: setters end in `=`, subscripts are `[]`
and `[]=`. -/
def displayName (h : MethodHead) : String :=
  match h.kind with
  | .named | .operator => h.name.text
  | .setter => h.name.text ++ "="
  | .subscript => "[]"
  | .subscriptSetter => "[]="

/-- The names of the parameters; none without a parameter list. -/
def parameterNames (h : MethodHead) : List String := (h.parameters.getD []).map (·.text)

/-- Names with commas between them. -/
def commaSeparated (names : List String) : String := ", ".intercalate names

/-- The modifiers in front of a signature. -/
def modifiers (h : MethodHead) : String :=
  (if h.isConstruct then "construct " else "") ++ (if h.isForeign then "foreign " else "") ++
    (if h.isStatic then "static " else "")

/-- What stands behind the class in a signature.  A method without a parameter
list has no parentheses. -/
def callShape (h : MethodHead) : String :=
  let names := h.parameterNames
  match h.kind with
  | .named | .operator =>
    "." ++ h.name.text ++
      (if h.parameters.isSome then "(" ++ commaSeparated names ++ ")" else "")
  | .setter => "." ++ h.name.text ++ "=(" ++ commaSeparated names ++ ")"
  | .subscript => "[" ++ commaSeparated names ++ "]"
  | .subscriptSetter =>
    "[" ++ commaSeparated names.dropLast ++ "]=(" ++ names.getLast?.getD "" ++ ")"

/-- The signature of a method of the class named `className`. -/
def label (className : String) (h : MethodHead) : String :=
  h.modifiers ++ className ++ h.callShape

end MethodHead
end WrenAnalysis
