/-
# From an import to a file

An import names a file by a literal.  The file is looked for in the directory
of the importing file and then in each search path (`candidates`).  A file is
known by its normal path (`identity`).
-/

import WrenAnalysis.Path

namespace WrenAnalysis
namespace ImportPath

/-- What the file names of the language end in. -/
def extension : String := ".wren"

/-- Modules that every program has; no file stands behind them. -/
def builtins : List String := ["meta", "random"]

/-- A literal without its quotes. -/
def unquote (literal : String) : String := String.ofList (literal.toList.filter (· ≠ '"'))

/-- The file that a literal names, relative to some directory. -/
def file (literal : String) : String :=
  let path := unquote literal
  let path := if "./".toList.isPrefixOf path.toList then path else "./" ++ path
  if extension.toList.isSuffixOf path.toList then path else path ++ extension

/-- The literal names a module that every program has. -/
def isBuiltin (literal : String) : Bool := unquote literal ∈ builtins

/-- Where a file is looked for: the directory `origin` of the importing file
first, then the search paths in order. -/
def candidates (origin file : String) (searchPaths : List String) : List String :=
  (origin :: searchPaths).map fun dir => Path.normalize (Path.join dir file)

/-- What a file is known by. -/
def identity (path : String) : String := Path.normalize path

/-- The directory that the imports of a document are taken from. -/
def originDir (identity : String) : String :=
  match Path.parent? identity with
  | some dir => if dir.isEmpty then "." else dir
  | none => "."

end ImportPath
end WrenAnalysis
