/-
# Trees as text

The whole of a tree on one line, in parentheses, with every token and its
place.
-/

import WrenAnalysis.Syntax.Tree

namespace WrenAnalysis

/-- A token with its place and length. -/
def Token.sexpr (t : Token) : String :=
  s!"{t.text}@{t.position.line}:{t.position.column}/{t.position.offset}+{t.length}"

/-- Texts with a blank between them. -/
def spaced (parts : List String) : String := " ".intercalate parts

/-- What may be missing is written as a dash. -/
def orDash (part : Option String) : String := part.getD "-"

/-- Parts in parentheses. -/
def inParens (parts : List String) : String := "(" ++ spaced parts ++ ")"

/-- Parts in brackets. -/
def inBrackets (parts : List String) : String := "[" ++ spaced parts ++ "]"

/-- Parts in braces. -/
def inBraces (parts : List String) : String := "\x7b" ++ spaced parts ++ "\x7d"

/-- The word for a kind of method. -/
def MethodKind.word : MethodKind → String
  | named => "named"
  | setter => "setter"
  | operator => "operator"
  | subscript => "subscript"
  | subscriptSetter => "subscript-setter"

/-- The modifiers of a method, a letter each. -/
def MethodHead.flags (s : MethodHead) : String :=
  let letters := (if s.isConstruct then "c" else "") ++ (if s.isForeign then "f" else "") ++
    (if s.isStatic then "s" else "")
  if letters.isEmpty then "-" else letters

/-- The parts of a method up to its body. -/
def MethodHead.sexprs (s : MethodHead) : List String :=
  [s.kind.word, s.flags, s.name.sexpr,
    orDash (s.parameters.map fun ps => inBrackets (ps.map Token.sexpr))]

/-- A name of an import, with its alias. -/
def ImportedName.sexpr (n : ImportedName) : String :=
  inParens (n.name.sexpr :: (n.knownAs.map Token.sexpr).toList)

mutual

/-- An expression with all its parts. -/
def Expr.sexpr : Expr → String
  | .null t => inParens ["null", t.sexpr]
  | .bool t => inParens ["bool", t.sexpr]
  | .num t => inParens ["num", t.sexpr]
  | .str t => inParens ["str", t.sexpr]
  | .field t => inParens ["field", t.sexpr]
  | .staticField t => inParens ["static-field", t.sexpr]
  | .thisValue t => inParens ["this", t.sexpr]
  | .list bracket elements => inParens ["list", bracket.sexpr, inBrackets (exprSexprs elements)]
  | .map brace entries => inParens ["map", brace.sexpr, inBrackets (entrySexprs entries)]
  | .superCall keyword name arguments block =>
    inParens ["super", keyword.sexpr, orDash (name.map Token.sexpr), argumentsSexpr arguments,
      blockSexpr block]
  | .call receiver name arguments block =>
    inParens ["call", optionalSexpr receiver, name.sexpr, argumentsSexpr arguments,
      blockSexpr block]
  | .subscript receiver bracket arguments =>
    inParens ["subscript", receiver.sexpr, bracket.sexpr, inBrackets (exprSexprs arguments)]
  | .unary operator operand => inParens ["prefix", operator.sexpr, operand.sexpr]
  | .binary left operator right => inParens ["infix", left.sexpr, operator.sexpr, right.sexpr]
  | .conditional condition thenBranch elseBranch =>
    inParens ["cond", condition.sexpr, thenBranch.sexpr, elseBranch.sexpr]
  | .group inner => inParens ["group", inner.sexpr]
  | .assign target value => inParens ["assign", target.sexpr, value.sexpr]

/-- Expressions in order. -/
def exprSexprs : List Expr → List String
  | [] => []
  | e :: es => e.sexpr :: exprSexprs es

/-- The entries of a map in order, each a key and a value. -/
def entrySexprs : List Entry → List String
  | [] => []
  | .mk key value :: rest => inParens [key.sexpr, value.sexpr] :: entrySexprs rest

/-- An expression that may be missing. -/
def optionalSexpr : Option Expr → String
  | none => "-"
  | some e => e.sexpr

/-- An argument list that may be missing. -/
def argumentsSexpr : Option (List Expr) → String
  | none => "-"
  | some es => inBrackets (exprSexprs es)

/-- A block that may be missing, with its parameters. -/
def blockSexpr : Option Block → String
  | none => "-"
  | some (.mk parameters body) =>
    inParens ["fn", inBrackets (parameters.map Token.sexpr), inBraces (stmtSexprs body)]

/-- What is assigned to, by its kind. -/
def Target.sexpr : Target → String
  | .plain name => inParens ["local", name.sexpr]
  | .field name => inParens ["field", name.sexpr]
  | .staticField name => inParens ["static-field", name.sexpr]
  | .setter place => inParens ["setter", place.sexpr]

/-- A statement with all its parts. -/
def Stmt.sexpr : Stmt → String
  | .importing path names => inParens ("import" :: path.sexpr :: names.map ImportedName.sexpr)
  | .classDef isForeign name superclass methods =>
    inParens ("class" :: (if isForeign then "foreign" else "-") :: name.sexpr ::
      orDash (superclass.map Token.sexpr) :: methodSexprs methods)
  | .var name initializer => inParens ["var", name.sexpr, optionalSexpr initializer]
  | .block body => inParens ["block", inBraces (stmtSexprs body)]
  | .ifElse keyword condition thenBranch elseBranch =>
    inParens ["if", keyword.sexpr, condition.sexpr, thenBranch.sexpr, branchSexpr elseBranch]
  | .whileLoop keyword condition body =>
    inParens ["while", keyword.sexpr, condition.sexpr, body.sexpr]
  | .forLoop keyword name iterator body =>
    inParens ["for", keyword.sexpr, name.sexpr, iterator.sexpr, body.sexpr]
  | .returning keyword value => inParens ["return", keyword.sexpr, optionalSexpr value]
  | .breaking keyword => inParens ["break", keyword.sexpr]
  | .continuing keyword => inParens ["continue", keyword.sexpr]
  | .expr e => inParens ["expr", e.sexpr]

/-- A statement that may be missing. -/
def branchSexpr : Option Stmt → String
  | none => "-"
  | some s => s.sexpr

/-- Statements in order. -/
def stmtSexprs : List Stmt → List String
  | [] => []
  | s :: rest => s.sexpr :: stmtSexprs rest

/-- Methods in order, each with its body. -/
def methodSexprs : List Method → List String
  | [] => []
  | .mk head body :: rest =>
    inParens ("method" :: head.sexprs ++ [inBraces (stmtSexprs body)]) :: methodSexprs rest

end

end WrenAnalysis
