/-
# Syntax trees

A module is a list of statements.  The tree keeps the tokens that carry
information, names, literals and operators, and drops brackets, commas and
newlines, which the shape of the tree replaces.  Nothing is evaluated.

    module      ::= (definition Line)* Eof
    definition  ::= classDef | importing | variableDef | statement
    classDef    ::= ['foreign'] 'class' Name ['is' Name] '{' method* '}'
    importing   ::= 'import' String ['for' Name ['as' Name] {',' Name ['as' Name]}]
    variableDef ::= 'var' Name ['=' expr]
    statement   ::= if | while | for | 'return' [expr] | 'break' | 'continue' | block | expr
    block       ::= '{' (definition Line)* '}'
-/

import WrenAnalysis.Token.Basic

namespace WrenAnalysis

/-- A name brought in by an import, and the name it goes by here. -/
structure ImportedName where
  name : Token
  knownAs : Option Token
  deriving DecidableEq, Repr

/-- How a method is called. -/
inductive MethodKind where
  /-- By its name: `name`, `name(a, b)`. -/
  | named
  /-- By an assignment: `name=(value)`. -/
  | setter
  /-- By an operator: `+(other)`, `-`, `!`, `is(other)`. -/
  | operator
  /-- By brackets: `[a, b]`. -/
  | subscript
  /-- By an assignment to brackets: `[a, b]=(value)`; the value is the last parameter. -/
  | subscriptSetter
  deriving DecidableEq, Repr, Inhabited

/-- A method without its body. -/
structure MethodHead where
  /-- The name; for subscripts, the opening bracket. -/
  name : Token
  kind : MethodKind
  /-- None for a method that is called without a parameter list. -/
  parameters : Option (List Token)
  isConstruct : Bool
  isForeign : Bool
  isStatic : Bool
  deriving DecidableEq, Repr

mutual

/-- Expressions. -/
inductive Expr where
  | null (token : Token)
  | bool (token : Token)
  | num (token : Token)
  | str (token : Token)
  | field (token : Token)
  | staticField (token : Token)
  | thisValue (token : Token)
  | list (bracket : Token) (elements : List Expr)
  | map (brace : Token) (entries : List Entry)
  /-- `super`, `super.name(...)` or `super(...)`. -/
  | superCall (keyword : Token) (name : Option Token) (arguments : Option (List Expr))
      (block : Option Block)
  /-- A name of its own, or a method called on a receiver. -/
  | call (receiver : Option Expr) (name : Token) (arguments : Option (List Expr))
      (block : Option Block)
  | subscript (receiver : Expr) (bracket : Token) (arguments : List Expr)
  | unary (operator : Token) (operand : Expr)
  | binary (left : Expr) (operator : Token) (right : Expr)
  | conditional (condition thenBranch elseBranch : Expr)
  | group (inner : Expr)
  | assign (target : Target) (value : Expr)

/-- A key of a map and its value. -/
inductive Entry where
  | mk (key value : Expr)

/-- What an assignment writes to. -/
inductive Target where
  | plain (name : Token)
  | field (name : Token)
  | staticField (name : Token)
  /-- `receiver.name = value` or `receiver[i] = value`. -/
  | setter (place : Expr)

/-- A block passed behind the arguments of a call: `{ |a, b| body }`. -/
inductive Block where
  | mk (parameters : List Token) (body : List Stmt)

/-- Statements. -/
inductive Stmt where
  /-- The path is the literal as written, quotes included. -/
  | importing (path : Token) (names : List ImportedName)
  | classDef (isForeign : Bool) (name : Token) (superclass : Option Token) (methods : List Method)
  | var (name : Token) (initializer : Option Expr)
  | block (body : List Stmt)
  | ifElse (keyword : Token) (condition : Expr) (thenBranch : Stmt) (elseBranch : Option Stmt)
  | whileLoop (keyword : Token) (condition : Expr) (body : Stmt)
  | forLoop (keyword name : Token) (iterator : Expr) (body : Stmt)
  | returning (keyword : Token) (value : Option Expr)
  | breaking (keyword : Token)
  | continuing (keyword : Token)
  | expr (e : Expr)

/-- A method of a class.  A foreign one may do without a body, which is empty then. -/
inductive Method where
  | mk (head : MethodHead) (body : List Stmt)

end

/-- The body of an imported or opened file. -/
structure Module where
  statements : List Stmt

namespace Entry

/-- The key of the entry. -/
def key : Entry → Expr
  | mk key _ => key

/-- The value under the key. -/
def value : Entry → Expr
  | mk _ value => value

end Entry

namespace Block

/-- The names between the bars. -/
def parameters : Block → List Token
  | mk parameters _ => parameters

/-- The statements of the block. -/
def body : Block → List Stmt
  | mk _ body => body

end Block

namespace Method

/-- All of the method but its body. -/
def head : Method → MethodHead
  | mk head _ => head

/-- The statements of the method. -/
def body : Method → List Stmt
  | mk _ body => body

end Method

end WrenAnalysis
