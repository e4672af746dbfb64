/-
# Trees as words

`Module.render` writes a tree as the words of a program, by recursion on the tree alone:
the tokens that the tree keeps, and the keywords, brackets and commas that its shape stands
for.  A foreign method without statements may have been written with an empty body or
without one, so its braces are a piece that may be written or not (`Piece.perhaps`).
-/

import WrenAnalysis.Proofs.Syntax.Derivation
import WrenAnalysis.Proofs.Syntax.Shape
import WrenAnalysis.Proofs.Token.Wording

namespace WrenAnalysis

/-! ### Pieces -/

/-- What is written for a part of a tree. -/
inductive Piece where
  | word (w : Word)
  /-- The tree does not tell whether the words are there. -/
  | perhaps (ws : List Word)
  deriving DecidableEq, Repr

namespace Piece

def token (t : Token) : Piece := word t.word

def symbol (s : Symbol) : Piece := word s.word

def keyword (k : Keyword) : Piece := word k.word

end Piece

/-- The words that pieces may be written with. -/
inductive Written : List Piece → List Word → Prop
  | nil : Written [] []
  | word {w : Word} {ps : List Piece} {ws : List Word} :
      Written ps ws → Written (.word w :: ps) (w :: ws)
  | present {us : List Word} {ps : List Piece} {ws : List Word} :
      Written ps ws → Written (.perhaps us :: ps) (us ++ ws)
  | absent {us : List Word} {ps : List Piece} {ws : List Word} :
      Written ps ws → Written (.perhaps us :: ps) ws

/-- Pieces one behind the other are written one behind the other. -/
theorem Written.append {ps qs : List Piece} {us vs : List Word} (h : Written ps us)
    (h' : Written qs vs) : Written (ps ++ qs) (us ++ vs) := by
  induction h with
  | nil => exact h'
  | word _ ih => exact .word ih
  | present _ ih =>
    rw [List.append_assoc]
    exact .present ih
  | absent _ ih => exact .absent ih

/-- Keywords are written with their words. -/
theorem written_keywords (ks : List Keyword) :
    Written (ks.map .keyword) (ks.map Keyword.word) := by
  induction ks with
  | nil => exact .nil
  | cons k ks ih => exact .word ih

/-! ### The rendering -/

/-- The comma between an item and the items behind it. -/
def separator {α : Type} : List α → List Piece
  | [] => []
  | _ :: _ => [.symbol .comma]

/-- Names up to the closing symbol. -/
def renderNames (close : Symbol) : List Token → List Piece
  | [] => [.symbol close]
  | n :: ns => .token n :: (separator ns ++ renderNames close ns)

/-- A name behind the piece that announces it. -/
def renderOptional (lead : Piece) : Option Token → List Piece
  | none => []
  | some n => [lead, .token n]

def renderImportList : List ImportedName → List Piece
  | [] => []
  | n :: ns =>
    .token n.name :: (renderOptional (.keyword .as_) n.knownAs ++
      (separator ns ++ renderImportList ns))

/-- The names of an import with the keyword before them. -/
def renderImports : List ImportedName → List Piece
  | [] => []
  | n :: ns => .keyword .for_ :: renderImportList (n :: ns)

def renderParameters : Option (List Token) → List Piece
  | none => []
  | some ns => .symbol .leftParen :: renderNames .rightParen ns

def renderBlockHead : List Token → List Piece
  | [] => []
  | n :: ns => .symbol .pipe :: renderNames .pipe (n :: ns)

def renderClassHead (isForeign : Bool) : List Piece :=
  if isForeign then [.keyword .foreign_, .keyword .class_] else [.keyword .class_]

def parenthesized (ps : List Piece) : List Piece :=
  .symbol .leftParen :: (ps ++ [.symbol .rightParen])

namespace MethodHead

/-- The words in front of the method. -/
def marks (h : MethodHead) : List Keyword :=
  (if h.isConstruct then [.construct_] else []) ++
    ((if h.isForeign then [.foreign_] else []) ++ (if h.isStatic then [.static_] else []))

/-- The name and the parameters of a method. -/
def render (h : MethodHead) : List Piece :=
  match h.kind with
  | .named | .operator => .token h.name :: renderParameters h.parameters
  | .setter => .token h.name :: .symbol .eq :: renderParameters h.parameters
  | .subscript => .token h.name :: renderNames .rightBracket (h.parameters.getD [])
  | .subscriptSetter =>
    -- The value stands last among the parameters.
    let ns := h.parameters.getD []
    .token h.name :: (renderNames .rightBracket ns.dropLast ++
      .symbol .eq :: renderParameters (some ns.getLast?.toList))

end MethodHead

mutual

def Expr.render : Expr → List Piece
  | .null t => [.token t]
  | .bool t => [.token t]
  | .num t => [.token t]
  | .str t => [.token t]
  | .field t => [.token t]
  | .staticField t => [.token t]
  | .thisValue t => [.token t]
  | .list bracket elements => .token bracket :: renderArguments .rightBracket elements
  | .map brace entries => .token brace :: renderEntries entries
  | .superCall keyword name arguments block =>
    .token keyword :: (renderOptional (.symbol .dot) name ++
      (renderCall arguments ++ renderBlock block))
  | .call none name arguments block =>
    .token name :: (renderCall arguments ++ renderBlock block)
  | .call (some receiver) name arguments block =>
    receiver.render ++ .symbol .dot :: .token name :: (renderCall arguments ++ renderBlock block)
  | .subscript receiver bracket arguments =>
    receiver.render ++ .token bracket :: renderArguments .rightBracket arguments
  | .unary operator operand => .token operator :: operand.render
  | .binary left operator right => left.render ++ .token operator :: right.render
  | .conditional condition thenBranch elseBranch =>
    condition.render ++ .symbol .question :: (thenBranch.render ++
      .symbol .colon :: elseBranch.render)
  | .group inner => parenthesized inner.render
  | .assign target value => target.render ++ .symbol .eq :: value.render

/-- Expressions up to the closing symbol. -/
def renderArguments (close : Symbol) : List Expr → List Piece
  | [] => [.symbol close]
  | e :: es => e.render ++ (separator es ++ renderArguments close es)

def renderEntries : List Entry → List Piece
  | [] => [.symbol .rightBrace]
  | .mk key value :: es =>
    key.render ++ .symbol .colon :: (value.render ++ (separator es ++ renderEntries es))

def renderCall : Option (List Expr) → List Piece
  | none => []
  | some es => .symbol .leftParen :: renderArguments .rightParen es

def renderBlock : Option Block → List Piece
  | none => []
  | some (.mk parameters body) =>
    .symbol .leftBrace :: (renderBlockHead parameters ++ renderBody body)

def Target.render : Target → List Piece
  | .plain name => [.token name]
  | .field name => [.token name]
  | .staticField name => [.token name]
  | .setter place => place.render

def Stmt.render : Stmt → List Piece
  | .importing path names => .keyword .import_ :: .token path :: renderImports names
  | .classDef isForeign name superclass methods =>
    renderClassHead isForeign ++ .token name :: (renderOptional (.keyword .is_) superclass ++
      .symbol .leftBrace :: renderMethods methods)
  | .var name none => [.keyword .var_, .token name]
  | .var name (some e) => .keyword .var_ :: .token name :: .symbol .eq :: e.render
  | .block body => .symbol .leftBrace :: renderBody body
  | .ifElse keyword condition thenBranch none =>
    .token keyword :: (parenthesized condition.render ++ thenBranch.render)
  | .ifElse keyword condition thenBranch (some elseBranch) =>
    .token keyword :: (parenthesized condition.render ++ (thenBranch.render ++
      .keyword .else_ :: elseBranch.render))
  | .whileLoop keyword condition body =>
    .token keyword :: (parenthesized condition.render ++ body.render)
  | .forLoop keyword name iterator body =>
    .token keyword :: .symbol .leftParen :: .token name :: .keyword .in_ ::
      (iterator.render ++ .symbol .rightParen :: body.render)
  | .returning keyword none => [.token keyword]
  | .returning keyword (some e) => .token keyword :: e.render
  | .breaking keyword => [.token keyword]
  | .continuing keyword => [.token keyword]
  | .expr e => e.render

/-- Statements up to the closing brace. -/
def renderBody : List Stmt → List Piece
  | [] => [.symbol .rightBrace]
  | s :: ss => s.render ++ renderBody ss

/-- A foreign method without statements may have been written without a body. -/
def Method.render : Method → List Piece
  | .mk head body =>
    head.marks.map .keyword ++ (head.render ++
      if head.isForeign && body.isEmpty then
        [.perhaps [Symbol.leftBrace.word, Symbol.rightBrace.word]]
      else
        .symbol .leftBrace :: renderBody body)

/-- Methods up to the closing brace. -/
def renderMethods : List Method → List Piece
  | [] => [.symbol .rightBrace]
  | m :: ms => m.render ++ renderMethods ms

end

/-- The module as words. -/
def Module.render (m : Module) : List Piece := m.statements.flatMap Stmt.render

def Phrase.render : Phrase → List Piece
  | .expr e => e.render
  | .arguments r es => renderArguments r.close es
  | .entries es => renderEntries es
  | .tail given block => renderCall given ++ renderBlock block
  | .condition e => parenthesized e.render
  | .stmt s => s.render
  | .body ss => renderBody ss
  | .method m => m.render
  | .methods ms => renderMethods ms

/-- A place is written as the expression that stands for it. -/
theorem Expr.render_of_target? {e : Expr} {target : Target} (h : e.target? = some target) :
    target.render = e.render := by
  cases standsFor_of_target? h with
  | name =>
    unfold Target.ofName
    split <;> rfl
  | _ => rfl

end WrenAnalysis
