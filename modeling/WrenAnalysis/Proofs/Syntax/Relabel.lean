/-
# Trees with other tokens

A function on tokens acts on trees by acting on every token in them.  A function that
keeps kinds and texts, such as one that moves tokens to other places, changes nothing else.
-/

import WrenAnalysis.Syntax.Grammar.Expression

namespace WrenAnalysis

def ImportedName.mapTokens (f : Token → Token) (n : ImportedName) : ImportedName :=
  ⟨f n.name, n.knownAs.map f⟩

def MethodHead.mapTokens (f : Token → Token) (h : MethodHead) : MethodHead :=
  { h with name := f h.name, parameters := h.parameters.map (List.map f) }

mutual

/-- The expression with `f` applied to each of its tokens. -/
def Expr.mapTokens (f : Token → Token) : Expr → Expr
  | .null t => .null (f t)
  | .bool t => .bool (f t)
  | .num t => .num (f t)
  | .str t => .str (f t)
  | .field t => .field (f t)
  | .staticField t => .staticField (f t)
  | .thisValue t => .thisValue (f t)
  | .list bracket elements => .list (f bracket) (mapExprs f elements)
  | .map brace entries => .map (f brace) (mapEntries f entries)
  | .superCall keyword name arguments block =>
    .superCall (f keyword) (name.map f) (mapArguments f arguments) (mapBlock f block)
  | .call receiver name arguments block =>
    .call (mapOptional f receiver) (f name) (mapArguments f arguments) (mapBlock f block)
  | .subscript receiver bracket arguments =>
    .subscript (receiver.mapTokens f) (f bracket) (mapExprs f arguments)
  | .unary operator operand => .unary (f operator) (operand.mapTokens f)
  | .binary left operator right => .binary (left.mapTokens f) (f operator) (right.mapTokens f)
  | .conditional condition thenBranch elseBranch =>
    .conditional (condition.mapTokens f) (thenBranch.mapTokens f) (elseBranch.mapTokens f)
  | .group inner => .group (inner.mapTokens f)
  | .assign target value => .assign (target.mapTokens f) (value.mapTokens f)

def mapExprs (f : Token → Token) : List Expr → List Expr
  | [] => []
  | e :: es => e.mapTokens f :: mapExprs f es

def Entry.mapTokens (f : Token → Token) : Entry → Entry
  | .mk key value => .mk (key.mapTokens f) (value.mapTokens f)

def mapEntries (f : Token → Token) : List Entry → List Entry
  | [] => []
  | e :: es => e.mapTokens f :: mapEntries f es

def mapOptional (f : Token → Token) : Option Expr → Option Expr
  | none => none
  | some e => some (e.mapTokens f)

def mapArguments (f : Token → Token) : Option (List Expr) → Option (List Expr)
  | none => none
  | some es => some (mapExprs f es)

def Block.mapTokens (f : Token → Token) : Block → Block
  | .mk parameters body => .mk (parameters.map f) (mapStmts f body)

def mapBlock (f : Token → Token) : Option Block → Option Block
  | none => none
  | some b => some (b.mapTokens f)

def Target.mapTokens (f : Token → Token) : Target → Target
  | .plain name => .plain (f name)
  | .field name => .field (f name)
  | .staticField name => .staticField (f name)
  | .setter place => .setter (place.mapTokens f)

/-- The statement with `f` applied to each of its tokens. -/
def Stmt.mapTokens (f : Token → Token) : Stmt → Stmt
  | .importing path names => .importing (f path) (names.map (.mapTokens f))
  | .classDef isForeign name superclass methods =>
    .classDef isForeign (f name) (superclass.map f) (mapMethods f methods)
  | .var name initializer => .var (f name) (mapOptional f initializer)
  | .block body => .block (mapStmts f body)
  | .ifElse keyword condition thenBranch elseBranch =>
    .ifElse (f keyword) (condition.mapTokens f) (thenBranch.mapTokens f) (mapBranch f elseBranch)
  | .whileLoop keyword condition body =>
    .whileLoop (f keyword) (condition.mapTokens f) (body.mapTokens f)
  | .forLoop keyword name iterator body =>
    .forLoop (f keyword) (f name) (iterator.mapTokens f) (body.mapTokens f)
  | .returning keyword value => .returning (f keyword) (mapOptional f value)
  | .breaking keyword => .breaking (f keyword)
  | .continuing keyword => .continuing (f keyword)
  | .expr e => .expr (e.mapTokens f)

def mapBranch (f : Token → Token) : Option Stmt → Option Stmt
  | none => none
  | some s => some (s.mapTokens f)

def mapStmts (f : Token → Token) : List Stmt → List Stmt
  | [] => []
  | s :: ss => s.mapTokens f :: mapStmts f ss

def Method.mapTokens (f : Token → Token) : Method → Method
  | .mk head body => .mk (head.mapTokens f) (mapStmts f body)

def mapMethods (f : Token → Token) : List Method → List Method
  | [] => []
  | m :: ms => m.mapTokens f :: mapMethods f ms

end

/-- The module with `f` applied to each of its tokens. -/
def Module.mapTokens (f : Token → Token) (m : Module) : Module :=
  ⟨m.statements.map (.mapTokens f)⟩

/-! ### Lists and parts that may be missing -/

section

variable (f : Token → Token)

/-- Expressions are relabeled one by one. -/
@[simp]
theorem mapExprs_eq (es : List Expr) : mapExprs f es = es.map (.mapTokens f) := by
  induction es with
  | nil => rfl
  | cons e es ih => rw [mapExprs, ih, List.map_cons]

/-- Map entries are relabeled one by one. -/
@[simp]
theorem mapEntries_eq (es : List Entry) : mapEntries f es = es.map (.mapTokens f) := by
  induction es with
  | nil => rfl
  | cons e es ih => rw [mapEntries, ih, List.map_cons]

/-- Statements are relabeled one by one. -/
@[simp]
theorem mapStmts_eq (ss : List Stmt) : mapStmts f ss = ss.map (.mapTokens f) := by
  induction ss with
  | nil => rfl
  | cons s ss ih => rw [mapStmts, ih, List.map_cons]

/-- Methods are relabeled one by one. -/
@[simp]
theorem mapMethods_eq (ms : List Method) : mapMethods f ms = ms.map (.mapTokens f) := by
  induction ms with
  | nil => rfl
  | cons m ms ih => rw [mapMethods, ih, List.map_cons]

/-- An expression that may be missing is relabeled if it is there. -/
@[simp]
theorem mapOptional_eq (e : Option Expr) : mapOptional f e = e.map (.mapTokens f) := by
  cases e <;> rfl

/-- Arguments are relabeled one by one, if they are there. -/
@[simp]
theorem mapArguments_eq (es : Option (List Expr)) :
    mapArguments f es = es.map (List.map (.mapTokens f)) := by
  cases es with
  | none => rfl
  | some es => rw [mapArguments, mapExprs_eq, Option.map_some]

/-- A block that may be missing is relabeled if it is there. -/
@[simp]
theorem mapBlock_eq (b : Option Block) : mapBlock f b = b.map (.mapTokens f) := by
  cases b <;> rfl

/-- A branch that may be missing is relabeled if it is there. -/
@[simp]
theorem mapBranch_eq (s : Option Stmt) : mapBranch f s = s.map (.mapTokens f) := by
  cases s <;> rfl

end

/-! ### Leaving tokens as they are -/

/-- An imported name stays as it is if its tokens do. -/
theorem ImportedName.mapTokens_id (n : ImportedName) : n.mapTokens id = n := by
  simp [mapTokens]

/-- A head stays as it is if its tokens do. -/
theorem MethodHead.mapTokens_id (h : MethodHead) : h.mapTokens id = h := by
  simp [mapTokens]

mutual

/-- An expression stays as it is if its tokens do. -/
theorem Expr.mapTokens_id : (e : Expr) → e.mapTokens id = e
  | .null _ | .bool _ | .num _ | .str _ | .field _ | .staticField _ | .thisValue _ => rfl
  | .list _ es => by rw [Expr.mapTokens, mapExprs_id es, id]
  | .map _ es => by rw [Expr.mapTokens, mapEntries_id es, id]
  | .superCall _ _ arguments block => by
    rw [Expr.mapTokens, mapArguments_id arguments, mapBlock_id block, Option.map_id, id, id]
  | .call receiver _ arguments block => by
    rw [Expr.mapTokens, mapOptional_id receiver, mapArguments_id arguments, mapBlock_id block, id]
  | .subscript receiver _ arguments => by
    rw [Expr.mapTokens, receiver.mapTokens_id, mapExprs_id arguments, id]
  | .unary _ e => by rw [Expr.mapTokens, e.mapTokens_id, id]
  | .binary l _ r => by rw [Expr.mapTokens, l.mapTokens_id, r.mapTokens_id, id]
  | .conditional a b c => by
    rw [Expr.mapTokens, a.mapTokens_id, b.mapTokens_id, c.mapTokens_id]
  | .group e => by rw [Expr.mapTokens, e.mapTokens_id]
  | .assign target value => by rw [Expr.mapTokens, target.mapTokens_id, value.mapTokens_id]

/-- Expressions stay as they are if their tokens do. -/
theorem mapExprs_id : (es : List Expr) → mapExprs id es = es
  | [] => rfl
  | e :: es => by rw [mapExprs, e.mapTokens_id, mapExprs_id es]

/-- A map entry stays as it is if its tokens do. -/
theorem Entry.mapTokens_id : (e : Entry) → e.mapTokens id = e
  | .mk key value => by rw [Entry.mapTokens, key.mapTokens_id, value.mapTokens_id]

/-- Map entries stay as they are if their tokens do. -/
theorem mapEntries_id : (es : List Entry) → mapEntries id es = es
  | [] => rfl
  | e :: es => by rw [mapEntries, e.mapTokens_id, mapEntries_id es]

/-- An expression that may be missing stays as it is if its tokens do. -/
theorem mapOptional_id : (e : Option Expr) → mapOptional id e = e
  | none => rfl
  | some e => by rw [mapOptional, e.mapTokens_id]

/-- Arguments stay as they are if their tokens do. -/
theorem mapArguments_id : (es : Option (List Expr)) → mapArguments id es = es
  | none => rfl
  | some es => by rw [mapArguments, mapExprs_id es]

/-- A block stays as it is if its tokens do. -/
theorem Block.mapTokens_id : (b : Block) → b.mapTokens id = b
  | .mk _ body => by rw [Block.mapTokens, mapStmts_id body, List.map_id]

/-- A block that may be missing stays as it is if its tokens do. -/
theorem mapBlock_id : (b : Option Block) → mapBlock id b = b
  | none => rfl
  | some b => by rw [mapBlock, b.mapTokens_id]

/-- What is assigned to stays as it is if its tokens do. -/
theorem Target.mapTokens_id : (t : Target) → t.mapTokens id = t
  | .plain _ | .field _ | .staticField _ => rfl
  | .setter place => by rw [Target.mapTokens, place.mapTokens_id]

/-- A statement stays as it is if its tokens do. -/
theorem Stmt.mapTokens_id : (s : Stmt) → s.mapTokens id = s
  | .importing _ names => by
    rw [Stmt.mapTokens, List.map_congr_left fun n _ => n.mapTokens_id, List.map_id', id]
  | .classDef _ _ _ methods => by
    rw [Stmt.mapTokens, mapMethods_id methods, Option.map_id, id, id]
  | .var _ initializer => by rw [Stmt.mapTokens, mapOptional_id initializer, id]
  | .block body => by rw [Stmt.mapTokens, mapStmts_id body]
  | .ifElse _ condition thenBranch elseBranch => by
    rw [Stmt.mapTokens, condition.mapTokens_id, thenBranch.mapTokens_id, mapBranch_id elseBranch,
      id]
  | .whileLoop _ condition body => by
    rw [Stmt.mapTokens, condition.mapTokens_id, body.mapTokens_id, id]
  | .forLoop _ _ iterator body => by
    rw [Stmt.mapTokens, iterator.mapTokens_id, body.mapTokens_id, id, id]
  | .returning _ value => by rw [Stmt.mapTokens, mapOptional_id value, id]
  | .breaking _ | .continuing _ => rfl
  | .expr e => by rw [Stmt.mapTokens, e.mapTokens_id]

/-- A branch that may be missing stays as it is if its tokens do. -/
theorem mapBranch_id : (s : Option Stmt) → mapBranch id s = s
  | none => rfl
  | some s => by rw [mapBranch, s.mapTokens_id]

/-- Statements stay as they are if their tokens do. -/
theorem mapStmts_id : (ss : List Stmt) → mapStmts id ss = ss
  | [] => rfl
  | s :: ss => by rw [mapStmts, s.mapTokens_id, mapStmts_id ss]

/-- A method stays as it is if its tokens do. -/
theorem Method.mapTokens_id : (m : Method) → m.mapTokens id = m
  | .mk head body => by rw [Method.mapTokens, head.mapTokens_id, mapStmts_id body]

/-- Methods stay as they are if their tokens do. -/
theorem mapMethods_id : (ms : List Method) → mapMethods id ms = ms
  | [] => rfl
  | m :: ms => by rw [mapMethods, m.mapTokens_id, mapMethods_id ms]

end

/-! ### Assignable places -/

/-- A name that keeps its text stands for a place of the same class. -/
theorem Target.ofName_map {f : Token → Token} (hf : ∀ t, (f t).text = t.text) (name : Token) :
    Target.ofName (f name) = (Target.ofName name).mapTokens f := by
  have hclass : (f name).nameClass = name.nameClass := by rw [Token.nameClass, hf, Token.nameClass]
  unfold Target.ofName
  rw [hclass]
  split <;> rfl

/-- What can be assigned to does not hang on where it stands. -/
theorem Expr.target?_mapTokens {f : Token → Token} (hf : ∀ t, (f t).text = t.text) (e : Expr) :
    (e.mapTokens f).target? = e.target?.map (.mapTokens f) := by
  cases e with
  | call receiver name arguments block =>
    cases receiver <;> cases arguments <;> cases block <;>
      simp [Expr.mapTokens, Expr.target?, Target.mapTokens, Target.ofName_map hf]
  | _ => simp [Expr.mapTokens, Expr.target?, Target.mapTokens]

end WrenAnalysis
