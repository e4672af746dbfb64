/-
# The tokens that a tree keeps

`Module.tokens` lists the tokens of a tree in the order of the grammar: a receiver in front of
the name that is called on it, operands around their operator, a head in front of its body.
The list is complete, as functions that agree on it map the tree to the same tree
(`Module.mapTokens_congr`).  What a construct keeps are tokens that it is written with, in
their order, and none of them is a newline or the mark of an end (`Derives.kept`); so the tree
keeps to the order of the text (`Module.tokens_ofTokens`).
-/

import WrenAnalysis.Proofs.Syntax.Parts
import WrenAnalysis.Proofs.Syntax.Relabel
import WrenAnalysis.Proofs.Syntax.Shape
import WrenAnalysis.Proofs.Syntax.Soundness

namespace WrenAnalysis

/-! ### Listing them -/

def ImportedName.tokens (n : ImportedName) : List Token := n.name :: n.knownAs.toList

def MethodHead.tokens (h : MethodHead) : List Token := h.name :: h.parameters.getD []

mutual

/-- The tokens of an expression, those of its parts in their order. -/
def Expr.tokens : Expr → List Token
  | .null t | .bool t | .num t | .str t | .field t | .staticField t | .thisValue t => [t]
  | .list bracket elements => bracket :: exprTokens elements
  | .map brace entries => brace :: entryTokens entries
  | .superCall keyword name arguments block =>
    keyword :: (name.toList ++ (argumentTokens arguments ++ blockTokens block))
  | .call receiver name arguments block =>
    receiverTokens receiver ++ name :: (argumentTokens arguments ++ blockTokens block)
  | .subscript receiver bracket arguments =>
    receiver.tokens ++ bracket :: exprTokens arguments
  | .unary operator operand => operator :: operand.tokens
  | .binary left operator right => left.tokens ++ operator :: right.tokens
  | .conditional condition thenBranch elseBranch =>
    condition.tokens ++ (thenBranch.tokens ++ elseBranch.tokens)
  | .group inner => inner.tokens
  | .assign target value => target.tokens ++ value.tokens

def exprTokens : List Expr → List Token
  | [] => []
  | e :: es => e.tokens ++ exprTokens es

def Entry.tokens : Entry → List Token
  | .mk key value => key.tokens ++ value.tokens

def entryTokens : List Entry → List Token
  | [] => []
  | e :: es => e.tokens ++ entryTokens es

def receiverTokens : Option Expr → List Token
  | none => []
  | some e => e.tokens

def argumentTokens : Option (List Expr) → List Token
  | none => []
  | some es => exprTokens es

def Block.tokens : Block → List Token
  | .mk parameters body => parameters ++ stmtTokens body

def blockTokens : Option Block → List Token
  | none => []
  | some b => b.tokens

def Target.tokens : Target → List Token
  | .plain name | .field name | .staticField name => [name]
  | .setter place => place.tokens

/-- The tokens of a statement, with those of its head in front. -/
def Stmt.tokens : Stmt → List Token
  | .importing path names => path :: names.flatMap ImportedName.tokens
  | .classDef _ name superclass methods => name :: (superclass.toList ++ methodTokens methods)
  | .var name initializer => name :: receiverTokens initializer
  | .block body => stmtTokens body
  | .ifElse keyword condition thenBranch elseBranch =>
    keyword :: (condition.tokens ++ (thenBranch.tokens ++ branchTokens elseBranch))
  | .whileLoop keyword condition body => keyword :: (condition.tokens ++ body.tokens)
  | .forLoop keyword name iterator body => keyword :: name :: (iterator.tokens ++ body.tokens)
  | .returning keyword value => keyword :: receiverTokens value
  | .breaking keyword | .continuing keyword => [keyword]
  | .expr e => e.tokens

def branchTokens : Option Stmt → List Token
  | none => []
  | some s => s.tokens

def stmtTokens : List Stmt → List Token
  | [] => []
  | s :: ss => s.tokens ++ stmtTokens ss

def Method.tokens : Method → List Token
  | .mk head body => head.tokens ++ stmtTokens body

def methodTokens : List Method → List Token
  | [] => []
  | m :: ms => m.tokens ++ methodTokens ms

end

/-- The tokens of a module, in the order of the grammar. -/
def Module.tokens (m : Module) : List Token := stmtTokens m.statements

def Phrase.tokens : Phrase → List Token
  | .expr e => e.tokens
  | .arguments _ es => exprTokens es
  | .entries es => entryTokens es
  | .tail given block => argumentTokens given ++ blockTokens block
  | .condition e => e.tokens
  | .stmt s => s.tokens
  | .body ss => stmtTokens ss
  | .method m => m.tokens
  | .methods ms => methodTokens ms

/-! ### The list is complete -/

section Complete

variable {f g : Token → Token}

/-- Relabelings that agree on its tokens do the same to an imported name. -/
theorem ImportedName.mapTokens_congr {n : ImportedName} (h : ∀ t ∈ n.tokens, f t = g t) :
    n.mapTokens f = n.mapTokens g := by
  obtain ⟨hname, hknown⟩ := List.forall_mem_cons.1 h
  rw [mapTokens, mapTokens, hname]
  exact congrArg (mk _) (Option.map_congr fun t ht => hknown t (Option.mem_toList.2 ht))

/-- Relabelings that agree on its tokens do the same to a head. -/
theorem MethodHead.mapTokens_congr {m : MethodHead} (h : ∀ t ∈ m.tokens, f t = g t) :
    m.mapTokens f = m.mapTokens g := by
  obtain ⟨hname, hparameters⟩ := List.forall_mem_cons.1 h
  have hns : m.parameters.map (List.map f) = m.parameters.map (List.map g) :=
    Option.map_congr fun ns hns => List.map_congr_left fun t ht => hparameters t (by
      rwa [Option.mem_def.1 hns])
  rw [mapTokens, mapTokens, hname, hns]

mutual

/-- Relabelings that agree on its tokens do the same to an expression. -/
theorem Expr.mapTokens_congr :
    (e : Expr) → (∀ t ∈ e.tokens, f t = g t) → e.mapTokens f = e.mapTokens g
  | .null t, h => congrArg Expr.null (h t List.mem_cons_self)
  | .bool t, h => congrArg Expr.bool (h t List.mem_cons_self)
  | .num t, h => congrArg Expr.num (h t List.mem_cons_self)
  | .str t, h => congrArg Expr.str (h t List.mem_cons_self)
  | .field t, h => congrArg Expr.field (h t List.mem_cons_self)
  | .staticField t, h => congrArg Expr.staticField (h t List.mem_cons_self)
  | .thisValue t, h => congrArg Expr.thisValue (h t List.mem_cons_self)
  | .list _ es, h => by
    obtain ⟨hbracket, hes⟩ := List.forall_mem_cons.1 h
    rw [Expr.mapTokens, Expr.mapTokens, hbracket, mapExprs_congr es hes]
  | .map _ es, h => by
    obtain ⟨hbrace, hes⟩ := List.forall_mem_cons.1 h
    rw [Expr.mapTokens, Expr.mapTokens, hbrace, mapEntries_congr es hes]
  | .superCall _ name arguments block, h => by
    obtain ⟨hkeyword, h⟩ := List.forall_mem_cons.1 h
    obtain ⟨hname, h⟩ := List.forall_mem_append.1 h
    obtain ⟨harguments, hblock⟩ := List.forall_mem_append.1 h
    rw [Expr.mapTokens, Expr.mapTokens, hkeyword, mapArguments_congr arguments harguments,
      mapBlock_congr block hblock,
      Option.map_congr fun t ht => hname t (Option.mem_toList.2 ht)]
  | .call receiver _ arguments block, h => by
    obtain ⟨hreceiver, h⟩ := List.forall_mem_append.1 h
    obtain ⟨hname, h⟩ := List.forall_mem_cons.1 h
    obtain ⟨harguments, hblock⟩ := List.forall_mem_append.1 h
    rw [Expr.mapTokens, Expr.mapTokens, mapOptional_congr receiver hreceiver, hname,
      mapArguments_congr arguments harguments, mapBlock_congr block hblock]
  | .subscript receiver _ arguments, h => by
    obtain ⟨hreceiver, h⟩ := List.forall_mem_append.1 h
    obtain ⟨hbracket, harguments⟩ := List.forall_mem_cons.1 h
    rw [Expr.mapTokens, Expr.mapTokens, receiver.mapTokens_congr hreceiver, hbracket,
      mapExprs_congr arguments harguments]
  | .unary _ e, h => by
    obtain ⟨hoperator, he⟩ := List.forall_mem_cons.1 h
    rw [Expr.mapTokens, Expr.mapTokens, hoperator, e.mapTokens_congr he]
  | .binary l _ r, h => by
    obtain ⟨hl, h⟩ := List.forall_mem_append.1 h
    obtain ⟨hoperator, hr⟩ := List.forall_mem_cons.1 h
    rw [Expr.mapTokens, Expr.mapTokens, l.mapTokens_congr hl, hoperator, r.mapTokens_congr hr]
  | .conditional a b c, h => by
    obtain ⟨ha, h⟩ := List.forall_mem_append.1 h
    obtain ⟨hb, hc⟩ := List.forall_mem_append.1 h
    rw [Expr.mapTokens, Expr.mapTokens, a.mapTokens_congr ha, b.mapTokens_congr hb,
      c.mapTokens_congr hc]
  | .group e, h => congrArg Expr.group (e.mapTokens_congr h)
  | .assign target value, h => by
    obtain ⟨htarget, hvalue⟩ := List.forall_mem_append.1 h
    rw [Expr.mapTokens, Expr.mapTokens, target.mapTokens_congr htarget,
      value.mapTokens_congr hvalue]

/-- Relabelings that agree on their tokens do the same to expressions. -/
theorem mapExprs_congr :
    (es : List Expr) → (∀ t ∈ exprTokens es, f t = g t) → mapExprs f es = mapExprs g es
  | [], _ => rfl
  | e :: es, h => by
    obtain ⟨he, hes⟩ := List.forall_mem_append.1 h
    rw [mapExprs, mapExprs, e.mapTokens_congr he, mapExprs_congr es hes]

/-- Relabelings that agree on its tokens do the same to a map entry. -/
theorem Entry.mapTokens_congr :
    (e : Entry) → (∀ t ∈ e.tokens, f t = g t) → e.mapTokens f = e.mapTokens g
  | .mk key value, h => by
    obtain ⟨hkey, hvalue⟩ := List.forall_mem_append.1 h
    rw [Entry.mapTokens, Entry.mapTokens, key.mapTokens_congr hkey, value.mapTokens_congr hvalue]

/-- Relabelings that agree on their tokens do the same to map entries. -/
theorem mapEntries_congr :
    (es : List Entry) → (∀ t ∈ entryTokens es, f t = g t) → mapEntries f es = mapEntries g es
  | [], _ => rfl
  | e :: es, h => by
    obtain ⟨he, hes⟩ := List.forall_mem_append.1 h
    rw [mapEntries, mapEntries, e.mapTokens_congr he, mapEntries_congr es hes]

/-- Relabelings that agree on its tokens do the same to a receiver. -/
theorem mapOptional_congr :
    (e : Option Expr) → (∀ t ∈ receiverTokens e, f t = g t) → mapOptional f e = mapOptional g e
  | none, _ => rfl
  | some e, h => congrArg some (e.mapTokens_congr h)

/-- Relabelings that agree on their tokens do the same to arguments. -/
theorem mapArguments_congr :
    (es : Option (List Expr)) → (∀ t ∈ argumentTokens es, f t = g t) →
      mapArguments f es = mapArguments g es
  | none, _ => rfl
  | some es, h => congrArg some (mapExprs_congr es h)

/-- Relabelings that agree on its tokens do the same to a block. -/
theorem Block.mapTokens_congr :
    (b : Block) → (∀ t ∈ b.tokens, f t = g t) → b.mapTokens f = b.mapTokens g
  | .mk parameters body, h => by
    obtain ⟨hparameters, hbody⟩ := List.forall_mem_append.1 h
    rw [Block.mapTokens, Block.mapTokens, List.map_congr_left hparameters,
      mapStmts_congr body hbody]

/-- Relabelings that agree on its tokens do the same to a block that may be missing. -/
theorem mapBlock_congr :
    (b : Option Block) → (∀ t ∈ blockTokens b, f t = g t) → mapBlock f b = mapBlock g b
  | none, _ => rfl
  | some b, h => congrArg some (b.mapTokens_congr h)

/-- Relabelings that agree on its tokens do the same to what is assigned to. -/
theorem Target.mapTokens_congr :
    (target : Target) → (∀ t ∈ target.tokens, f t = g t) →
      target.mapTokens f = target.mapTokens g
  | .plain name, h => congrArg Target.plain (h name List.mem_cons_self)
  | .field name, h => congrArg Target.field (h name List.mem_cons_self)
  | .staticField name, h => congrArg Target.staticField (h name List.mem_cons_self)
  | .setter place, h => congrArg Target.setter (place.mapTokens_congr h)

/-- Relabelings that agree on its tokens do the same to a statement. -/
theorem Stmt.mapTokens_congr :
    (s : Stmt) → (∀ t ∈ s.tokens, f t = g t) → s.mapTokens f = s.mapTokens g
  | .importing _ names, h => by
    obtain ⟨hpath, hnames⟩ := List.forall_mem_cons.1 h
    rw [Stmt.mapTokens, Stmt.mapTokens, hpath, List.map_congr_left fun n hn =>
      ImportedName.mapTokens_congr fun t ht => hnames t (List.mem_flatMap.2 ⟨n, hn, ht⟩)]
  | .classDef _ _ superclass methods, h => by
    obtain ⟨hname, h⟩ := List.forall_mem_cons.1 h
    obtain ⟨hsuperclass, hmethods⟩ := List.forall_mem_append.1 h
    rw [Stmt.mapTokens, Stmt.mapTokens, hname, mapMethods_congr methods hmethods,
      Option.map_congr fun t ht => hsuperclass t (Option.mem_toList.2 ht)]
  | .var _ initializer, h => by
    obtain ⟨hname, hinitializer⟩ := List.forall_mem_cons.1 h
    rw [Stmt.mapTokens, Stmt.mapTokens, hname, mapOptional_congr initializer hinitializer]
  | .block body, h => congrArg Stmt.block (mapStmts_congr body h)
  | .ifElse _ condition thenBranch elseBranch, h => by
    obtain ⟨hkeyword, h⟩ := List.forall_mem_cons.1 h
    obtain ⟨hcondition, h⟩ := List.forall_mem_append.1 h
    obtain ⟨hthen, helse⟩ := List.forall_mem_append.1 h
    rw [Stmt.mapTokens, Stmt.mapTokens, hkeyword, condition.mapTokens_congr hcondition,
      thenBranch.mapTokens_congr hthen, mapBranch_congr elseBranch helse]
  | .whileLoop _ condition body, h => by
    obtain ⟨hkeyword, h⟩ := List.forall_mem_cons.1 h
    obtain ⟨hcondition, hbody⟩ := List.forall_mem_append.1 h
    rw [Stmt.mapTokens, Stmt.mapTokens, hkeyword, condition.mapTokens_congr hcondition,
      body.mapTokens_congr hbody]
  | .forLoop _ _ iterator body, h => by
    obtain ⟨hkeyword, h⟩ := List.forall_mem_cons.1 h
    obtain ⟨hname, h⟩ := List.forall_mem_cons.1 h
    obtain ⟨hiterator, hbody⟩ := List.forall_mem_append.1 h
    rw [Stmt.mapTokens, Stmt.mapTokens, hkeyword, hname, iterator.mapTokens_congr hiterator,
      body.mapTokens_congr hbody]
  | .returning _ value, h => by
    obtain ⟨hkeyword, hvalue⟩ := List.forall_mem_cons.1 h
    rw [Stmt.mapTokens, Stmt.mapTokens, hkeyword, mapOptional_congr value hvalue]
  | .breaking t, h => congrArg Stmt.breaking (h t List.mem_cons_self)
  | .continuing t, h => congrArg Stmt.continuing (h t List.mem_cons_self)
  | .expr e, h => congrArg Stmt.expr (e.mapTokens_congr h)

/-- Relabelings that agree on its tokens do the same to a branch that may be missing. -/
theorem mapBranch_congr :
    (s : Option Stmt) → (∀ t ∈ branchTokens s, f t = g t) → mapBranch f s = mapBranch g s
  | none, _ => rfl
  | some s, h => congrArg some (s.mapTokens_congr h)

/-- Relabelings that agree on their tokens do the same to statements. -/
theorem mapStmts_congr :
    (ss : List Stmt) → (∀ t ∈ stmtTokens ss, f t = g t) → mapStmts f ss = mapStmts g ss
  | [], _ => rfl
  | s :: ss, h => by
    obtain ⟨hs, hss⟩ := List.forall_mem_append.1 h
    rw [mapStmts, mapStmts, s.mapTokens_congr hs, mapStmts_congr ss hss]

/-- Relabelings that agree on its tokens do the same to a method. -/
theorem Method.mapTokens_congr :
    (m : Method) → (∀ t ∈ m.tokens, f t = g t) → m.mapTokens f = m.mapTokens g
  | .mk _ body, h => by
    obtain ⟨hhead, hbody⟩ := List.forall_mem_append.1 h
    rw [Method.mapTokens, Method.mapTokens, MethodHead.mapTokens_congr hhead,
      mapStmts_congr body hbody]

/-- Relabelings that agree on their tokens do the same to methods. -/
theorem mapMethods_congr :
    (ms : List Method) → (∀ t ∈ methodTokens ms, f t = g t) → mapMethods f ms = mapMethods g ms
  | [], _ => rfl
  | m :: ms, h => by
    obtain ⟨hm, hms⟩ := List.forall_mem_append.1 h
    rw [mapMethods, mapMethods, m.mapTokens_congr hm, mapMethods_congr ms hms]

end

/-- A module has no other tokens than those listed. -/
theorem Module.mapTokens_congr {m : Module} (h : ∀ t ∈ m.tokens, f t = g t) :
    m.mapTokens f = m.mapTokens g := by
  have hss := mapStmts_congr m.statements h
  rw [mapStmts_eq, mapStmts_eq] at hss
  exact congrArg mk hss

end Complete

/-! ### The tokens of a node -/

/-- The tokens of a node. -/
def Node.tokens : Node → List Token
  | expr e => e.tokens
  | stmt s => s.tokens
  | block b => b.tokens
  | method m => m.tokens

/-- The tokens of expressions are those of their nodes. -/
theorem exprTokens_eq (es : List Expr) :
    exprTokens es = (es.map Node.expr).flatMap Node.tokens := by
  induction es with
  | nil => rfl
  | cons e es ih =>
    rw [exprTokens, ih]
    rfl

/-- The tokens of map entries are those of their keys and values. -/
theorem entryTokens_eq (es : List Entry) :
    entryTokens es =
      (es.flatMap fun e => [Node.expr e.key, Node.expr e.value]).flatMap Node.tokens := by
  induction es with
  | nil => rfl
  | cons e es ih =>
    obtain ⟨key, value⟩ := e
    rw [entryTokens, ih, List.flatMap_cons, List.flatMap_append]
    simp [Entry.tokens, Node.tokens, Entry.key, Entry.value]

/-- The tokens of statements are those of their nodes. -/
theorem stmtTokens_eq (ss : List Stmt) :
    stmtTokens ss = (ss.map Node.stmt).flatMap Node.tokens := by
  induction ss with
  | nil => rfl
  | cons s ss ih =>
    rw [stmtTokens, ih]
    rfl

/-- The tokens of methods are those of their nodes. -/
theorem methodTokens_eq (ms : List Method) :
    methodTokens ms = (ms.map Node.method).flatMap Node.tokens := by
  induction ms with
  | nil => rfl
  | cons m ms ih =>
    rw [methodTokens, ih]
    rfl

/-- The tokens of a receiver are those of its node. -/
theorem receiverTokens_eq (e : Option Expr) :
    receiverTokens e = (e.toList.map Node.expr).flatMap Node.tokens := by
  cases e <;> simp [receiverTokens, Node.tokens]

/-- The tokens of a branch that may be missing are those of its node. -/
theorem branchTokens_eq (s : Option Stmt) :
    branchTokens s = (s.toList.map Node.stmt).flatMap Node.tokens := by
  cases s <;> simp [branchTokens, Node.tokens]

/-- The tokens that a name is called with are those of the nodes. -/
theorem tailTokens_eq (arguments : Option (List Expr)) (block : Option Block) :
    argumentTokens arguments ++ blockTokens block =
      (Node.ofTail arguments block).flatMap Node.tokens := by
  rw [Node.ofTail, List.flatMap_append]
  congr 1
  · cases arguments <;> simp [argumentTokens, exprTokens_eq]
  · cases block <;> simp [blockTokens, Node.tokens]

/-- The tokens of its parts are tokens of a node, one part behind the other. -/
theorem Node.flatMap_tokens_sublist (x : Node) : (x.children.flatMap tokens).Sublist x.tokens := by
  cases x with
  | expr e =>
    cases e with
    | assign target value =>
      cases target <;> simp [children, link, parts, tokens, Expr.tokens, Target.tokens]
    | _ =>
      simp [children, link, parts, tokens, Expr.tokens, exprTokens_eq, entryTokens_eq,
        tailTokens_eq, receiverTokens_eq, Option.toList_map]
  | stmt s =>
    cases s <;>
      simp [children, link, parts, tokens, Stmt.tokens, receiverTokens_eq, branchTokens_eq,
        stmtTokens_eq, methodTokens_eq]
  | block b =>
    obtain ⟨parameters, body⟩ := b
    simp [children, link, parts, tokens, Block.tokens, Block.body, stmtTokens_eq]
  | method m =>
    obtain ⟨head, body⟩ := m
    simp [children, link, parts, tokens, Method.tokens, Method.body, stmtTokens_eq]

/-- What is in a node has tokens of the node, in their order. -/
theorem Node.Has.tokens_sublist {x y : Node} (h : x.Has y) : y.tokens.Sublist x.tokens := by
  induction h with
  | self => exact List.Sublist.refl _
  | @child x y z hy _ ih =>
    have hpart : y.tokens.Sublist (x.children.flatMap tokens) :=
      List.sublist_flatten_of_mem (List.mem_map_of_mem hy)
    exact ih.trans (hpart.trans x.flatMap_tokens_sublist)

/-- The tokens of a node stand among those of the module, in order. -/
theorem Module.Has.tokens_sublist {m : Module} {x : Node} (h : m.Has x) :
    x.tokens.Sublist m.tokens := by
  obtain ⟨s, hs, hx⟩ := h
  rw [Module.tokens, stmtTokens_eq]
  exact hx.tokens_sublist.trans
    (List.sublist_flatten_of_mem (List.mem_map_of_mem (List.mem_map_of_mem hs)))

/-! ### The list keeps to the order of the text -/

/-- A token that a reader sees: no newline and no mark of an end. -/
def Token.Solid (t : Token) : Prop := t.kind ≠ .line ∧ t.kind ≠ .eof

/-- `ws` are tokens among `us`, in their order, none of them a newline or the mark of an
end. -/
structure Kept (ws us : List Token) : Prop where
  sublist : ws.Sublist us
  solid : ∀ t ∈ ws, t.Solid

namespace Kept

variable {t : Token} {ws ws' us us' vs : List Token}

/-- No tokens are kept of any. -/
theorem nil (us : List Token) : Kept [] us := ⟨us.nil_sublist, nofun⟩

/-- What is kept of two lists is kept of both together. -/
theorem append (h : Kept ws us) (h' : Kept ws' us') : Kept (ws ++ ws') (us ++ us') :=
  ⟨h.sublist.append h'.sublist, List.forall_mem_append.2 ⟨h.solid, h'.solid⟩⟩

/-- The construct keeps the token in front. -/
theorem token (ht : t.Solid) (h : Kept ws us) : Kept (t :: ws) (t :: us) :=
  ⟨h.sublist.cons_cons t, List.forall_mem_cons.2 ⟨ht, h.solid⟩⟩

/-- The construct drops the token in front. -/
theorem drop (t : Token) (h : Kept ws us) : Kept ws (t :: us) :=
  ⟨h.sublist.cons t, h.solid⟩

/-- What is kept is kept with others in front. -/
theorem before (vs : List Token) (h : Kept ws us) : Kept ws (vs ++ us) :=
  ⟨h.sublist.trans (List.sublist_append_right vs us), h.solid⟩

/-- What is kept is kept with others behind. -/
theorem behind (h : Kept ws us) (vs : List Token) : Kept ws (us ++ vs) :=
  ⟨h.sublist.trans (List.sublist_append_left us vs), h.solid⟩

end Kept

/-- A token of another kind than newline and end is solid. -/
theorem Token.solid_of_kind {t : Token} {k : Kind} (ht : t.kind = k)
    (hk : k ≠ .line ∧ k ≠ .eof) : t.Solid := by
  rwa [Solid, ht]

/-- A name is solid. -/
theorem Token.solid_of_name {t : Token} (ht : t.kind = .name) : t.Solid :=
  solid_of_kind ht (by simp)

/-- An operator between operands. -/
theorem Token.solid_of_precedence {t : Token} {p : Nat} (ht : t.kind.precedence = some p) :
    t.Solid := by
  constructor <;> intro hk <;> simp [hk, Kind.precedence] at ht

/-- The name of a method that is an operator. -/
theorem Token.solid_of_operatorName {t : Token} (ht : t.kind.isOperatorName = true) :
    t.Solid := by
  constructor <;> intro hk <;> simp [hk, Kind.isOperatorName] at ht

variable {us : List Token}

/-- Of a list of names the names are kept. -/
theorem NameList.kept {close : Symbol} {ns : List Token} (h : NameList close ns us) :
    Kept ns us := by
  induction h with
  | last hn => exact .token (Token.solid_of_name hn) (.nil _)
  | @more n t ls ls' ns us hn _ _ _ _ ih =>
    exact .token (Token.solid_of_name hn) (.before ls (.drop t (ih.before ls')))

/-- Of names that may be missing the names are kept. -/
theorem Names.kept {close : Symbol} {ns : List Token} (h : Names close ns us) : Kept ns us := by
  cases h with
  | none => exact .nil _
  | some _ hns => exact hns.kept.before _

/-- Of a name that may be missing the name is kept. -/
theorem OptionalName.kept {k : Kind} {n : Option Token} (h : OptionalName k n us) :
    Kept n.toList us := by
  cases h with
  | none => exact .nil _
  | some _ hn => exact .drop _ (.token (Token.solid_of_name hn) (.nil _))

/-- Of block parameters the names are kept. -/
theorem BlockHead.kept {ns : List Token} (h : BlockHead ns us) : Kept ns us := by
  cases h with
  | none | bars => exact .nil _
  | some _ hns => exact hns.kept.drop _

/-- Of imported names the names are kept, old and new. -/
theorem ImportList.kept {ns : List ImportedName} (h : ImportList ns us) :
    Kept (ns.flatMap ImportedName.tokens) us := by
  induction h with
  | @last n a ls us _ hn ha =>
    have hone : Kept (n :: a.toList) (n :: us) := .token (Token.solid_of_name hn) ha.kept
    simpa [ImportedName.tokens] using hone.before ls
  | @more n t a ls us vs ns _ hn ha _ _ ih =>
    exact .before ls (.token (Token.solid_of_name hn) (ha.kept.append (.drop t ih)))

/-- Of a parameter list the names are kept. -/
theorem Parameters.kept {ps : Option (List Token)} (h : Parameters ps us) :
    Kept (ps.getD []) us := by
  cases h with
  | none => exact .nil _
  | some _ hns => exact hns.kept.drop _

/-- Of the parameter of a setter the name is kept. -/
theorem SetterValue.kept {v : Token} (h : SetterValue v us) : Kept [v] us := by
  cases h with
  | mk _ _ hv => exact .drop _ (.drop _ (.token (Token.solid_of_name hv) (.nil _)))

/-- Of a head the name and the parameters are kept. -/
theorem Heads.kept {n : Token} {k : MethodKind} {ps : Option (List Token)}
    (h : Heads n k ps us) : Kept (n :: ps.getD []) us := by
  cases h with
  | named hn hps => exact .token (Token.solid_of_name hn) hps.kept
  | setter hn hv => exact .token (Token.solid_of_name hn) hv.kept
  | operator ho hps => exact .token (Token.solid_of_operatorName ho) hps.kept
  | subscript hb hns => exact .token (Token.solid_of_kind hb (by simp)) hns.kept
  | subscriptSetter hb hns hv =>
    exact .token (Token.solid_of_kind hb (by simp)) (hns.kept.append hv.kept)

/-- A place that is assigned to has the tokens of the expression it is read from. -/
theorem Expr.tokens_of_target? {e : Expr} {target : Target} (h : e.target? = some target) :
    target.tokens = e.tokens := by
  cases standsFor_of_target? h with
  | name =>
    unfold Target.ofName
    split <;> rfl
  | _ => rfl

/-- Each construct keeps some of the tokens it is written with, in their order. -/
theorem Derives.kept {p : Phrase} (h : Derives p us) : Kept p.tokens us := by
  induction h with
  | null ht | num ht | str ht | thisValue ht =>
    exact .token (Token.solid_of_kind ht (by simp)) (.nil _)
  | @bool t ht =>
    refine .token ?_ (.nil _)
    constructor <;> intro hk <;> simp [hk] at ht
  | field ht | staticField ht => exact .token (Token.solid_of_name ht) (.nil _)
  | name ht _ _ ih => exact .token (Token.solid_of_name ht) ih
  | superCall ht hn _ ih => exact .token (Token.solid_of_kind ht (by simp)) (hn.kept.append ih)
  | @group o c e ls us ls' _ _ _ _ _ ih => exact .drop o (.before ls (ih.behind (ls' ++ [c])))
  | list hb _ ih | map hb _ ih => exact .token (Token.solid_of_kind hb (by simp)) ih
  | continued _ _ ih => exact ih.behind _
  | @call d n e as b us ls vs _ _ _ hn _ ih ihtail =>
    exact ih.append (.drop d (.before ls (.token (Token.solid_of_name hn) ihtail)))
  | subscript _ hb _ ih ihs =>
    exact ih.append (.token (Token.solid_of_kind hb (by simp)) ihs)
  | @unary o e us ho _ ih =>
    refine .token ?_ ih
    constructor <;> intro hk <;> simp [hk] at ho
  | binary _ ho _ _ ihl ihr =>
    exact ihl.append (.token (Token.solid_of_precedence ho) (ihr.before _))
  | @conditional q k e a b us ls vs ls₁ ls₂ ws _ _ _ _ _ _ _ _ ihe iha ihb =>
    exact ihe.append (.drop q (.before ls (iha.append (.before ls₁ (.drop k (ihb.before ls₂))))))
  | @assign q e v target us ls vs _ htarget _ _ _ ihe ihv =>
    rw [Phrase.tokens, Expr.tokens, Expr.tokens_of_target? htarget]
    exact ihe.append (.drop q (ihv.before ls))
  | argumentsEnd => exact .nil _
  | @argumentsLast r t e ls us ls' _ _ _ _ ih =>
    simpa [Phrase.tokens, exprTokens] using (ih.behind (ls' ++ [t])).before ls
  | @argumentsMore r t e es ls us ls' vs _ _ _ _ _ ihe ihs =>
    exact .before ls (ihe.append (.before ls' (.drop t ihs)))
  | entriesEnd => exact .nil _
  | @entriesLast k t key value ls us ls₁ ls₂ vs ls₃ _ _ _ _ _ _ _ _ ihk ihv =>
    have hone := ihk.append (.before ls₁ (.drop k (.before ls₂ (ihv.behind (ls₃ ++ [t])))))
    simpa [Phrase.tokens, entryTokens, Entry.tokens] using hone.before ls
  | @entriesMore k t key value es ls us ls₁ ls₂ vs ls₃ ws _ _ _ _ _ _ _ _ _ ihk ihv ihs =>
    have hmore := ihk.append (.before ls₁ (.drop k (.before ls₂ (ihv.append
      (.before ls₃ (.drop t ihs))))))
    simpa [Phrase.tokens, entryTokens, Entry.tokens] using hmore.before ls
  | tailNone => exact .nil _
  | tailArguments _ _ ih =>
    simpa [Phrase.tokens, argumentTokens, blockTokens] using ih.drop _
  | @tailBlock o as ps ss us vs ws _ _ hps _ ih ihs =>
    have hcall : Kept (argumentTokens as) us := by simpa [Phrase.tokens, blockTokens] using ih
    exact hcall.append (.drop o (hps.kept.append ihs))
  | @condition o c e ls us ls' _ _ _ _ _ ih => exact .drop o (.before ls (ih.behind (ls' ++ [c])))
  | expr _ ih => exact ih
  | block _ _ ih => exact ih.drop _
  | @ifThen k e s us vs ls hk _ _ _ ihe ihs =>
    refine .token (Token.solid_of_kind hk (by simp)) (ihe.append ?_)
    simpa [Phrase.tokens, branchTokens] using ihs.behind ls
  | @ifElse k t e s s' us vs ls ws hk _ _ _ _ _ ihe ihs ihs' =>
    exact .token (Token.solid_of_kind hk (by simp))
      (ihe.append (ihs.append (.before ls (.drop t ihs'))))
  | whileLoop hk _ _ ihe ihs => exact .token (Token.solid_of_kind hk (by simp)) (ihe.append ihs)
  | @forLoop k o n i c e s ls ls₁ us ls₂ vs hk _ _ hn _ _ _ _ _ _ ihe ihs =>
    refine .token (Token.solid_of_kind hk (by simp)) (.drop o (.before ls ?_))
    exact .token (Token.solid_of_name hn) (.drop i (.before ls₁ (ihe.append
      (.before ls₂ (.drop c ihs)))))
  | returning hk | breaking hk | continuing hk =>
    exact .token (Token.solid_of_kind hk (by simp)) (.nil _)
  | returningValue hk _ ih => exact .token (Token.solid_of_kind hk (by simp)) ih
  | importing _ hp => exact .drop _ (.token (Token.solid_of_kind hp (by simp)) (.nil _))
  | @importingNames k p f ns us _ hp _ hns =>
    exact .drop k (.token (Token.solid_of_kind hp (by simp)) (hns.kept.drop f))
  | var _ hn => exact .drop _ (.token (Token.solid_of_name hn) (.nil _))
  | @varValue k n q e ls us _ hn _ _ _ ih =>
    exact .drop k (.token (Token.solid_of_name hn) (.drop q (ih.before ls)))
  | @classDef isForeign n b parent ms us vs ws _ hn hparent _ _ ih =>
    exact .before us (.token (Token.solid_of_name hn) (hparent.kept.append (ih.drop b)))
  | bodyEnd | methodsEnd => exact .nil _
  | bodyAttribute _ _ _ ih | methodsAttribute _ _ _ ih => exact (ih.before _).before _
  | @bodyMore s ss ls us ls' vs _ _ _ _ ihs ih => exact .before ls (ihs.append (ih.before ls'))
  | @methodBody n b k ps ss found us vs ws _ hhead _ _ ih =>
    exact .before us (hhead.kept.append (ih.drop b))
  | methodForeign _ _ hhead =>
    simpa [Phrase.tokens, Method.tokens, MethodHead.tokens, stmtTokens] using hhead.kept.before _
  | @methodsMore m ms ls us ls' vs _ _ _ _ ihm ih => exact .before ls (ihm.append (ih.before ls'))

/-- Of statements the tokens of their trees are kept. -/
theorem Statements.kept {ss : List Stmt} (h : Statements ss us) : Kept (stmtTokens ss) us := by
  induction h with
  | nil => exact .nil _
  | attributed _ _ _ ih => exact (ih.before _).before _
  | definition hs _ _ ih => exact hs.kept.append (ih.before _)

namespace Module

/-- Of the tokens of a module those of its tree are kept. -/
theorem kept_of_ofTokens {ts : List Token} {m : Module} (h : ofTokens ts = .ok m) :
    Kept m.tokens ts := by
  obtain ⟨ls, us, rest, rfl, -, hss, -⟩ := statements_of_ofTokens h
  exact (hss.kept.behind rest).before ls

/-- **A tree keeps to the order of the text.**  Where the tokens of a text, all of them or the
first few, are read as a module, all the tokens that the module keeps, in the order of the
grammar, are among those tokens in the same order.  So they start one behind the other, and
none is a newline, the mark of the end or the mark that is seen behind the last token. -/
theorem tokens_ofTokens {text : String} {ts : List Token} {m : Module}
    (hts : ts <+: Token.tokenizePrefix text) (h : ofTokens ts = .ok m) :
    (∀ f g : Token → Token, (∀ t ∈ m.tokens, f t = g t) → m.mapTokens f = m.mapTokens g) ∧
    m.tokens.Sublist ts ∧
    (m.tokens.Pairwise fun s t => s.position.offset < t.position.offset) ∧
    ∀ t ∈ m.tokens, t.kind ≠ .line ∧ t.kind ≠ .eof ∧ t ≠ Cursor.stopOf ts := by
  have hkept := kept_of_ofTokens h
  refine ⟨fun f g => mapTokens_congr, hkept.sublist, ?_, fun t ht => ?_⟩
  · exact (Token.streams_tokenizePrefix text).inOrder.sublist (hkept.sublist.trans hts.sublist)
  · obtain ⟨hline, heof⟩ := hkept.solid t ht
    refine ⟨hline, heof, fun hstop => heof ?_⟩
    rw [hstop]
    exact Cursor.stopOf_kind ts

/-- The tokens before a stray bracket: a class without methods and an assignment, whose place
is an expression that was read before. -/
theorem tokens_ofTokens_of_setter :
    ∃ ts m, ts = (Token.tokenizePrefix
      "foreign class A is B \x7b\x7d\n c.d[e].f = -g + (h \x7b|i|\n i \x7d)\n)").take 30 ∧
      ofTokens ts = .ok m ∧
      m.tokens.map Token.text = ["A", "B", "c", "d", "[", "e", "f", "-", "g", "+", "h", "i", "i"] ∧
      m.tokens.Sublist ts ∧
      m.tokens.Pairwise fun s t => s.position.offset < t.position.offset := by
  have hm : (ofTokens ((Token.tokenizePrefix
      "foreign class A is B \x7b\x7d\n c.d[e].f = -g + (h \x7b|i|\n i \x7d)\n)").take
      30)).toOption.map (fun m => m.tokens.map Token.text) =
        some ["A", "B", "c", "d", "[", "e", "f", "-", "g", "+", "h", "i", "i"] := by
    decide +kernel
  obtain ⟨m, h, htexts⟩ := exists_of_toOption_map hm
  obtain ⟨-, hsublist, horder, -⟩ := tokens_ofTokens (List.take_prefix 30 _) h
  exact ⟨_, m, rfl, h, htexts, hsublist, horder⟩

end Module
end WrenAnalysis
