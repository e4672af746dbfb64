/-
# The names that a body binds

A place of a body binds at most one name, a variable that is declared or a field that is
assigned to (`BodyNode.binder?`).  The names bound in a body, place by place in the order of the
tree (`Method.binders`), are what `Method.bindings` lists, unless the body has more places than
the budget.

The tokens of these names are among those that the tree keeps, in the same order
(`Method.names_sublist`).  So where a method has been read from a text, its names stand in the
text in the order in which they are listed (`Method.bindings_binders`).
-/

import WrenAnalysis.Proofs.Index.Listing
import WrenAnalysis.Proofs.Syntax.Retained

namespace WrenAnalysis

/-- A name where it is bound, and what it is bound as. -/
structure Binder where
  name : Token
  kind : CompletionKind

/-- What the name can be completed to. -/
def Binder.completion (b : Binder) : Completion := ⟨b.name.text, b.kind⟩

namespace BodyNode

/-- The name that a place binds by itself. -/
def binder? : BodyNode → Option Binder
  | stmt (.var name _) => some ⟨name, .variable_⟩
  | expr (.assign (.field name) _) => some ⟨name, .field⟩
  | expr (.assign (.staticField name) _) => some ⟨name, .field⟩
  | _ => none

/-- The names that are bound at places. -/
def names (ns : List BodyNode) : List Token := (ns.filterMap binder?).map Binder.name

/-- A node binds what its binder names, and else nothing. -/
theorem bindings_eq_binder? (n : BodyNode) :
    n.bindings = (n.binder?.map Binder.completion).toList := by
  cases n with
  | stmt s => cases s <;> rfl
  | expr e =>
    cases e with
    | assign target value => cases target <;> rfl
    | _ => rfl

/-- Some nodes bind what their binders name, in their order. -/
theorem flatMap_bindings (ns : List BodyNode) :
    ns.flatMap bindings = (ns.filterMap binder?).map Binder.completion := by
  rw [List.map_filterMap, List.filterMap_eq_flatMap_toList]
  exact List.flatMap_congr fun n _ => n.bindings_eq_binder?

variable {ns ns' : List BodyNode} {ts ts' : List Token}

/-- Names that are tokens in their order are so one list behind the other. -/
theorem names_append (h : (names ns).Sublist ts) (h' : (names ns').Sublist ts') :
    (names (ns ++ ns')).Sublist (ts ++ ts') := by
  rw [names, List.filterMap_append, List.map_append]
  exact h.append h'

end BodyNode

/-! ### The names of a tree in its tokens -/

open BodyNode (names names_append)

mutual

/-- The names bound in an expression are tokens of it, in their order. -/
theorem Expr.names_sublist : (e : Expr) → (names (.expr e :: e.inner)).Sublist e.tokens
  | .null _ | .bool _ | .num _ | .str _ | .field _ | .staticField _ | .thisValue _ =>
    List.nil_sublist _
  | .list _ es => (exprNames_sublist es).cons _
  | .map _ es => (entryNames_sublist es).cons _
  | .superCall _ name arguments block => by
    have h := names_append (argumentNames_sublist arguments) (blockNames_sublist block)
    exact (h.trans (List.sublist_append_right name.toList _)).cons _
  | .call receiver name arguments block => by
    have h := names_append (receiverNames_sublist receiver) ((names_append
      (argumentNames_sublist arguments) (blockNames_sublist block)).cons name)
    rwa [← List.append_assoc] at h
  | .subscript receiver bracket arguments =>
    names_append receiver.names_sublist ((exprNames_sublist arguments).cons bracket)
  | .unary _ e => e.names_sublist.cons _
  | .binary l operator r => names_append l.names_sublist (r.names_sublist.cons operator)
  | .conditional a b c => by
    have h := names_append a.names_sublist (names_append b.names_sublist c.names_sublist)
    rwa [← List.append_assoc] at h
  | .group e => e.names_sublist
  | .assign (.plain _) value => value.names_sublist.cons _
  | .assign (.field name) value => value.names_sublist.cons_cons name
  | .assign (.staticField name) value => value.names_sublist.cons_cons name
  | .assign (.setter place) value => names_append place.names_sublist value.names_sublist

/-- The names in expressions stand among their tokens, in order. -/
theorem exprNames_sublist : (es : List Expr) → (names (exprPlaces es)).Sublist (exprTokens es)
  | [] => List.nil_sublist _
  | e :: es => names_append e.names_sublist (exprNames_sublist es)

/-- The names in an entry of a map stand among its tokens, in order. -/
theorem Entry.names_sublist : (e : Entry) → (names e.places).Sublist e.tokens
  | .mk key value => names_append key.names_sublist value.names_sublist

/-- The names in the entries of a map stand among their tokens, in order. -/
theorem entryNames_sublist : (es : List Entry) → (names (entryPlaces es)).Sublist (entryTokens es)
  | [] => List.nil_sublist _
  | e :: es => names_append e.names_sublist (entryNames_sublist es)

/-- The names in a receiver stand among its tokens, in order. -/
theorem receiverNames_sublist :
    (e : Option Expr) → (names (optionalPlaces e)).Sublist (receiverTokens e)
  | none => List.nil_sublist _
  | some e => e.names_sublist

/-- The names in arguments stand among their tokens, in order. -/
theorem argumentNames_sublist :
    (es : Option (List Expr)) → (names (argumentPlaces es)).Sublist (argumentTokens es)
  | none => List.nil_sublist _
  | some es => exprNames_sublist es

/-- The parameters of a block and the names in its body stand among its tokens, in order. -/
theorem Block.names_sublist : (b : Block) → (names b.places).Sublist b.tokens
  | .mk parameters body =>
    (stmtNames_sublist body).trans (List.sublist_append_right parameters _)

/-- The names in a block that may be missing stand among its tokens, in order. -/
theorem blockNames_sublist : (b : Option Block) → (names (blockPlaces b)).Sublist (blockTokens b)
  | none => List.nil_sublist _
  | some b => b.names_sublist

/-- The names bound in a statement are tokens of it, in their order. -/
theorem Stmt.names_sublist : (s : Stmt) → (names (.stmt s :: s.inner)).Sublist s.tokens
  | .importing .. | .classDef .. | .breaking _ | .continuing _ => List.nil_sublist _
  | .var name initializer => (receiverNames_sublist initializer).cons_cons name
  | .block body => stmtNames_sublist body
  | .ifElse keyword condition thenBranch elseBranch => by
    have h := names_append condition.names_sublist
      (names_append thenBranch.names_sublist (branchNames_sublist elseBranch))
    rw [← List.append_assoc] at h
    exact h.cons keyword
  | .whileLoop keyword condition body =>
    (names_append condition.names_sublist body.names_sublist).cons keyword
  | .forLoop keyword name iterator body =>
    ((names_append iterator.names_sublist body.names_sublist).cons name).cons keyword
  | .returning _ value => (receiverNames_sublist value).cons _
  | .expr e => e.names_sublist

/-- The names in a branch that may be missing stand among its tokens, in order. -/
theorem branchNames_sublist :
    (s : Option Stmt) → (names (branchPlaces s)).Sublist (branchTokens s)
  | none => List.nil_sublist _
  | some s => s.names_sublist

/-- The names in statements stand among their tokens, in order. -/
theorem stmtNames_sublist : (ss : List Stmt) → (names (stmtPlaces ss)).Sublist (stmtTokens ss)
  | [] => List.nil_sublist _
  | s :: ss => names_append s.names_sublist (stmtNames_sublist ss)

end

namespace Method

variable (m : Method)

/-- The names bound in the body of a method, place by place in the order of the tree. -/
def binders : List Binder := m.places.filterMap BodyNode.binder?

/-- The names bound in the body of a method are tokens of it, in their order. -/
theorem names_sublist : (m.binders.map Binder.name).Sublist m.tokens := by
  obtain ⟨head, body⟩ := m
  exact (stmtNames_sublist body).trans (List.sublist_append_right head.tokens _)

/-- Where a method has been read from the tokens of a text, the names bound in it are among
these tokens, each in front of the next. -/
theorem names_inOrder {text : String} {ts : List Token} {module : Module} {m : Method}
    (hts : ts <+: Token.tokenizePrefix text) (h : Module.ofTokens ts = .ok module)
    (hm : module.Has (.method m)) :
    (m.binders.map Binder.name).Sublist ts ∧
      (m.binders.map Binder.name).Pairwise fun s t => s.position.offset < t.position.offset := by
  have hkept : (m.binders.map Binder.name).Sublist ts :=
    m.names_sublist.trans (hm.tokens_sublist.trans (Module.kept_of_ofTokens h).sublist)
  exact ⟨hkept, (Token.streams_tokenizePrefix text).inOrder.sublist (hkept.trans hts.sublist)⟩

/-- **The bindings of a method are the names bound in its body.**  If the body has no more places
than the budget, what is listed are the names bound at its places, in the order of the tree, and
otherwise there is nothing to list but an error that names the method, its class and the budget.
So the index takes up the one or the other.  The names of a method that has been read stand in
the text in this order. -/
theorem bindings_binders (budget : Nat) :
    (m.places.length ≤ budget → m.bindings budget = some (m.binders.map Binder.completion)) ∧
    (budget < m.places.length → m.bindings budget = none) ∧
    (∀ (source className : String) (b : Index.Builder),
      let added := b.addMethod source className budget m
      (m.places.length ≤ budget →
        added.bindings = (m.binders.map Binder.completion).foldl Index.addBinding b.bindings ∧
          added.index.walkErrors = b.index.walkErrors) ∧
      (budget < m.places.length →
        added.bindings = b.bindings ∧ added.index.walkErrors =
          b.index.walkErrors ++ [⟨source, className, m.head.displayName, budget⟩])) ∧
    ∀ (text : String) (ts : List Token) (module : Module), ts <+: Token.tokenizePrefix text →
      Module.ofTokens ts = .ok module → module.Has (.method m) →
        (m.binders.map Binder.name).Sublist ts ∧
          (m.binders.map Binder.name).Pairwise fun s t =>
            s.position.offset < t.position.offset := by
  have hbound : m.places.flatMap BodyNode.bindings = m.binders.map Binder.completion :=
    BodyNode.flatMap_bindings m.places
  refine ⟨fun h => ?_, fun h => ?_, fun source className b => ?_,
    fun text ts module => names_inOrder⟩
  · rw [bindings_eq, if_pos h, hbound]
  · rw [bindings_eq, if_neg (Nat.not_le_of_lt h)]
  · rw [Index.Builder.addMethod_eq, ← hbound]
    refine ⟨fun h => ?_, fun h => ?_⟩
    · simp [Index.Builder.add, Index.Listing.ofMethod, h]
    · simp [Index.Builder.add, Index.Listing.ofMethod, Nat.not_le_of_lt h]

end Method
end WrenAnalysis
