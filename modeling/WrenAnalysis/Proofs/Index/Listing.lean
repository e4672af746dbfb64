/-
# What an index lists

The index of a registry is built in one pass.  The pass keeps lists without doubles, and
two tables of places that have to fit the lists.  Here the index is described without a
pass: each piece of a module adds its own to the lists (`Listing`), wherever it stands, and
the index is what the modules add, one behind the other (`Index.build_eq`).

What is listed once is listed where it first occurs, and a table finds what a search
through the list would find (`Index.build_lists`).
-/

import Mathlib.Data.List.Induction
import WrenAnalysis.Index.Basic
import WrenAnalysis.Proofs.Distinct
import WrenAnalysis.Proofs.Index.Places
import WrenAnalysis.Proofs.Registry

namespace WrenAnalysis

/-! ### What the pieces of a module declare -/

namespace ClassDef

/-- The names that a class can be completed to: its own and those of its methods. -/
def completions (c : ClassDef) : List Completion :=
  ⟨c.name.text, .class_⟩ :: c.methods.filterMap fun m => Index.completionOf m.head

/-- One signature for each method. -/
def signatures (source : String) (c : ClassDef) : List Signature :=
  c.methods.map fun m =>
    ⟨m.head.displayName, m.head.label c.name.text, m.head.parameterNames, source⟩

/-- The methods whose bodies have more places than the budget. -/
def walkErrors (source : String) (budget : Nat) (c : ClassDef) : List WalkError :=
  (c.methods.filter (budget < ·.places.length)).map fun m =>
    ⟨source, c.name.text, m.head.displayName, budget⟩

/-- What the other methods bind, in the order of the text. -/
def bound (budget : Nat) (c : ClassDef) : List Completion :=
  (c.methods.filter (·.places.length ≤ budget)).flatMap fun m =>
    m.places.flatMap BodyNode.bindings

end ClassDef

/-- What a statement at the top level binds: a variable, or what a class binds. -/
def Stmt.bound (budget : Nat) (s : Stmt) : List Completion :=
  match s.classDef?, s.variableDef? with
  | some c, _ => c.bound budget
  | none, some v => [⟨v.name.text, .variable_⟩]
  | none, none => []

/-- What a module binds, in the order of its statements. -/
def Module.bound (budget : Nat) (m : Module) : List Completion :=
  m.statements.flatMap (Stmt.bound budget)

/-! ### Names without doubles -/

namespace Index

/-- Adding completions keeps the first of each name, classes and other names apart. -/
theorem foldl_addCompletion (cs : List Completion) :
    cs.foldl addCompletion [] = cs.eraseDupsBy sameName := by
  have h : cs.foldl addCompletion [] = _ := foldl_addNew sameName cs []
  rw [h]
  simp

/-- Adding bindings keeps the first of each name. -/
theorem foldl_addBinding (cs : List Completion) :
    cs.foldl addBinding [] = cs.eraseDupsBy fun a b => a.name == b.name := by
  have hsame : addBinding = fun kept a =>
      if kept.any (fun b => a.name == b.name) then kept else kept ++ [a] := by
    funext kept a
    have hall : (fun b : Completion => decide (b.name = a.name)) = fun b => a.name == b.name := by
      funext b
      rw [Bool.eq_iff_iff, decide_eq_true_iff, beq_iff_eq, eq_comm]
    rw [addBinding, hall]
  have h := foldl_addNew (fun a b : Completion => a.name == b.name) cs []
  rw [hsame, h]
  simp

/-! ### The pass as a sum of its pieces -/

/-- What a piece of a module adds to the lists of an index. -/
structure Listing where
  completions : List Completion := []
  signatures : List Signature := []
  walkErrors : List WalkError := []
  bound : List Completion := []

namespace Listing

/-- One listing behind the other. -/
def append (l l' : Listing) : Listing :=
  ⟨l.completions ++ l'.completions, l.signatures ++ l'.signatures, l.walkErrors ++ l'.walkErrors,
    l.bound ++ l'.bound⟩

/-- Listings one behind the other. -/
def concat (ls : List Listing) : Listing :=
  ⟨ls.flatMap (·.completions), ls.flatMap (·.signatures), ls.flatMap (·.walkErrors),
    ls.flatMap (·.bound)⟩

def ofMethod (source className : String) (budget : Nat) (m : Method) : Listing where
  completions := (completionOf m.head).toList
  signatures := [⟨m.head.displayName, m.head.label className, m.head.parameterNames, source⟩]
  walkErrors :=
    if m.places.length ≤ budget then [] else [⟨source, className, m.head.displayName, budget⟩]
  bound := if m.places.length ≤ budget then m.places.flatMap BodyNode.bindings else []

def ofClass (source : String) (budget : Nat) (c : ClassDef) : Listing :=
  ⟨c.completions, c.signatures source, c.walkErrors source budget, c.bound budget⟩

def ofStmt (source : String) (budget : Nat) (s : Stmt) : Listing :=
  match s.classDef?, s.variableDef? with
  | some c, _ => .ofClass source budget c
  | none, some v => { bound := [⟨v.name.text, .variable_⟩] }
  | none, none => {}

def ofModule (budget : Nat) (u : String × Module) : Listing where
  completions := u.2.classes.flatMap ClassDef.completions
  signatures := u.2.classes.flatMap (ClassDef.signatures u.1)
  walkErrors := u.2.classes.flatMap (ClassDef.walkErrors u.1 budget)
  bound := u.2.bound budget

/-- Methods one after the other list their completions, signatures, errors and variables. -/
theorem concat_ofMethod (source className : String) (budget : Nat) (ms : List Method) :
    concat (ms.map (ofMethod source className budget)) =
      { completions := ms.filterMap fun m => completionOf m.head
        signatures := ms.map fun m =>
          ⟨m.head.displayName, m.head.label className, m.head.parameterNames, source⟩
        walkErrors := (ms.filter (budget < ·.places.length)).map fun m =>
          ⟨source, className, m.head.displayName, budget⟩
        bound := (ms.filter (·.places.length ≤ budget)).flatMap fun m =>
          m.places.flatMap BodyNode.bindings } := by
  induction ms with
  | nil => rfl
  | cons m ms ih =>
    simp only [concat, mk.injEq] at ih
    obtain ⟨hc, hs, hw, hb⟩ := ih
    simp only [concat, List.map_cons, List.flatMap_cons, hc, hs, hw, hb, ofMethod, mk.injEq]
    refine ⟨?_, rfl, ?_, ?_⟩
    · cases h : completionOf m.head <;> simp [h]
    · by_cases h : m.places.length ≤ budget
      · simp [h]
      · simp [h, Nat.lt_of_not_le h]
    · by_cases h : m.places.length ≤ budget <;> simp [h]

/-- Statements that are no classes declare nothing but variables. -/
theorem ofStmt_eq (source : String) (budget : Nat) (s : Stmt) :
    ofStmt source budget s =
      { completions := s.classDef?.toList.flatMap ClassDef.completions
        signatures := s.classDef?.toList.flatMap (ClassDef.signatures source)
        walkErrors := s.classDef?.toList.flatMap (ClassDef.walkErrors source budget)
        bound := s.bound budget } := by
  unfold ofStmt Stmt.bound
  cases s.classDef? with
  | some c => simp [ofClass]
  | none => cases s.variableDef? <;> rfl

/-- A module lists what its statements list, one after the other. -/
theorem ofModule_eq (budget : Nat) (u : String × Module) :
    ofModule budget u = concat (u.2.statements.map (ofStmt u.1 budget)) := by
  have hclasses {α : Type} (f : ClassDef → List α) : u.2.classes.flatMap f =
      u.2.statements.flatMap fun s => s.classDef?.toList.flatMap f := by
    rw [Module.classes, List.filterMap_eq_flatMap_toList, List.flatMap_assoc]
  simp only [concat, List.flatMap_map, ofStmt_eq, ofModule, hclasses, Module.bound]

end Listing

open Listing

/-! ### The pass -/

namespace Builder

/-- The builder with a listing added to it. -/
def add (b : Builder) (l : Listing) : Builder where
  index := { b.index with
    completions := l.completions.foldl addCompletion b.index.completions
    signatures := b.index.signatures ++ l.signatures
    signaturePlaces := (l.signatures.zipIdx b.index.signatures.length).foldl
      (fun table s => note s.1.method s.2 table) b.index.signaturePlaces
    walkErrors := b.index.walkErrors ++ l.walkErrors }
  bindings := l.bound.foldl addBinding b.bindings

/-- Adding nothing changes nothing. -/
theorem add_empty (b : Builder) : b.add {} = b := by
  simp [add]

/-- Listings may be joined before they are added. -/
theorem add_append (b : Builder) (l l' : Listing) : (b.add l).add l' = b.add (l.append l') := by
  simp [add, append, List.zipIdx_append]

/-- Listings that are added one after the other may be added at once. -/
theorem foldl_add {α : Type} (f : α → Listing) (as : List α) (b : Builder) :
    as.foldl (fun b a => b.add (f a)) b = b.add (concat (as.map f)) := by
  induction as generalizing b with
  | nil => exact (add_empty b).symm
  | cons a as ih =>
    rw [List.foldl_cons, ih, add_append]
    rfl

/-- The builder adds for a method what the method lists. -/
theorem addMethod_eq (source className : String) (budget : Nat) :
    addMethod source className budget = fun b m => b.add (.ofMethod source className budget m) := by
  funext b m
  unfold addMethod
  rw [m.bindings_eq]
  by_cases h : m.places.length ≤ budget
  · simp [add, ofMethod, h]
  · simp [add, ofMethod, h]

/-- The builder adds for a class what the class lists. -/
theorem addClass_eq (source : String) (budget : Nat) (b : Builder) (c : ClassDef) :
    b.addClass source budget c = b.add (.ofClass source budget c) := by
  have hname : b.add { completions := [⟨c.name.text, .class_⟩] } =
      { b with index := { b.index with
          completions := addCompletion b.index.completions ⟨c.name.text, .class_⟩ } } := by
    simp [add]
  unfold addClass
  rw [addMethod_eq]
  dsimp only
  rw [← hname, foldl_add, add_append, concat_ofMethod]
  rfl

/-- The builder adds for a statement what the statement lists. -/
theorem addStmt_eq (source : String) (budget : Nat) :
    addStmt source budget = fun b s => b.add (.ofStmt source budget s) := by
  funext b s
  unfold addStmt ofStmt
  cases s.classDef? with
  | some c => exact addClass_eq source budget b c
  | none =>
    cases s.variableDef? with
    | some v => simp [add]
    | none => exact (add_empty b).symm

end Builder

/-- The place of each file, the last file first. -/
def placesOf (files : List FileBindings) : List (String × Nat) :=
  (files.zipIdx.map fun f => (f.1.identity, f.2)).reverse

/-- The index of some modules, each field by itself. -/
def ofUnits (budget : Nat) (units : List (String × Module)) : Index :=
  let listings := concat (units.map (.ofModule budget))
  let files := units.map fun u => ⟨u.1, (u.2.bound budget).foldl addBinding []⟩
  { completions := listings.completions.foldl addCompletion []
    signatures := listings.signatures
    files
    signaturePlaces := listings.signatures.zipIdx.foldl (fun table s => note s.1.method s.2 table) []
    filePlaces := placesOf files
    walkErrors := listings.walkErrors }

/-- **The pass lists what the modules declare.** -/
theorem build_eq (r : Registry) (budget : Nat) : build r budget = ofUnits budget r.units := by
  unfold build
  induction r.units using List.reverseRecOn with
  | nil => rfl
  | append_singleton units u ih =>
    rw [List.foldl_append, ih, List.foldl_cons, List.foldl_nil, addModule]
    rw [Builder.addStmt_eq, Builder.foldl_add, ← ofModule_eq]
    simp [Builder.add, ofUnits, concat, ofModule, placesOf, List.zipIdx_append]

/-! ### The tables of places -/

/-- A place is noted behind the others of its name. -/
theorem lookup_note (name other : String) (place : Nat) (table : List (String × List Nat)) :
    (note name place table).lookup other =
      if other = name then some ((table.lookup name).getD [] ++ [place])
      else table.lookup other := by
  induction table with
  | nil => exact lookup_cons_ite name other [place] []
  | cons e table ih =>
    obtain ⟨key, places⟩ := e
    unfold note
    split_ifs with hk ho ho
    · rw [lookup_cons_ite, if_pos ho, lookup_cons_ite, if_pos hk.symm, Option.getD_some]
    · have hne : other ≠ key := fun h => ho (h.trans hk)
      rw [lookup_cons_ite, if_neg ho, lookup_cons_ite, if_neg hne]
    · have hne : other ≠ key := fun h => hk (h.symm.trans ho)
      rw [lookup_cons_ite, if_neg hne, ih, if_pos ho, lookup_cons_ite, if_neg (ho ▸ hne)]
    · rw [lookup_cons_ite, ih, if_neg ho, lookup_cons_ite]

/-- Under a name are the places of the signatures that were noted with it, in order. -/
theorem lookup_foldl_note (name : String) (noted : List (Signature × Nat))
    (table : List (String × List Nat)) :
    ((noted.foldl (fun table s => note s.1.method s.2 table) table).lookup name).getD [] =
      (table.lookup name).getD [] ++ (noted.filter (·.1.method = name)).map (·.2) := by
  induction noted generalizing table with
  | nil => exact (List.append_nil _).symm
  | cons s noted ih =>
    rw [List.foldl_cons, ih, lookup_note]
    by_cases h : s.1.method = name
    · simp [h]
    · simp [h, Ne.symm h]

/-- Reading the places of some members of a list gives these members. -/
theorem filterMap_getElem?_zipIdx {α : Type} (as : List α) (p : α → Bool) :
    ((as.zipIdx.filter fun a => p a.1).map (·.2)).filterMap (fun i => as[i]?) = as.filter p := by
  have hread : ∀ a ∈ as.zipIdx.filter (fun a => p a.1), as[a.2]? = some a.1 :=
    fun a ha => List.mem_zipIdx_iff_getElem?.1 (List.mem_of_mem_filter ha)
  calc ((as.zipIdx.filter fun a => p a.1).map (·.2)).filterMap (fun i => as[i]?)
      = (as.zipIdx.filter fun a => p a.1).filterMap (fun a => some a.1) := by
        rw [List.filterMap_map]
        exact List.filterMap_congr hread
    _ = (as.zipIdx.map (·.1)).filter p := by
        rw [List.filterMap_eq_map', List.filter_map]
        rfl
    _ = as.filter p := by rw [List.zipIdx_map_fst]

/-- The signatures found for a name are those of methods of that name. -/
theorem signaturesFor_ofUnits (budget : Nat) (units : List (String × Module)) (name : String) :
    (ofUnits budget units).signaturesFor name =
      (ofUnits budget units).signatures.filter (·.method = name) := by
  rw [signaturesFor, ofUnits, lookup_foldl_note]
  exact filterMap_getElem?_zipIdx _ fun s : Signature => s.method = name

/-- A file is found by its identity if no other file has it. -/
theorem variablesIn_eq {index : Index} (places : index.filePlaces = placesOf index.files)
    (distinct : (index.files.map (·.identity)).Nodup) (identity : String) :
    index.variablesIn identity =
      ((index.files.find? (·.identity = identity)).map (·.bound)).getD [] := by
  have hkeys : (placesOf index.files).map (·.1) = (index.files.map (·.identity)).reverse := by
    conv_rhs => rw [← List.zipIdx_map_fst 0 index.files, List.map_map]
    rw [placesOf, List.map_reverse, List.map_map]
    rfl
  unfold variablesIn
  rw [places]
  cases hf : index.files.find? (·.identity = identity) with
  | none =>
    have hnone : (placesOf index.files).lookup identity = none := by
      refine List.lookup_eq_none_iff.2 fun e he => bne_iff_ne.2 ?_
      rintro rfl
      have hkey := List.mem_map_of_mem (f := Prod.fst) he
      rw [hkeys, List.mem_reverse] at hkey
      obtain ⟨file, hfile, hid⟩ := List.mem_map.1 hkey
      exact List.find?_eq_none.1 hf file hfile (decide_eq_true hid)
    rw [hnone]
    rfl
  | some file =>
    obtain ⟨i, hi⟩ := List.getElem?_of_mem (List.mem_of_find?_eq_some hf)
    have hmem : (identity, i) ∈ placesOf index.files := by
      have hid : file.identity = identity := by simpa using List.find?_some hf
      rw [placesOf, List.mem_reverse, List.mem_map]
      exact ⟨(file, i), List.mem_zipIdx_iff_getElem?.2 hi, by rw [hid]⟩
    have hsome := lookup_of_mem (hkeys ▸ (List.reverse_perm _).nodup_iff.2 distinct) hmem
    rw [hsome, Option.bind_some, hi]
    rfl

/-- There is a file for each identity that is ready. -/
theorem identities_build (r : Registry) (budget : Nat) :
    (build r budget).files.map (·.identity) = r.identities := by
  rw [build_eq, ofUnits, List.map_map, ← r.map_fst_units]
  rfl

/-- The variables of a file are those that the list of files has for it. -/
theorem variablesIn_build (r : Registry) (budget : Nat) (identity : String) :
    (build r budget).variablesIn identity =
      (((build r budget).files.find? (·.identity = identity)).map (·.bound)).getD [] := by
  refine variablesIn_eq ?_ ?_ identity
  · rw [build_eq]
    rfl
  · rw [identities_build]
    exact r.distinct

/-- **What an index lists.**  The completions are the names of the classes and of the
methods called by name, class by class, where each first occurs among classes or among
methods.  There is a signature for each method, a file for each module, with what its
variables and the methods within the budget bind, and an error for each method beyond the
budget, all in the order of the registry and of the text.  By name and by identity is found
what is listed under it. -/
theorem build_lists (r : Registry) (budget : Nat) :
    let index := build r budget
    index.completions =
        (r.units.flatMap fun u => u.2.classes.flatMap ClassDef.completions).eraseDupsBy sameName ∧
      index.signatures =
        (r.units.flatMap fun u => u.2.classes.flatMap (ClassDef.signatures u.1)) ∧
      (index.files = r.units.map fun u =>
        ⟨u.1, (u.2.bound budget).eraseDupsBy fun a b => a.name == b.name⟩) ∧
      index.walkErrors =
        (r.units.flatMap fun u => u.2.classes.flatMap (ClassDef.walkErrors u.1 budget)) ∧
      (∀ name, index.signaturesFor name = index.signatures.filter (·.method = name)) ∧
      ∀ identity, index.variablesIn identity =
        ((index.files.find? (·.identity = identity)).map (·.bound)).getD [] := by
  intro index
  have hindex : index = ofUnits budget r.units := build_eq r budget
  refine ⟨?_, ?_, ?_, ?_, ?_, variablesIn_build r budget⟩
  · simp only [hindex, ofUnits, concat, List.flatMap_map, ofModule, foldl_addCompletion]
  · simp only [hindex, ofUnits, concat, List.flatMap_map, ofModule]
  · simp only [hindex, ofUnits, foldl_addBinding]
  · simp only [hindex, ofUnits, concat, List.flatMap_map, ofModule]
  · intro name
    rw [hindex]
    exact signaturesFor_ofUnits budget r.units name

end Index
end WrenAnalysis
