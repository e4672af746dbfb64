/-
# The registry of modules

The registry holds the parsed modules, each under an identity, the order in which
the identities first got one, and the identities that are being loaded.  An
identity is absent, pending or ready.

The order and the modules are kept apart, and a registry carries the proof that
they are about the same identities.
-/

import WrenAnalysis.Syntax.Tree

namespace WrenAnalysis

/-- Where an identity stands. -/
inductive UnitState where
  | absent
  | pending
  | ready
  deriving DecidableEq, Repr, Inhabited

/-- The parsed modules and the loads under way. -/
structure Registry where
  /-- The ready identities, in the order in which they first became ready. -/
  order : List String := []
  /-- The module under each ready identity. -/
  modules : List (String × Module) := []
  /-- The identities that are being loaded. -/
  pending : List String := []
  /-- No identity is listed twice. -/
  distinct : order.Nodup := by exact List.nodup_nil
  /-- The identities that are listed are those that have a module. -/
  listed : order.Perm (modules.map (·.1)) := by exact List.Perm.nil

namespace Registry

/-- The ready identities, in order. -/
def identities (r : Registry) : List String := r.order

/-- The module registered under an identity. -/
def get? (r : Registry) (identity : String) : Option Module := r.modules.lookup identity

/-- An identity has a module. -/
def contains (r : Registry) (identity : String) : Bool := (r.get? identity).isSome

/-- The ready identities with their modules, in order. -/
def units (r : Registry) : List (String × Module) :=
  r.order.filterMap fun identity => (r.get? identity).map fun m => (identity, m)

/-- An identity is being loaded. -/
def isPending (r : Registry) (identity : String) : Bool := identity ∈ r.pending

/-- Where an identity stands. -/
def state (r : Registry) (identity : String) : UnitState :=
  if r.isPending identity then .pending
  else if r.contains identity then .ready
  else .absent

/-- No load is under way. -/
def isSettled (r : Registry) : Bool := r.pending.isEmpty

/-- The list with `module` under `identity`, in the place of an older one or at
the end. -/
def put (identity : String) (module : Module) : List (String × Module) → List (String × Module)
  | [] => [(identity, module)]
  | u :: us => if u.1 = identity then (identity, module) :: us else u :: put identity module us

/-- The list with an identity at its end, unless it has a module already. -/
def enlist (r : Registry) (identity : String) : List String :=
  if r.contains identity then r.order else r.order ++ [identity]

/-- The pending identities without one. -/
def without (identity : String) (pending : List String) : List String :=
  pending.filter (· ≠ identity)

/-- What is listed has a module. -/
theorem contains_iff_mem_order {r : Registry} {identity : String} :
    r.contains identity = true ↔ identity ∈ r.order := by
  rw [r.listed.mem_iff, contains, get?, List.lookup_isSome_iff, List.mem_map]
  simp only [beq_iff_eq]
  exact exists_congr fun u => and_congr_right fun _ => eq_comm

/-- A unit that is there is replaced where it stands. -/
theorem keys_put_of_mem {identity : String} {m : Module} {us : List (String × Module)}
    (h : identity ∈ us.map (·.1)) : (put identity m us).map (·.1) = us.map (·.1) := by
  induction us with
  | nil => cases h
  | cons u us ih =>
    unfold put
    split
    · next hu => rw [List.map_cons, List.map_cons, hu]
    · next hu =>
      rw [List.map_cons, List.mem_cons] at h
      rw [List.map_cons, List.map_cons, ih (h.resolve_left (Ne.symm hu))]

/-- A new unit comes last. -/
theorem keys_put_of_notMem {identity : String} {m : Module} {us : List (String × Module)}
    (h : identity ∉ us.map (·.1)) :
    (put identity m us).map (·.1) = us.map (·.1) ++ [identity] := by
  induction us with
  | nil => rfl
  | cons u us ih =>
    rw [List.map_cons, List.mem_cons, not_or] at h
    rw [put, if_neg (Ne.symm h.1), List.map_cons, List.map_cons, ih h.2, List.cons_append]

/-- No identity is listed twice, however often it is listed. -/
theorem nodup_enlist (r : Registry) (identity : String) : (r.enlist identity).Nodup := by
  unfold enlist
  split
  · exact r.distinct
  · next h =>
    rw [contains_iff_mem_order] at h
    refine List.nodup_append.2 ⟨r.distinct, by simp, fun a ha b hb hab => h ?_⟩
    rw [← List.mem_singleton.1 hb, ← hab]
    exact ha

/-- Listing and storing an identity go together. -/
theorem enlist_perm (r : Registry) (identity : String) (m : Module) :
    (r.enlist identity).Perm ((put identity m r.modules).map (·.1)) := by
  have hmem : r.contains identity = true ↔ identity ∈ r.modules.map (·.1) :=
    contains_iff_mem_order.trans r.listed.mem_iff
  unfold enlist
  split
  · next h =>
    rw [keys_put_of_mem (hmem.1 h)]
    exact r.listed
  · next h =>
    rw [keys_put_of_notMem fun hi => h (hmem.2 hi)]
    exact r.listed.append_right [identity]

/-- Registers a module.  It takes the place of an older one, and a load of the
identity that is under way no longer counts. -/
def insert (r : Registry) (identity : String) (module : Module) : Registry where
  order := r.enlist identity
  modules := put identity module r.modules
  pending := without identity r.pending
  distinct := r.nodup_enlist identity
  listed := r.enlist_perm identity module

/-- Starts a load; nothing if the identity is not absent. -/
def begin? (r : Registry) (identity : String) : Option Registry :=
  if r.state identity = .absent then some { r with pending := r.pending ++ [identity] } else none

/-- Ends a load, with a module if it succeeded; nothing if the identity is not
pending. -/
def complete? (r : Registry) (identity : String) (module : Option Module) : Option Registry :=
  if r.isPending identity then
    match module with
    | some m => some (r.insert identity m)
    | none => some { r with pending := without identity r.pending }
  else none

/-- The registry after a load that may no longer be pending. -/
def complete (r : Registry) (identity : String) (module : Option Module) : Registry :=
  (r.complete? identity module).getD r

end Registry
end WrenAnalysis
