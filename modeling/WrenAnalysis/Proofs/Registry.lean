/-
# What the operations of a registry do

Where an identity stands is decided by two lists, the pending identities and the
ready ones.  Each operation is described here by what it does to membership in
them, and to the module stored under an identity (`get?`), so that no later proof
opens `put`, `insert`, `begin?` or `complete`.
-/

import Mathlib.Data.List.Basic
import Mathlib.Tactic.SplitIfs
import WrenAnalysis.Registry

namespace WrenAnalysis

/-- Looking up in a list of pairs, one pair at a time. -/
theorem lookup_cons_ite {α : Type} (key other : String) (a : α) (l : List (String × α)) :
    ((key, a) :: l).lookup other = if other = key then some a else l.lookup other := by
  rw [List.lookup_cons]
  by_cases h : other = key
  · rw [if_pos h, beq_iff_eq.2 h]
  · rw [if_neg h, beq_false_of_ne h]

/-- Looking up in the pairs that a function gives for the keys in a list. -/
theorem lookup_filterMap {α : Type} (keys : List String) (f : String → Option α) (key : String) :
    (keys.filterMap fun k => (f k).map fun a => (k, a)).lookup key =
      if key ∈ keys then f key else none := by
  induction keys with
  | nil => rfl
  | cons k keys ih =>
      cases hf : f k with
      | none =>
          rw [List.filterMap_cons_none (by rw [hf, Option.map_none]), ih]
          by_cases hk : key = k
          · subst hk
            simp [hf]
          · simp [hk]
      | some a =>
          rw [List.filterMap_cons_some (by rw [hf, Option.map_some]), lookup_cons_ite, ih]
          by_cases hk : key = k
          · subst hk
            simp [hf]
          · simp [hk]

/-- What is found under a key stands in the list with that key. -/
theorem mem_of_lookup {α : Type} {key : String} {a : α} {l : List (String × α)}
    (h : l.lookup key = some a) : (key, a) ∈ l := by
  obtain ⟨l₁, l₂, rfl, -⟩ := List.lookup_eq_some_iff.1 h
  exact List.mem_append_right _ List.mem_cons_self

/-- An entry is found under its key if no key stands in the list twice. -/
theorem lookup_of_mem {α : Type} {key : String} {a : α} {l : List (String × α)}
    (distinct : (l.map (·.1)).Nodup) (h : (key, a) ∈ l) : l.lookup key = some a := by
  induction l with
  | nil => cases h
  | cons e l ih =>
      obtain ⟨first, b⟩ := e
      obtain ⟨hnew, hrest⟩ := List.nodup_cons.1 distinct
      rw [lookup_cons_ite]
      rcases List.mem_cons.1 h with he | hl
      · obtain ⟨rfl, rfl⟩ := Prod.mk.inj he
        exact if_pos rfl
      · have hkey : key ∈ l.map (·.1) := List.mem_map_of_mem hl
        have hne : key ≠ first := fun he => hnew (he ▸ hkey)
        rw [if_neg hne, ih hrest hl]

namespace Registry

variable {r r' : Registry} {identity other : String} {m : Module}

/-- The test for a load that is under way. -/
@[simp] theorem isPending_iff : r.isPending identity = true ↔ identity ∈ r.pending := by
  simp [isPending]

/-- The test for a stored module. -/
@[simp] theorem contains_iff : r.contains identity = true ↔ identity ∈ r.identities :=
  contains_iff_mem_order

/-- A registry is settled if it waits for nothing. -/
@[simp] theorem isSettled_iff : r.isSettled = true ↔ r.pending = [] := by
  simp [isSettled]

/-- An identity is pending while it is waited for, be there a module or not. -/
theorem state_eq_pending_iff : r.state identity = .pending ↔ identity ∈ r.pending := by
  unfold state
  split_ifs <;> simp_all

/-- An identity is ready if it has a module and is not waited for. -/
theorem state_eq_ready_iff :
    r.state identity = .ready ↔ identity ∉ r.pending ∧ identity ∈ r.identities := by
  unfold state
  split_ifs <;> simp_all

/-- An identity is absent if it has no module and is not waited for. -/
theorem state_eq_absent_iff :
    r.state identity = .absent ↔ identity ∉ r.pending ∧ identity ∉ r.identities := by
  unfold state
  split_ifs <;> simp_all

/-- The identities are those with a module. -/
theorem get?_isSome_iff : (r.get? identity).isSome = true ↔ identity ∈ r.identities :=
  contains_iff_mem_order

/-- The ready identities are listed with their modules, each of them once. -/
theorem map_fst_units (r : Registry) : r.units.map (·.1) = r.identities := by
  have hget : ∀ identity ∈ r.order,
      (r.get? identity).map (fun _ => identity) = some identity := by
    intro identity h
    obtain ⟨m, hm⟩ := Option.isSome_iff_exists.1 (get?_isSome_iff.2 h)
    rw [hm, Option.map_some]
  rw [units, List.map_filterMap]
  simp only [Option.map_map, Function.comp_def]
  rw [List.filterMap_congr hget, List.filterMap_some]
  rfl

/-- The units of a registry hold each module under its identity. -/
theorem lookup_units (r : Registry) (identity : String) :
    r.units.lookup identity = r.get? identity := by
  rw [units, lookup_filterMap]
  split_ifs with h
  · rfl
  · rw [← identities, ← get?_isSome_iff, Option.not_isSome_iff_eq_none] at h
    exact h.symm

/-- Taking an identity out leaves all others. -/
@[simp] theorem mem_without {pending : List String} :
    other ∈ without identity pending ↔ other ∈ pending ∧ other ≠ identity := by
  simp [without]

/-- Taking out what is not there changes nothing. -/
theorem without_of_notMem {pending : List String} (h : identity ∉ pending) :
    without identity pending = pending := by
  refine List.filter_eq_self.2 fun other ho => ?_
  exact decide_eq_true fun he => h (he ▸ ho)

/-! ### Registering a module -/

/-- A unit that is put is found under its identity, and all others as before. -/
theorem lookup_put (us : List (String × Module)) :
    (put identity m us).lookup other = if other = identity then some m else us.lookup other := by
  induction us with
  | nil => rw [put, lookup_cons_ite]
  | cons u us ih =>
      obtain ⟨key, old⟩ := u
      unfold put
      split_ifs with hk ho ho
      · rw [lookup_cons_ite, if_pos ho]
      · have hne : other ≠ key := fun h => ho (h.trans hk)
        rw [lookup_cons_ite, if_neg ho, lookup_cons_ite, if_neg hne]
      · have hne : other ≠ key := fun h => hk (h.symm.trans ho)
        rw [lookup_cons_ite, if_neg hne, ih, if_pos ho]
      · rw [lookup_cons_ite, ih, if_neg ho, lookup_cons_ite]

/-- An identity whose module is stored is not waited for any more. -/
@[simp] theorem mem_pending_insert :
    other ∈ (r.insert identity m).pending ↔ other ∈ r.pending ∧ other ≠ identity :=
  mem_without

/-- An identity whose module is stored has one from then on. -/
@[simp] theorem mem_identities_insert :
    other ∈ (r.insert identity m).identities ↔ other = identity ∨ other ∈ r.identities := by
  simp only [identities, insert, enlist]
  split_ifs with h
  · rw [contains_iff_mem_order] at h
    exact ⟨.inr, fun ho => ho.elim (fun he => he ▸ h) id⟩
  · rw [List.mem_append, List.mem_singleton, or_comm]

/-- A stored module takes the place of that of its identity and of no other. -/
theorem get?_insert :
    (r.insert identity m).get? other = if other = identity then some m else r.get? other :=
  lookup_put r.modules

/-! ### Loads -/

/-- The registry with one more load under way. -/
def await (r : Registry) (identity : String) : Registry :=
  { r with pending := r.pending ++ [identity] }

/-- An identity that is awaited is pending, and so are those before it. -/
@[simp] theorem mem_pending_await :
    other ∈ (r.await identity).pending ↔ other ∈ r.pending ∨ other = identity := by
  simp [await]

/-- A load begins for an identity that is absent, and makes it pending. -/
theorem begin?_eq_some (h : r.begin? identity = some r') :
    r.state identity = .absent ∧ r' = r.await identity := by
  unfold begin? at h
  split_ifs at h with ha
  exact ⟨ha, (Option.some.inj h).symm⟩

/-- The registry with the load of an identity taken back. -/
def release (r : Registry) (identity : String) : Registry :=
  { r with pending := without identity r.pending }

/-- An identity that is released is not waited for any more. -/
@[simp] theorem mem_pending_release :
    other ∈ (r.release identity).pending ↔ other ∈ r.pending ∧ other ≠ identity :=
  mem_without

/-- A load that fails is taken back; if it is no longer pending there is nothing
to take back. -/
theorem complete_none : r.complete identity none = r.release identity := by
  by_cases h : identity ∈ r.pending
  · simp [complete, complete?, release, h]
  · simp [complete, complete?, release, h, without_of_notMem h]

/-- A load that is waited for stores its module. -/
theorem complete?_of_mem (h : identity ∈ r.pending) :
    r.complete? identity (some m) = some (r.insert identity m) := by
  simp [complete?, h]

/-- A load that nobody waits for is refused. -/
theorem complete?_of_notMem (h : identity ∉ r.pending) :
    r.complete? identity (some m) = none := by
  simp [complete?, h]

end Registry
end WrenAnalysis
