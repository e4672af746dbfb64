/-
# A registry is a machine with three states for each identity

An identity is absent, pending or ready with a module (`Slot`), and what is asked about
it moves it from one state to another (`Slot.answer`).  A `Machine` is such a slot for
each identity and a record of the modules that were registered, in order.  It knows
nothing of lists, tables and places.

A registry that is asked the same things stands where the machine stands
(`Registry.Shows`, kept by each request in `Registry.Shows.ask`).  What
`Registry.run_refines_machine` says of a registry after any requests is read off that.
-/

import Mathlib.Data.List.Nodup
import Mathlib.Logic.Function.Basic
import WrenAnalysis.Proofs.Registry

namespace WrenAnalysis
namespace Registry

/-- Where an identity stands, with the module it has if it is ready. -/
inductive Slot where
  | absent
  | pending
  | ready (module : Module)

/-- What is asked of a registry about an identity. -/
inductive Request where
  /-- A module is registered. -/
  | insert (module : Module)
  /-- A load starts. -/
  | beginLoad
  /-- A load ends, with a module if it succeeded. -/
  | completeLoad (module : Option Module)

namespace Slot

def state : Slot → UnitState
  | absent => .absent
  | pending => .pending
  | ready _ => .ready

def module? : Slot → Option Module
  | ready m => some m
  | _ => none

/-- Where a request takes an identity; nothing if it is refused. -/
def answer : Slot → Request → Option Slot
  | _, .insert m => some (.ready m)
  | absent, .beginLoad => some .pending
  | pending, .completeLoad (some m) => some (.ready m)
  | pending, .completeLoad none => some .absent
  | _, _ => none

end Slot

/-- A slot for each identity, and the modules that were registered, in order. -/
structure Machine where
  slot : String → Slot := fun _ => .absent
  registered : List (String × Module) := []

namespace Machine

/-- A request about an identity moves its slot and no other. -/
def ask (μ : Machine) (q : String × Request) : Machine :=
  match (μ.slot q.1).answer q.2 with
  | none => μ
  | some s =>
    { slot := Function.update μ.slot q.1 s
      registered := μ.registered ++ s.module?.toList.map fun m => (q.1, m) }

/-- The machine after some requests. -/
def run (requests : List (String × Request)) : Machine := requests.foldl ask {}

/-- The module that was registered last under an identity. -/
def latest (μ : Machine) (identity : String) : Option Module :=
  μ.registered.reverse.lookup identity

end Machine

/-- The registry after a request; nothing if it is refused. -/
def ask? (r : Registry) (q : String × Request) : Option Registry :=
  match q.2 with
  | .insert m => some (r.insert q.1 m)
  | .beginLoad => r.begin? q.1
  | .completeLoad m => r.complete? q.1 m

/-- The registry after a request, unchanged if it is refused. -/
def ask (r : Registry) (q : String × Request) : Registry := (r.ask? q).getD r

/-- The registry after some requests. -/
def run (requests : List (String × Request)) : Registry := requests.foldl ask {}

/-- The registry stands where the machine stands. -/
structure Shows (r : Registry) (μ : Machine) : Prop where
  pending : ∀ identity, identity ∈ r.pending ↔ μ.slot identity = .pending
  stored : ∀ identity, r.get? identity = (μ.slot identity).module?
  /-- No identity is pending twice. -/
  once : r.pending.Nodup
  /-- The identities stand in the order of their first modules. -/
  first : r.order = (μ.registered.map (·.1)).eraseDups
  /-- The module of an identity is its last one. -/
  last : ∀ identity, r.get? identity = μ.latest identity

variable {r : Registry} {μ : Machine} {identity : String} {m : Module}
  {requests : List (String × Request)}

namespace Shows

/-- The empty registry shows machines at rest. -/
theorem empty : Shows {} {} :=
  ⟨fun _ => by simp, fun _ => rfl, List.nodup_nil, rfl, fun _ => rfl⟩

/-- The state of an identity is that of its machine. -/
theorem state (h : r.Shows μ) (identity : String) :
    r.state identity = (μ.slot identity).state := by
  have hready : identity ∈ r.identities ↔ (μ.slot identity).module?.isSome = true := by
    rw [← get?_isSome_iff, h.stored]
  have hpending := h.pending identity
  cases hs : μ.slot identity with
  | absent =>
    rw [hs] at hready hpending
    exact state_eq_absent_iff.2
      ⟨fun hp => Slot.noConfusion (hpending.1 hp), fun hr => Bool.noConfusion (hready.1 hr)⟩
  | pending => exact state_eq_pending_iff.2 (hpending.2 hs)
  | ready m =>
    rw [hs] at hready hpending
    exact state_eq_ready_iff.2 ⟨fun hp => Slot.noConfusion (hpending.1 hp), hready.2 rfl⟩

/-- No identity with a module is being loaded. -/
theorem apart (h : r.Shows μ) (pending : identity ∈ r.pending) : identity ∉ r.order := by
  intro hready
  obtain ⟨m, hm⟩ := Option.isSome_iff_exists.1 (get?_isSome_iff.2 hready)
  rw [h.stored, (h.pending identity).1 pending] at hm
  cases hm

/-- The ready identities are those that are listed. -/
theorem ready_iff (h : r.Shows μ) : r.state identity = .ready ↔ identity ∈ r.order :=
  state_eq_ready_iff.trans ⟨And.right, fun hi => ⟨fun hp => h.apart hp hi, hi⟩⟩

/-- A module that is registered makes the identity ready, wherever it stood. -/
theorem insert (h : r.Shows μ) (identity : String) (m : Module) :
    (r.insert identity m).Shows
      ⟨Function.update μ.slot identity (.ready m), μ.registered ++ [(identity, m)]⟩ where
  pending other := by
    rw [mem_pending_insert, h.pending]
    by_cases ho : other = identity
    · subst ho
      simp
    · simp [ho]
  stored other := by
    rw [get?_insert, h.stored]
    by_cases ho : other = identity
    · subst ho
      simp [Slot.module?]
    · simp [ho]
  once := h.once.filter _
  first := by
    have hmem : r.contains identity = true ↔ identity ∈ μ.registered.map (·.1) := by
      rw [contains_iff_mem_order, h.first, List.mem_eraseDups]
    rw [List.map_append, List.eraseDups_append, ← h.first]
    by_cases hc : r.contains identity = true
    · have hgone : [identity].removeAll (μ.registered.map (·.1)) = [] := by
        simpa [List.removeAll] using hmem.1 hc
      simp only [Registry.insert, enlist, if_pos hc, List.map_cons, List.map_nil, hgone]
      exact (List.append_nil _).symm
    · have hkept : [identity].removeAll (μ.registered.map (·.1)) = [identity] := by
        simpa [List.removeAll] using mt hmem.2 hc
      simp only [Registry.insert, enlist, if_neg hc, List.map_cons, List.map_nil, hkept]
      rfl
  last other := by
    rw [get?_insert, h.last, Machine.latest, Machine.latest, List.reverse_append]
    exact (lookup_cons_ite identity other m _).symm

/-- A slot may move to one that has the same module. -/
theorem stored_update (h : r.Shows μ) {s : Slot} (hs : r.get? identity = s.module?)
    (other : String) : r.get? other = (Function.update μ.slot identity s other).module? := by
  by_cases ho : other = identity
  · rw [ho, Function.update_self, hs]
  · rw [Function.update_of_ne ho, h.stored]

/-- Waiting for an absent identity moves its machine to the pending state. -/
theorem await (h : r.Shows μ) (absent : r.state identity = .absent) :
    (r.await identity).Shows ⟨Function.update μ.slot identity .pending, μ.registered⟩ where
  pending other := by
    rw [mem_pending_await, h.pending]
    by_cases ho : other = identity
    · subst ho
      simp
    · simp [ho]
  stored :=
    h.stored_update (Option.not_isSome_iff_eq_none.1
      (mt get?_isSome_iff.1 (state_eq_absent_iff.1 absent).2))
  once := by
    have hnew := (state_eq_absent_iff.1 absent).1
    refine List.nodup_append.2 ⟨h.once, List.nodup_singleton identity, ?_⟩
    rintro other ho _ hi rfl
    exact hnew (List.mem_singleton.1 hi ▸ ho)
  first := h.first
  last := h.last

/-- Releasing a pending identity moves its machine back to the absent state. -/
theorem release (h : r.Shows μ) (pending : identity ∈ r.pending) :
    (r.release identity).Shows ⟨Function.update μ.slot identity .absent, μ.registered⟩ where
  pending other := by
    rw [mem_pending_release, h.pending]
    by_cases ho : other = identity
    · subst ho
      simp
    · simp [ho]
  stored := h.stored_update (by rw [h.stored, (h.pending identity).1 pending]; rfl)
  once := h.once.filter _
  first := h.first
  last := h.last

/-- **Registry and machine answer a request alike**, and stand alike behind it. -/
theorem ask (h : r.Shows μ) (q : String × Request) :
    (r.ask? q).isSome = ((μ.slot q.1).answer q.2).isSome ∧ (r.ask q).Shows (μ.ask q) := by
  obtain ⟨identity, request⟩ := q
  have hstate := h.state identity
  cases request with
  | insert m => exact ⟨rfl, h.insert identity m⟩
  | beginLoad =>
    cases hs : μ.slot identity with
    | absent =>
      rw [hs] at hstate
      have hbegin : r.begin? identity = some (r.await identity) := if_pos hstate
      simp only [Registry.ask, ask?, Machine.ask, hbegin, hs, Slot.answer]
      refine ⟨rfl, ?_⟩
      simpa [Slot.module?] using h.await hstate
    | pending | ready =>
      rw [hs] at hstate
      have hrefused : r.begin? identity = none := if_neg (by rw [hstate]; exact nofun)
      simp only [Registry.ask, ask?, Machine.ask, hrefused, hs, Slot.answer]
      exact ⟨rfl, h⟩
  | completeLoad module =>
    cases hs : μ.slot identity with
    | pending =>
      have hpending := (h.pending identity).2 hs
      cases module with
      | some m =>
        simp only [Registry.ask, ask?, Machine.ask, complete?_of_mem hpending, hs, Slot.answer]
        exact ⟨rfl, h.insert identity m⟩
      | none =>
        have hcomplete : r.complete? identity none = some (r.release identity) :=
          if_pos (isPending_iff.2 hpending)
        simp only [Registry.ask, ask?, Machine.ask, hcomplete, hs, Slot.answer]
        refine ⟨rfl, ?_⟩
        simpa [Slot.module?] using h.release hpending
    | absent | ready =>
      have hidle : ¬r.isPending identity = true := fun hp => by
        rw [isPending_iff, h.pending, hs] at hp
        cases hp
      have hrefused : r.complete? identity module = none := if_neg hidle
      simp only [Registry.ask, ask?, Machine.ask, hrefused, hs, Slot.answer]
      exact ⟨rfl, h⟩

end Shows

/-- A run goes on from what the requests before have left. -/
theorem run_append (before after : List (String × Request)) :
    run (before ++ after) = after.foldl ask (run before) := List.foldl_append

/-- Whatever was requested, the registry shows what the machines have come to. -/
theorem run_shows (requests : List (String × Request)) : (run requests).Shows (.run requests) := by
  have hfold : ∀ (r : Registry) (μ : Machine), r.Shows μ →
      (requests.foldl ask r).Shows (requests.foldl Machine.ask μ) := by
    induction requests with
    | nil => exact fun r μ h => h
    | cons q requests ih => exact fun r μ h => ih _ _ (h.ask q).2
  exact hfold {} {} .empty

/-! ### What requests leave in place -/

/-- A load may begin for an absent identity and for no other. -/
theorem begin?_isSome_iff : (r.begin? identity).isSome ↔ r.state identity = .absent := by
  unfold begin?
  split_ifs with h <;> simp [h]

/-- A load may be completed for a pending identity and for no other. -/
theorem complete?_isSome_iff {module : Option Module} :
    (r.complete? identity module).isSome ↔ r.state identity = .pending := by
  rw [state_eq_pending_iff, ← isPending_iff]
  unfold complete?
  split_ifs with h
  · cases module <;> simp [h]
  · simp [h]

/-- A request that is refused changes nothing. -/
theorem ask_of_refused {q : String × Request} (h : r.ask? q = none) : r.ask q = r := by
  rw [ask, h, Option.getD_none]

/-- A request leaves the order as it is or lists one identity more. -/
theorem order_ask (r : Registry) (q : String × Request) : r.order <+: (r.ask q).order := by
  have hinsert : ∀ m, r.order <+: (r.insert q.1 m).order := by
    intro m
    simp only [insert, enlist]
    split_ifs
    · exact List.prefix_refl _
    · exact List.prefix_append _ _
  obtain ⟨identity, request⟩ := q
  cases request with
  | insert m => exact hinsert m
  | beginLoad =>
    simp only [ask, ask?, begin?]
    split_ifs <;> exact List.prefix_refl _
  | completeLoad module =>
    simp only [ask, ask?, complete?]
    split_ifs
    · cases module with
      | some m => exact hinsert m
      | none => exact List.prefix_refl _
    · exact List.prefix_refl _

/-- The order of a registry only ever grows at its end. -/
theorem order_foldl_ask (r : Registry) (requests : List (String × Request)) :
    r.order <+: (requests.foldl ask r).order := by
  induction requests generalizing r with
  | nil => exact List.prefix_refl _
  | cons q requests ih => exact (order_ask r q).trans (ih _)

/-- Every ready identity is listed once, with the module that was registered last. -/
theorem Shows.units (h : r.Shows μ) : ∀ u ∈ r.units, μ.latest u.1 = some u.2 := by
  intro u hu
  obtain ⟨identity, -, hget⟩ := List.mem_filterMap.1 hu
  obtain ⟨m, hm, rfl⟩ := Option.map_eq_some_iff.1 hget
  rw [← h.last, hm]

/-- **A registry is the machine.**  After any requests the two agree on where each
identity stands, and so on which of the next requests they refuse.  What was listed stays
listed, in its place, and what is listed is what was registered. -/
theorem run_refines_machine (requests : List (String × Request)) :
    let r := run requests
    let μ := Machine.run requests
    -- The order, the modules and the pending identities fit together.
    (r.order.Nodup ∧ r.order.Perm (r.modules.map (·.1)) ∧ r.pending.Nodup ∧
      ∀ identity ∈ r.pending, identity ∉ r.modules.map (·.1)) ∧
    -- An identity stands where its slot stands, with the module of the slot.
    (∀ identity, r.state identity = (μ.slot identity).state ∧
      r.get? identity = (μ.slot identity).module? ∧
      (r.state identity = .pending ↔ identity ∈ r.pending) ∧
      (r.state identity = .ready ↔ identity ∈ r.order)) ∧
    -- A load starts from absent and ends from pending; a refused request changes nothing.
    (∀ identity, ((r.begin? identity).isSome ↔ r.state identity = .absent) ∧
      ∀ module, (r.complete? identity module).isSome ↔ r.state identity = .pending) ∧
    (∀ q, (r.ask? q).isSome = ((μ.slot q.1).answer q.2).isSome ∧
      (r.ask? q = none → run (requests ++ [q]) = r)) ∧
    -- Later requests only list more, and leave what is ready ready.
    (∀ later, r.order <+: (run (requests ++ later)).order ∧
      ∀ identity, r.state identity = .ready →
        (run (requests ++ later)).state identity = .ready) ∧
    -- The list is that of the first registrations, with the modules of the last ones.
    r.order = (μ.registered.map (·.1)).eraseDups ∧ r.units.map (·.1) = r.order ∧
    ∀ u ∈ r.units, μ.latest u.1 = some u.2 := by
  intro r μ
  have h : r.Shows μ := run_shows requests
  refine ⟨⟨r.distinct, r.listed, h.once, ?_⟩, ?_, ?_, ?_, ?_, h.first, map_fst_units r, h.units⟩
  · intro identity hp hkey
    exact h.apart hp (r.listed.mem_iff.2 hkey)
  · exact fun identity => ⟨h.state identity, h.stored identity, state_eq_pending_iff, h.ready_iff⟩
  · exact fun identity => ⟨begin?_isSome_iff, fun module => complete?_isSome_iff⟩
  · intro q
    refine ⟨(h.ask q).1, fun hq => ?_⟩
    rw [run_append]
    exact ask_of_refused hq
  · intro later
    have hgrow : r.order <+: (run (requests ++ later)).order := by
      rw [run_append]
      exact order_foldl_ask _ later
    refine ⟨hgrow, fun identity hready => ?_⟩
    exact (run_shows (requests ++ later)).ready_iff.2 (hgrow.mem (h.ready_iff.1 hready))

end Registry
end WrenAnalysis
