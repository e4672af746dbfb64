/-
# Every pending identity has one owner

`Activity.Owned` at the states between the actions of a run.  In each of them no
identity is both pending and ready, the tasks that wait claim disjoint sets of
identities, a task claims what it has in flight and nothing else, and every pending
identity is claimed by exactly one task (`Workspace.Owned`).

So nothing is pending when no task waits, and giving up a task makes absent what it
claimed and what is still pending, and leaves the registry as it is in all else.  A
claim whose identity was registered meanwhile is not taken back from anybody: the
identity stays ready (`Workspace.perform_owned`).
-/

import WrenAnalysis.Proofs.Resolution.Ownership
import WrenAnalysis.Proofs.Workspace.Run

namespace WrenAnalysis
namespace Workspace

/-- What holds between the registry and the tasks that wait, after a history. -/
structure Owned (history : List Event) (w : Workspace) : Prop where
  /-- No identity is both pending and ready. -/
  exclusive : ∀ identity,
    ¬(w.registry.isPending identity = true ∧ w.registry.contains identity = true)
  /-- The tasks have different names and claim different identities. -/
  disjoint : w.tasks.Pairwise fun a b =>
    a.1 ≠ b.1 ∧ ∀ identity ∈ a.2.claimed, identity ∉ b.2.claimed
  /-- A task claims the identities of the reads it has not consumed, and no others. -/
  claims : ∀ e ∈ w.tasks, ∀ identity,
    identity ∈ e.2.claimed ↔ ∃ l ∈ e.2.inFlight, l.identity = identity
  /-- What a task claims is pending, or ready by a text registered in its place. -/
  standing : ∀ e ∈ w.tasks, ∀ identity ∈ e.2.claimed,
    w.registry.state identity = .pending ∨
      w.registry.state identity = .ready ∧ ∃ m, Event.edited identity m ∈ history
  /-- What is pending is claimed by exactly one task. -/
  owner : ∀ identity, w.registry.state identity = .pending →
    ∃! e, e ∈ w.tasks ∧ identity ∈ e.2.claimed

/-- An identity that two tasks claim makes them one. -/
theorem eq_of_mem_of_pairwise {l : List (String × Task)} {identity : String}
    (h : l.Pairwise fun a b => ∀ identity ∈ a.2.claimed, identity ∉ b.2.claimed)
    {a b : String × Task} (ha : a ∈ l) (hb : b ∈ l) (hai : identity ∈ a.2.claimed)
    (hbi : identity ∈ b.2.claimed) : a = b := by
  induction l with
  | nil => exact absurd ha List.not_mem_nil
  | cons c l ih =>
      obtain ⟨hc, hl⟩ := List.pairwise_cons.1 h
      rcases List.mem_cons.1 ha with rfl | ha' <;> rcases List.mem_cons.1 hb with rfl | hb'
      · rfl
      · exact absurd hbi (hc b hb' identity hai)
      · exact absurd hai (hc a ha' identity hbi)
      · exact ih hl ha' hb'

/-- What the registry and the tasks show of claims, the workspace shows. -/
theorem owned_of_activity {w : Workspace} {history : List Event} (hn : w.Named)
    (h : w.activity.Owned history) : w.Owned history := by
  obtain ⟨hheld, htallied⟩ := h
  have hdis : w.tasks.Pairwise fun a b => ∀ identity ∈ a.2.claimed, identity ∉ b.2.claimed := by
    have hd := hheld.distinct
    simp only [activity, List.flatMap_map] at hd
    exact (List.nodup_flatMap.1 hd).2.imp fun hab identity ha hb => hab ha hb
  refine ⟨fun identity hi => ?_, (List.pairwise_map.1 hn).and hdis, fun e he identity => ?_,
    fun e he identity hi => ?_, fun identity hi => ?_⟩
  · rw [Registry.isPending_iff, Registry.contains_iff] at hi
    exact hheld.exclusive identity hi.1 hi.2
  · exact (htallied e.2 (List.mem_map_of_mem he)).mem_claimed_iff
  · have hmem : identity ∈ w.activity.tasks.flatMap Task.claimed :=
      List.mem_flatMap.2 ⟨e.2, List.mem_map_of_mem he, hi⟩
    rw [Registry.state_eq_pending_iff, Registry.state_eq_ready_iff]
    rcases hheld.standing identity hmem with hp | ⟨hr, hm⟩
    · exact .inl hp
    · exact .inr ⟨⟨fun hp => hheld.exclusive identity hp hr, hr⟩, hm⟩
  · have hmem := hheld.owned identity (Registry.state_eq_pending_iff.1 hi)
    obtain ⟨t, ht, hc⟩ := List.mem_flatMap.1 hmem
    obtain ⟨e, he, rfl⟩ := List.mem_map.1 ht
    exact ⟨e, ⟨he, hc⟩, fun e' he' => eq_of_mem_of_pairwise hdis he'.1 he he'.2 hc⟩

/-- After any run of a new workspace its claims are owned. -/
theorem activity_owned_perform (files : List (String × Option String))
    (gated searchPaths : List String) (walkBudget : Nat) (actions : List Action) :
    ((fresh files gated searchPaths walkBudget).perform actions).activity.Owned
      ((fresh files gated searchPaths walkBudget).history actions) := by
  have hstart : Activity.Owned [] (fresh files gated searchPaths walkBudget).activity :=
    ⟨Held.empty, fun t ht => absurd ht List.not_mem_nil⟩
  exact hstart.course (perform_course (named_fresh ..) actions)

/-- Giving up a task makes absent what it claims and what is pending. -/
theorem state_abandon (t : Task) (r : Registry) (identity : String)
    (h : ∀ i ∈ r.pending, i ∉ r.identities) :
    (t.abandon r).state identity =
      if identity ∈ t.claimed ∧ r.state identity = .pending then .absent
      else r.state identity := by
  rw [Task.abandon_eq]
  split_ifs with hi
  · obtain ⟨hc, hp⟩ := hi
    have hr := h identity (Registry.state_eq_pending_iff.1 hp)
    rw [Registry.state_eq_absent_iff]
    exact ⟨by simp [hc], hr⟩
  · have hp : identity ∈ r.pending.filter (· ∉ t.claimed) ↔ identity ∈ r.pending := by
      rw [Registry.state_eq_pending_iff] at hi
      simp only [List.mem_filter, decide_eq_true_eq, and_iff_left_iff_imp]
      exact fun hp hc => hi ⟨hc, hp⟩
    simp only [Registry.state, Registry.isPending_iff, Registry.contains_iff, hp]
    rfl

/-- **Every pending identity has one owner.**  After any run: the registry and the
tasks that wait agree on who loads what (`Workspace.Owned`); nothing is pending when
no task waits; and giving up a task only takes back what it claims and what is still
pending. -/
theorem perform_owned (files : List (String × Option String)) (gated searchPaths : List String)
    (walkBudget : Nat) (actions : List Action) :
    let start := fresh files gated searchPaths walkBudget
    let w := start.perform actions
    w.Owned (start.history actions) ∧ (w.tasks = [] → w.registry.pending = []) ∧
      ∀ name t, w.tasks.lookup name = some t →
        let w' := (w.act (.drop name)).1
        w'.tasks = w.tasks.filter (·.1 ≠ name) ∧
          w'.registry = { w.registry with
            pending := w.registry.pending.filter (· ∉ t.claimed) } ∧
          ∀ identity, w'.registry.state identity =
            if identity ∈ t.claimed ∧ w.registry.state identity = .pending then .absent
            else w.registry.state identity := by
  intro start w
  have hn : w.Named := (named_fresh ..).perform actions
  have ho : w.activity.Owned (start.history actions) :=
    activity_owned_perform files gated searchPaths walkBudget actions
  refine ⟨owned_of_activity hn ho, fun hw => ?_, fun name t ht => ?_⟩
  · exact ho.pending_eq_nil (List.map_eq_nil_iff.2 hw)
  · have hdrop : (w.act (.drop name)).1 = (w.forget name).abandon t := by
      simp only [act, dropTask, ht]
    intro w'
    refine ⟨tasks_dropTask w name, ?_, fun identity => ?_⟩
    · rw [show w' = (w.forget name).abandon t from hdrop]
      exact t.abandon_eq w.registry
    · rw [show w' = (w.forget name).abandon t from hdrop]
      exact state_abandon t w.registry identity ho.held.exclusive

end Workspace
end WrenAnalysis
