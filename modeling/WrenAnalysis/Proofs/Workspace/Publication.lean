/-
# When the published index is that of the registry

A task publishes when it is done and nothing is pending.  One that is done while
other loads are under way leaves that to the task that is done last, and since a
pending identity has an owner, there is one: as long as tasks are not given up, the
index is current whenever no task waits (`Workspace.perform_current`).

Publishing hangs on the end of a task, though, and not on the pending set becoming
empty.  There are two ways for the last pending identity to go without an end
(`Workspace.lapses`): its task is given up, or its task goes on and then has to wait for
a read that a text has outrun.  Neither publishes, and the index is as stale as it was
before.  `Workspace.settled_current_iff` says that there is no third way.
-/

import Mathlib.Data.List.Induction
import WrenAnalysis.Proofs.Workspace.Ownership

namespace WrenAnalysis

/-- A text is resolved that is not a document of the workspace. -/
def Action.resolves : Action → Bool
  | .resolve .. => true
  | _ => false

namespace Workspace

/-- The index published last is that of the registry. -/
def Current (w : Workspace) : Prop := w.index = Index.build w.registry w.walkBudget

instance (w : Workspace) : Decidable w.Current :=
  inferInstanceAs (Decidable (w.index = Index.build w.registry w.walkBudget))

/-- A task is given up, by its name or for want of one. -/
def givesUp (w : Workspace) (a : Action) : Bool :=
  match a with
  | .drop name => (w.tasks.lookup name).isSome
  | _ => (w.act a).2.outcome = .dropped

/-- A task is given up, or goes on only to wait again. -/
def lapses (w : Workspace) (a : Action) : Bool :=
  w.givesUp a ||
    match a with
    | .poll _ => (w.act a).2.outcome = .blocked
    | _ => false

/-- Some actions resolve documents only and give up no task. -/
def undisturbed : Workspace → List Action → Bool
  | _, [] => true
  | w, a :: actions => !a.resolves && !w.givesUp a && (w.act a).1.undisturbed actions

variable {w : Workspace} {a : Action} {l : Launch}

/-- A task that is dropped for want of a name is given up. -/
theorem givesUp_of_dropped (h : (w.act a).2.outcome = .dropped) : w.givesUp a = true := by
  cases a with
  | drop name => simp [act] at h
  | _ => exact decide_eq_true h

/-- An action that gives up a task lapses. -/
theorem lapses_of_givesUp (h : w.givesUp a = true) : w.lapses a = true := by
  unfold lapses
  rw [h, Bool.true_or]

/-- An action lapses only by giving up a task or by letting one wait. -/
theorem outcome_of_lapses (h : w.lapses a = true) :
    (∃ name, a = .drop name) ∨ (w.act a).2.outcome = .dropped ∨ (w.act a).2.outcome = .blocked := by
  cases a with
  | drop name => exact .inl ⟨name, rfl⟩
  | poll name => simpa [lapses, givesUp] using h
  | _ => simpa [lapses, givesUp] using Or.inl h

/-! ### Workspaces with documents only -/

/-- What holds of a workspace whose tasks are those of documents. -/
structure Tended (w : Workspace) : Prop where
  named : w.Named
  owned : ∃ past, w.activity.Owned past
  documents : ∀ e ∈ w.tasks, e.2.scope = .workspace

/-- A task keeps its scope while it runs. -/
theorem Launch.scope_drained (l : Launch) : l.drained.2.scope = l.task.scope :=
  Task.scope_of_course (Task.drain_course ..)

/-- Without calls to resolve, only tasks of documents run. -/
theorem Tended.scope (h : w.Tended) (ha : a.resolves = false) (launched : w.launch? a = some l) :
    l.drained.2.scope = .workspace := by
  rw [l.scope_drained]
  rcases launch?_cases launched with ⟨path, m, name, -, rfl⟩ | ⟨_, _, _, _, _, rfl, -⟩ |
    ⟨name, t, -, ht, rfl⟩
  · exact Task.scope_of_course (Task.start_course ..)
  · exact absurd ha Bool.noConfusion
  · exact h.documents (name, t) (mem_of_lookup ht)

/-- Without calls to resolve, only tasks of documents wait after an action. -/
theorem Tended.act (h : w.Tended) (ha : a.resolves = false) : (w.act a).1.Tended := by
  refine ⟨h.named.act a, ?_, ?_⟩
  · obtain ⟨past, ho⟩ := h.owned
    exact ⟨_, ho.course (act_course h.named a)⟩
  have hc := act_comesTo w a
  generalize w.act a = r at hc ⊢
  cases hc with
  | finished reads launched =>
      have hl := fun e he => h.documents e ((tasks_sublist_of_launch? launched).subset he)
      dsimp only
      split_ifs <;> exact hl
  | blocked reads launched named waits =>
      intro e he
      rw [tasks_keep] at he
      rcases List.mem_append.1 he with he | he
      · exact h.documents e ((tasks_sublist_of_launch? launched).subset (List.mem_of_mem_filter he))
      · rw [List.mem_singleton.1 he]
        exact h.scope ha launched
  | dropped reads launched =>
      exact fun e he => h.documents e ((tasks_sublist_of_launch? launched).subset he)
  | seeded good =>
      unfold publishIfSettled
      dsimp only
      split_ifs <;> exact h.documents
  | gaveUp name held =>
      intro e he
      rw [tasks_dropTask] at he
      exact h.documents e (List.mem_of_mem_filter he)
  | released path count =>
      intro e he
      obtain ⟨e', he', rfl⟩ := List.mem_map.1 he
      exact h.documents e' he'
  | rested => exact h.documents

/-- Without calls to resolve, only tasks of documents wait after a run. -/
theorem Tended.perform (h : w.Tended) {actions : List Action}
    (ha : ∀ a ∈ actions, a.resolves = false) : (w.perform actions).Tended := by
  induction actions generalizing w with
  | nil => exact h
  | cons a actions ih =>
      obtain ⟨ha, hrest⟩ := List.forall_mem_cons.1 ha
      exact ih (h.act ha) hrest

/-- A new workspace has no tasks. -/
theorem tended_fresh (files : List (String × Option String)) (gated searchPaths : List String)
    (walkBudget : Nat) : (fresh files gated searchPaths walkBudget).Tended :=
  ⟨named_fresh .., ⟨_, activity_owned_perform files gated searchPaths walkBudget []⟩,
    fun _ he => absurd he List.not_mem_nil⟩

/-- Without a task that waits, nothing is pending. -/
theorem Tended.pending_eq_nil (h : w.Tended) (hw : w.tasks = []) : w.registry.pending = [] := by
  obtain ⟨past, ho⟩ := h.owned
  exact ho.pending_eq_nil (List.map_eq_nil_iff.2 hw)

/-! ### What an action does to the index -/

/-- Dropping a task publishes nothing. -/
theorem index_dropTask (w : Workspace) (name : String) : (w.dropTask name).index = w.index := by
  unfold dropTask
  cases w.tasks.lookup name <;> rfl

/-- The task of a document that has just changed only waits while something is pending. -/
theorem Tended.pending_of_blocked {path name : String} {m : Module} {named : Option String}
    (h : w.Tended) (launched : w.launch? a = some (w.launchDocument path m named))
    (waits : (w.launchDocument path m named).drained.2.isDone = false) :
    ((w.launchDocument path m named).around.keep name
      (w.launchDocument path m named).drained.2).registry.pending ≠ [] := by
  have hclaims : ∀ i ∈ (w.launchDocument path m named).drained.2.claimed,
      i ∈ (w.launchDocument path m named).drained.1.pending :=
    Task.claimed_pending_of_course ((Task.start_course ..).trans (Task.drain_course ..))
      fun i hi => absurd hi List.not_mem_nil
  generalize w.launchDocument path m named = l at launched waits hclaims ⊢
  obtain ⟨past, ho⟩ := h.owned
  have hmid := ho.course ((launch?_course h.named launched).trans (l.drained_course _))
  -- A read that waits holds a claim, which is pending, and no other task holds it.
  obtain ⟨load, hload⟩ : ∃ load, load ∈ l.drained.2.inFlight :=
    List.exists_mem_of_ne_nil _ fun hnil => by simp [Task.isDone, hnil] at waits
  have hclaim := hmid.head_tallied.mem_claimed_iff.2 ⟨load, hload, rfl⟩
  have hpending := hclaims _ hclaim
  suffices hkeep : load.identity ∈ (l.around.keep name l.drained.2).registry.pending from
    List.ne_nil_of_mem hkeep
  simp only [keep, dropTask]
  cases ht : l.around.tasks.lookup name with
  | none => exact hpending
  | some t =>
      have hrest : load.identity ∉ t.claimed := fun hc =>
        (List.nodup_append'.1 hmid.held.distinct).2.2 hclaim
          (List.mem_flatMap.2 ⟨t, List.mem_map_of_mem (mem_of_lookup ht), hc⟩)
      simp only [abandon, Task.abandon_eq]
      exact List.mem_filter.2 ⟨hpending, decide_eq_true hrest⟩

/-- An action leaves the index current or something pending, or it lapses, or it
touches neither. -/
theorem Tended.act_cases (h : w.Tended) (ha : a.resolves = false) :
    (w.act a).1.Current ∨ (w.act a).1.registry.pending ≠ [] ∨
      (w.lapses a = true ∧ (w.givesUp a = true ∨ (w.act a).1.tasks ≠ [])) ∨
      ((w.Current → (w.act a).1.Current) ∧ (w.act a).1.registry = w.registry ∧
        ((w.act a).1.tasks = [] → w.tasks = [])) := by
  have hc := act_comesTo w a
  generalize hr : w.act a = r at hc ⊢
  cases hc with
  | @finished _ l reads launched done =>
      by_cases hs : l.drained.1.pending = []
      · have hp : l.publishes = true := by
          rw [Launch.publishes, h.scope ha launched, Registry.isSettled_iff.2 hs]
          rfl
        dsimp only
        rw [if_pos hp]
        exact .inl rfl
      · refine .inr (.inl ?_)
        dsimp only
        split_ifs <;> exact hs
  | @blocked _ l name reads launched named waits =>
      rcases launch?_cases launched with ⟨path, m, name', -, rfl⟩ | ⟨_, _, _, _, _, rfl, -⟩ |
        ⟨name', t, rfl, ht, rfl⟩
      · exact .inr (.inl (h.pending_of_blocked launched waits))
      · exact absurd ha Bool.noConfusion
      · refine .inr (.inr (.inl ⟨?_, .inr ?_⟩))
        · simp [lapses, hr]
        · rw [tasks_keep]
          exact List.append_ne_nil_of_right_ne_nil _ (List.cons_ne_nil _ _)
  | dropped reads launched unnamed waits =>
      have hg : w.givesUp a = true := givesUp_of_dropped (by rw [hr])
      exact .inr (.inr (.inl ⟨lapses_of_givesUp hg, .inl hg⟩))
  | @seeded identity text m good =>
      by_cases hs : (w.register identity m).registry.pending = []
      · refine .inl ?_
        rw [publishIfSettled, if_pos (Registry.isSettled_iff.2 hs)]
        rfl
      · refine .inr (.inl ?_)
        rw [publishIfSettled, if_neg (mt Registry.isSettled_iff.1 hs)]
        exact hs
  | gaveUp name held =>
      cases ht : w.tasks.lookup name with
      | some t =>
          have hg : w.givesUp (.drop name) = true := by simp [givesUp, ht]
          exact .inr (.inr (.inl ⟨lapses_of_givesUp hg, .inl hg⟩))
      | none =>
          have hw : w.dropTask name = w := by simp [dropTask, ht]
          dsimp only
          rw [hw]
          exact .inr (.inr (.inr ⟨id, rfl, id⟩))
  | released path count =>
      refine .inr (.inr (.inr ⟨id, rfl, fun ht => ?_⟩))
      exact List.map_eq_nil_iff.1 ht
  | rested => exact .inr (.inr (.inr ⟨id, rfl, id⟩))

/-- Starting a task publishes nothing. -/
theorem index_of_launch? (h : w.launch? a = some l) : l.workspace.index = w.index := by
  rcases launch?_cases h with ⟨path, m, name, -, rfl⟩ | ⟨_, _, _, _, _, -, rfl⟩ | ⟨name, t, -, -, rfl⟩
  · rfl
  · rfl
  · rfl

/-- **Where a task lapses, nothing is published.** -/
theorem index_of_lapses (h : w.lapses a = true) : (w.act a).1.index = w.index := by
  have hl := outcome_of_lapses h
  have hc := act_comesTo w a
  generalize w.act a = r at hc hl ⊢
  cases hc with
  | finished reads launched done =>
      rcases hl with ⟨name, rfl⟩ | ho | ho
      · exact absurd launched (Option.some_ne_none _).symm
      · exact absurd ho Outcome.noConfusion
      · exact absurd ho Outcome.noConfusion
  | @blocked _ l name reads launched named waits =>
      exact (index_dropTask l.around name).trans (index_of_launch? launched)
  | dropped reads launched unnamed waits => exact index_of_launch? launched
  | seeded good =>
      rcases hl with ⟨name, ha⟩ | ho | ho
      · exact absurd ha Action.noConfusion
      · exact absurd ho Outcome.noConfusion
      · exact absurd ho Outcome.noConfusion
  | gaveUp name held => exact index_dropTask w name
  | released path count => rfl
  | rested => rfl

/-! ### Runs -/

/-- An action that gives nothing up leaves a task waiting or the index up to date. -/
theorem Tended.current_or_waits (h : w.Tended) (ha : a.resolves = false)
    (hg : w.givesUp a = false) (hw : w.Current ∨ w.tasks ≠ []) :
    (w.act a).1.Current ∨ (w.act a).1.tasks ≠ [] := by
  rcases h.act_cases ha with hcur | hpend | ⟨-, hup | hwait⟩ | ⟨hcur, -, htasks⟩
  · exact .inl hcur
  · exact .inr fun ht => hpend ((h.act ha).pending_eq_nil ht)
  · exact absurd hup (by rw [hg]; exact Bool.false_ne_true)
  · exact .inr hwait
  · exact hw.imp hcur fun hne ht => hne (htasks ht)

/-- A run that gives nothing up leaves a task waiting or the index up to date. -/
theorem Tended.perform_current_or_waits (h : w.Tended) (hw : w.Current ∨ w.tasks ≠ [])
    {actions : List Action} (hu : w.undisturbed actions = true) :
    (w.perform actions).Tended ∧
      ((w.perform actions).Current ∨ (w.perform actions).tasks ≠ []) := by
  induction actions generalizing w with
  | nil => exact ⟨h, hw⟩
  | cons a actions ih =>
      simp only [undisturbed, Bool.and_eq_true, Bool.not_eq_true'] at hu
      obtain ⟨⟨ha, hg⟩, hrest⟩ := hu
      exact ih (h.act ha) (h.current_or_waits ha hg hw) hrest

/-- **The index is current when no task waits.**  In a run that resolves documents only
and gives up no task, whatever the order of its actions, nothing is pending and the
index published last is that of the registry whenever no task waits. -/
theorem perform_current (files : List (String × Option String)) (gated searchPaths : List String)
    (walkBudget : Nat) (actions : List Action)
    (calm : (fresh files gated searchPaths walkBudget).undisturbed actions = true)
    (rests : ((fresh files gated searchPaths walkBudget).perform actions).tasks = []) :
    ((fresh files gated searchPaths walkBudget).perform actions).registry.pending = [] ∧
      ((fresh files gated searchPaths walkBudget).perform actions).Current := by
  have hfresh : (fresh files gated searchPaths walkBudget).Current := rfl
  obtain ⟨htended, hw⟩ := (tended_fresh ..).perform_current_or_waits (.inl hfresh) calm
  exact ⟨htended.pending_eq_nil rests, hw.resolve_right fun hne => hne rests⟩

/-- A document is changed while its import is read, another is seeded, and the read is
let go and ends. -/
theorem perform_current_after_read :
    let start := fresh [("/p/b.wren", some "class B \x7b\x7d")] ["/p/b.wren"] [] 100
    let actions : List Action := [.change "/p/a.wren" "import \"b\"" (some "t"),
      .seed "/p/c.wren" "var c = 1", .release "/p/b.wren", .poll "t"]
    (start.undisturbed actions = true ∧ (start.perform actions).tasks = []) ∧
      (start.perform actions).registry.pending = [] ∧ (start.perform actions).Current := by
  intro start actions
  have calm : start.undisturbed actions = true := by decide +kernel
  have rests : (start.perform actions).tasks = [] := by decide +kernel
  exact ⟨⟨calm, rests⟩, perform_current _ _ _ _ _ calm rests⟩

/-- **A settled index is current unless a task has lapsed.**  In a run that resolves
documents only, a step at which a task lapses leaves the index as it was, and these
steps are all that counts: the index is current after every step that leaves nothing
pending if and only if it is so after every such step at which a task lapses. -/
theorem settled_current_iff (files : List (String × Option String))
    (gated searchPaths : List String) (walkBudget : Nat) (actions : List Action)
    (documents : ∀ a ∈ actions, a.resolves = false) :
    let after := fun before => (fresh files gated searchPaths walkBudget).perform before
    (∀ before a, before ++ [a] <+: actions → (after before).lapses a = true →
        (after (before ++ [a])).index = (after before).index) ∧
      ((∀ before, before <+: actions → (after before).registry.pending = [] →
          (after before).Current) ↔
        ∀ before a, before ++ [a] <+: actions → (after before).lapses a = true →
          (after (before ++ [a])).registry.pending = [] → (after (before ++ [a])).Current) := by
  intro after
  have hstep : ∀ before a, after (before ++ [a]) = ((after before).act a).1 :=
    fun before a => perform_append _ before [a]
  refine ⟨fun before a _ hlapse => ?_, fun h before a hpre _ => h _ hpre, fun h before => ?_⟩
  · rw [hstep]
    exact index_of_lapses hlapse
  induction before using List.reverseRecOn with
  | nil => exact fun _ _ => rfl
  | append_singleton before a ih =>
      intro hpre hpend
      have hsub : ∀ b ∈ before ++ [a], b.resolves = false := fun b hb =>
        documents b (hpre.subset hb)
      have ha := hsub a (List.mem_append_right _ List.mem_cons_self)
      have htended : (after before).Tended :=
        (tended_fresh ..).perform fun b hb => hsub b (List.mem_append_left _ hb)
      have hcases := htended.act_cases ha
      rw [← hstep] at hcases
      rcases hcases with hcur | hne | ⟨hlapse, -⟩ | ⟨hcur, hreg, -⟩
      · exact hcur
      · exact absurd hpend hne
      · exact h before a hpre hlapse hpend
      · exact hcur (ih ((List.prefix_append _ _).trans hpre) (hreg ▸ hpend))

/-- A document is changed, and its task is given up while its import is read. -/
theorem settled_not_current_after_drop :
    let start := fresh [("/p/b.wren", some "class B \x7b\x7d")] ["/p/b.wren"] [] 100
    let actions : List Action :=
      [.change "/p/a.wren" "import \"b\"\nclass A \x7b\x7d" (some "t"), .drop "t"]
    (∀ a ∈ actions, a.resolves = false) ∧
      ¬∀ before, before <+: actions → (start.perform before).registry.pending = [] →
        (start.perform before).Current := by
  intro start actions
  have documents : ∀ a ∈ actions, a.resolves = false := by decide +kernel
  refine ⟨documents, fun h => ?_⟩
  have hlapse := ((settled_current_iff _ _ _ _ actions documents).2.1 h)
    [.change "/p/a.wren" "import \"b\"\nclass A \x7b\x7d" (some "t")] (.drop "t")
    (List.prefix_refl _) (by decide +kernel) (by decide +kernel)
  exact absurd hlapse (by decide +kernel)

/-- Nothing is pending and the index is stale: once the only task is given up, and once
a task has consumed one of two reads and waits for the other, in whose place a text was
registered. -/
theorem settled_index_stale :
    let given := (fresh [("/p/b.wren", some "class B \x7b\x7d")] ["/p/b.wren"] [] 100).perform
      [.change "/p/a.wren" "import \"b\"\nclass A \x7b\x7d" (some "t"), .drop "t"]
    let outrun := (fresh [("/p/b.wren", some ""), ("/p/c.wren", some "")]
        ["/p/b.wren", "/p/c.wren"] [] 100).perform
      [.change "/p/a.wren" "import \"b\"\nimport \"c\"" (some "t"),
        .change "/p/b.wren" "class B \x7b\x7d" none, .release "/p/c.wren", .poll "t"]
    (given.registry.pending = [] ∧ given.index ≠ Index.build given.registry given.walkBudget) ∧
      outrun.registry.pending = [] ∧
        outrun.index ≠ Index.build outrun.registry outrun.walkBudget := by
  decide +kernel

end Workspace
end WrenAnalysis
