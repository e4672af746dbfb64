/-
# Runs of a workspace

A run is a list of actions (`Workspace.perform`).  Its history (`Workspace.history`)
tells of the texts that its actions registered, of the reads that its tasks consumed
and of the reports they ended with, in order.  Both are computed from what the
actions do.

An action that lets a task run comes down to one call of `Workspace.run`
(`Workspace.launch?`).  `Workspace.perform_course` says that a run with its history
is a course of events in the sense of `Activity.Step`, which is all that the
invariants of a workspace need to know about its actions.
-/

import Mathlib.Data.List.Nodup
import WrenAnalysis.Proofs.Path.NormalForm
import WrenAnalysis.Proofs.Resolution.Course
import WrenAnalysis.Workspace

namespace WrenAnalysis
namespace Workspace

/-! ### What an action registers and which task it lets run -/

/-- The workspace with a module under an identity. -/
def register (w : Workspace) (identity : String) (m : Module) : Workspace :=
  { w with registry := w.registry.insert identity m }

/-- The text that an action registers: that of a seed, or of a document that is new
or has changed. -/
def edit? (w : Workspace) : Action → Option (String × Module)
  | .seed identity text => (Module.parse text).toOption.map fun m => (identity, m)
  | .change path text _ =>
    (Module.parse text).toOption.map fun m => (ImportPath.identity path, m)
  | .openDocument path text _ =>
    if w.registry.state (ImportPath.identity path) = .ready then none
    else (Module.parse text).toOption.map fun m => (ImportPath.identity path, m)
  | _ => none

/-- A task about to run, and the workspace around it. -/
structure Launch where
  workspace : Workspace
  /-- The name it is kept under if it has to wait. -/
  name : Option String
  task : Task

/-- A task that follows the imports of a module in the directory `dir`. -/
def launch (w : Workspace) (scope : Scope) (dir : String) (m : Module) (name : Option String) :
    Launch :=
  let (registry, task) := Task.start (w.sources scope) scope dir m w.registry
  ⟨{ w with registry }, name, task⟩

/-- The task of a document with a new text. -/
def launchDocument (w : Workspace) (path : String) (m : Module) (name : Option String) : Launch :=
  let identity := ImportPath.identity path
  (w.register identity m).launch .workspace (ImportPath.originDir identity) m name

/-- The task that an action lets run: a new one, or one that waited. -/
def launch? (w : Workspace) : Action → Option Launch
  | .change path text name =>
    (Module.parse text).toOption.map fun m => w.launchDocument path m name
  | .openDocument path text name =>
    if w.registry.state (ImportPath.identity path) = .ready then none
    else (Module.parse text).toOption.map fun m => w.launchDocument path m name
  | .resolve text origin searchPaths name =>
    (Module.parse text).toOption.map fun m => w.launch (.own searchPaths) origin m name
  | .poll name => (w.tasks.lookup name).map fun t => ⟨w.forget name, some name, t⟩
  | _ => none

/-- The reads that a task consumes when it runs, in order. -/
def Launch.consumptions (l : Launch) : List Consumption :=
  Task.consumptions (l.workspace.sources l.task.scope) (l.workspace.registry, l.task)

/-! ### Runs and their history -/

/-- The workspace after some actions. -/
def perform (w : Workspace) (actions : List Action) : Workspace :=
  actions.foldl (fun w a => (w.act a).1) w

/-- What a history tells of the outcome of an action. -/
def reported : Outcome → List Event
  | .finished report => [.finished report]
  | _ => []

/-- What a history tells of an action. -/
def events (w : Workspace) (a : Action) : List Event :=
  ((w.edit? a).toList.map fun e => .edited e.1 e.2) ++
    ((w.launch? a).toList.flatMap fun l => l.consumptions.map .consumed) ++
      reported (w.act a).2.outcome

/-- The history of some actions. -/
def history : Workspace → List Action → List Event
  | _, [] => []
  | w, a :: actions => w.events a ++ history (w.act a).1 actions

/-- Without actions nothing changes. -/
@[simp] theorem perform_nil (w : Workspace) : w.perform [] = w := rfl

/-- The first action comes before the others. -/
@[simp] theorem perform_cons (w : Workspace) (a : Action) (actions : List Action) :
    w.perform (a :: actions) = (w.act a).1.perform actions := rfl

/-- A run can be cut in two. -/
theorem perform_append (w : Workspace) (before after : List Action) :
    w.perform (before ++ after) = (w.perform before).perform after := by
  simp [perform]

/-! ### What an action comes to -/

/-- The registry and the task once the task has run. -/
def Launch.drained (l : Launch) : Registry × Task :=
  Task.drain (l.workspace.sources l.task.scope) (l.workspace.registry, l.task)

/-- The workspace around the task once the task has run. -/
def Launch.around (l : Launch) : Workspace := { l.workspace with registry := l.drained.1 }

/-- The task is that of a document and ends while no load is under way. -/
def Launch.publishes (l : Launch) : Bool :=
  l.drained.2.scope = .workspace && l.drained.1.isSettled

/-- All that an action can come to.  Where it lets a task run, the task is done, is kept
under its name, or is given up for want of one. -/
inductive ComesTo (w : Workspace) : Action → Workspace × Effect → Prop
  | finished {a : Action} {l : Launch} (reads : List String) (launched : w.launch? a = some l)
      (done : l.drained.2.isDone = true) :
      ComesTo w a (if l.publishes then l.around.publish else l.around,
        ⟨.finished (l.drained.2.report l.drained.1), reads, l.publishes⟩)
  | blocked {a : Action} {l : Launch} {name : String} (reads : List String)
      (launched : w.launch? a = some l) (named : l.name = some name)
      (waits : l.drained.2.isDone = false) :
      ComesTo w a (l.around.keep name l.drained.2, ⟨.blocked, reads, false⟩)
  | dropped {a : Action} {l : Launch} (reads : List String) (launched : w.launch? a = some l)
      (unnamed : l.name = none) (waits : l.drained.2.isDone = false) :
      ComesTo w a (l.around.abandon l.drained.2, ⟨.dropped, reads, false⟩)
  | seeded {identity text : String} {m : Module} (good : Module.parse text = .ok m) :
      ComesTo w (.seed identity text) ((w.register identity m).publishIfSettled,
        ⟨.done, [], (w.register identity m).registry.isSettled⟩)
  | gaveUp (name : String) (held : Bool) :
      ComesTo w (.drop name) (w.dropTask name, ⟨.was held, [], false⟩)
  | released (path : String) (count : Nat) :
      ComesTo w (.release path) ((w.release path).1, ⟨.freed count, [], false⟩)
  /-- Neither the registry nor the tasks nor the index are touched. -/
  | rested {a : Action} {o : Outcome} (library : Library) (gates searchPaths : List String)
      (unedited : w.edit? a = none) (unlaunched : w.launch? a = none) (silent : reported o = [])
      (kept : o ≠ .dropped ∧ o ≠ .blocked) :
      ComesTo w a ({ w with library, gates, searchPaths }, ⟨o, [], false⟩)

/-- A task that an action starts runs as far as it can. -/
theorem run_comesTo {w : Workspace} {a : Action} {l : Launch} (h : w.launch? a = some l)
    (seen : Nat) : w.ComesTo a (l.workspace.run l.name seen l.task) := by
  cases hd : l.drained.2.isDone with
  | true =>
      have hr : l.workspace.run l.name seen l.task =
          (if l.publishes then l.around.publish else l.around,
            ⟨.finished (l.drained.2.report l.drained.1), l.drained.2.issued.drop seen,
              l.publishes⟩) := if_pos hd
      rw [hr]
      exact .finished _ h hd
  | false =>
      have hd' : ¬l.drained.2.isDone = true := by
        rw [hd]
        exact Bool.false_ne_true
      cases hn : l.name with
      | some name =>
          have hr : l.workspace.run (some name) seen l.task =
              (l.around.keep name l.drained.2, ⟨.blocked, l.drained.2.issued.drop seen, false⟩) :=
            if_neg hd'
          rw [hr]
          exact .blocked _ h hn hd
      | none =>
          have hr : l.workspace.run none seen l.task =
              (l.around.abandon l.drained.2, ⟨.dropped, l.drained.2.issued.drop seen, false⟩) :=
            if_neg hd'
          rw [hr]
          exact .dropped _ h hn hd

/-- A document goes by its identity. -/
theorem change_identity (w : Workspace) (path text : String) (name : Option String) :
    w.change (ImportPath.identity path) text name = w.change path text name := by
  simp only [change, ImportPath.identity, Path.normalize_normalize]

/-- A document with a new text, opened or changed. -/
theorem change_comesTo {w : Workspace} {a : Action} {path text : String} {name : Option String}
    (he : w.edit? a = (Module.parse text).toOption.map fun m => (ImportPath.identity path, m))
    (hl : w.launch? a = (Module.parse text).toOption.map fun m => w.launchDocument path m name) :
    w.ComesTo a (w.change path text name) := by
  cases hp : Module.parse text with
  | error e =>
      rw [hp] at he hl
      simp only [change, hp]
      exact .rested _ _ _ he hl rfl ⟨nofun, nofun⟩
  | ok m =>
      rw [hp] at hl
      simp only [change, hp]
      exact run_comesTo hl 0

/-- **What an action can come to.**  All that is shown of runs rests on this. -/
theorem act_comesTo (w : Workspace) (a : Action) : w.ComesTo a (w.act a) := by
  cases a with
  | seed identity text =>
      simp only [act, seed]
      cases hp : Module.parse text with
      | error e => exact .rested _ _ _ (by simp [edit?, hp, Except.toOption]) rfl rfl ⟨nofun, nofun⟩
      | ok m => exact .seeded hp
  | change path text name => exact change_comesTo rfl rfl
  | openDocument path text name =>
      simp only [act, openDocument]
      split_ifs with hr
      · exact .rested _ _ _ (if_pos hr) (if_pos hr) rfl ⟨nofun, nofun⟩
      · rw [change_identity]
        exact change_comesTo (if_neg hr) (if_neg hr)
  | resolve text origin searchPaths name =>
      simp only [act, resolve]
      cases hp : Module.parse text with
      | error e => exact .rested _ _ _ rfl (by simp [launch?, hp, Except.toOption]) rfl ⟨nofun, nofun⟩
      | ok m =>
          have hl : w.launch? (.resolve text origin searchPaths name) =
              some (w.launch (.own searchPaths) origin m name) := by
            simp [launch?, hp, Except.toOption]
          exact run_comesTo hl 0
  | poll name =>
      simp only [act, poll]
      cases ht : w.tasks.lookup name with
      | none => exact .rested _ _ _ rfl (by simp [launch?, ht]) rfl ⟨nofun, nofun⟩
      | some t =>
          have hl : w.launch? (.poll name) = some ⟨w.forget name, some name, t⟩ := by
            simp [launch?, ht]
          exact run_comesTo hl _
  | drop name => exact .gaveUp name _
  | release path => exact .released path _
  | gate path =>
      simp only [act, gate]
      split_ifs
      · exact .rested _ _ _ rfl rfl rfl ⟨nofun, nofun⟩
      · exact .rested _ _ _ rfl rfl rfl ⟨nofun, nofun⟩
  | file path text => exact .rested _ _ _ rfl rfl rfl ⟨nofun, nofun⟩
  | addSearchPath path => exact .rested _ _ _ rfl rfl rfl ⟨nofun, nofun⟩

/-- Where the task comes from that an action lets run. -/
theorem launch?_cases {w : Workspace} {a : Action} {l : Launch} (h : w.launch? a = some l) :
    (∃ path m name, w.edit? a = some (ImportPath.identity path, m) ∧
        l = w.launchDocument path m name) ∨
      (∃ text origin searchPaths name m, a = .resolve text origin searchPaths name ∧
        l = w.launch (.own searchPaths) origin m name) ∨
      ∃ name t, a = .poll name ∧ w.tasks.lookup name = some t ∧
        l = ⟨w.forget name, some name, t⟩ := by
  cases a with
  | change path text name =>
      obtain ⟨m, hm, rfl⟩ := Option.map_eq_some_iff.1 h
      exact .inl ⟨path, m, name, by simp [edit?, hm], rfl⟩
  | openDocument path text name =>
      simp only [launch?] at h
      split_ifs at h with hr
      obtain ⟨m, hm, rfl⟩ := Option.map_eq_some_iff.1 h
      exact .inl ⟨path, m, name, by simp [edit?, hr, hm], rfl⟩
  | resolve text origin searchPaths name =>
      obtain ⟨m, -, rfl⟩ := Option.map_eq_some_iff.1 h
      exact .inr (.inl ⟨text, origin, searchPaths, name, m, rfl, rfl⟩)
  | poll name =>
      obtain ⟨t, ht, rfl⟩ := Option.map_eq_some_iff.1 h
      exact .inr (.inr ⟨name, t, rfl, ht, rfl⟩)
  | _ => simp [launch?] at h

/-! ### The tasks that wait -/

/-- No two tasks wait under one name. -/
def Named (w : Workspace) : Prop := (w.tasks.map (·.1)).Nodup

/-- Dropping a task leaves those of other names. -/
theorem tasks_dropTask (w : Workspace) (name : String) :
    (w.dropTask name).tasks = w.tasks.filter (·.1 ≠ name) := by
  unfold dropTask
  cases h : w.tasks.lookup name with
  | some t => rfl
  | none =>
      refine (List.filter_eq_self.2 fun e he => ?_).symm
      have hne : name ≠ e.1 := bne_iff_ne.1 (List.lookup_eq_none_iff.1 h e he)
      exact decide_eq_true hne.symm

/-- A task that waits replaces the one of its name. -/
theorem tasks_keep (w : Workspace) (name : String) (t : Task) :
    (w.keep name t).tasks = w.tasks.filter (·.1 ≠ name) ++ [(name, t)] := by
  rw [← tasks_dropTask]
  rfl

/-- Starting a task adds none that waits. -/
theorem tasks_sublist_of_launch? {w : Workspace} {a : Action} {l : Launch}
    (h : w.launch? a = some l) : l.workspace.tasks.Sublist w.tasks := by
  rcases launch?_cases h with ⟨path, m, name, -, rfl⟩ | ⟨_, _, _, _, _, -, rfl⟩ | ⟨name, t, -, -, rfl⟩
  · exact .refl _
  · exact .refl _
  · exact List.filter_sublist

/-- With fewer tasks the names stay distinct. -/
theorem Named.of_sublist {w w' : Workspace} (h : w.Named) (hs : w'.tasks.Sublist w.tasks) :
    w'.Named :=
  h.sublist (hs.map _)

/-- A task that waits takes its name for itself. -/
theorem Named.keep {w : Workspace} (h : w.Named) (name : String) (t : Task) :
    (w.keep name t).Named := by
  rw [Named, tasks_keep, List.map_append, List.nodup_append]
  refine ⟨h.sublist (List.filter_sublist.map _), List.nodup_singleton _, ?_⟩
  rintro a ha b hb rfl
  obtain ⟨e, he, rfl⟩ := List.mem_map.1 ha
  have hne := (List.mem_filter.1 he).2
  simp_all

/-- After any action the names of the tasks are distinct. -/
theorem Named.act {w : Workspace} (h : w.Named) (a : Action) : (w.act a).1.Named := by
  have hc := act_comesTo w a
  generalize w.act a = r at hc ⊢
  cases hc with
  | finished reads launched =>
      have hl := h.of_sublist (tasks_sublist_of_launch? launched)
      dsimp only
      split_ifs <;> exact hl
  | blocked reads launched =>
      have hl : Named _ := h.of_sublist (tasks_sublist_of_launch? launched)
      exact Named.keep (w := Launch.around _) hl _ _
  | dropped reads launched => exact h.of_sublist (tasks_sublist_of_launch? launched)
  | seeded good =>
      unfold publishIfSettled
      dsimp only
      split_ifs <;> exact h
  | gaveUp name held =>
      refine h.of_sublist ?_
      rw [tasks_dropTask]
      exact List.filter_sublist
  | released path count =>
      rw [Named, show (w.release path).1.tasks.map (·.1) = w.tasks.map (·.1) by
        simp [Workspace.release]]
      exact h
  | rested => exact h

/-! ### Runs are courses of events -/

/-- The registry and the tasks of a workspace. -/
def activity (w : Workspace) : Activity := ⟨w.registry, w.tasks.map (·.2)⟩

/-- Taking out the task of a name, and leaving the others. -/
theorem perm_of_lookup {l : List (String × Task)} {name : String} {t : Task}
    (hnd : (l.map (·.1)).Nodup) (h : l.lookup name = some t) :
    l.Perm ((name, t) :: l.filter (·.1 ≠ name)) := by
  obtain ⟨l₁, l₂, rfl, h₁⟩ := List.lookup_eq_some_iff.1 h
  have h₂ : ∀ e ∈ l₂, decide (e.1 ≠ name) = true := by
    rw [List.map_append, List.map_cons] at hnd
    have hnot := (List.nodup_cons.1 (List.nodup_append.1 hnd).2.1).1
    exact fun e he => decide_eq_true fun hn => hnot (List.mem_map.2 ⟨e, he, hn⟩)
  have h₁' : ∀ e ∈ l₁, decide (e.1 ≠ name) = true := fun e he =>
    decide_eq_true (bne_iff_ne.1 (h₁ e he)).symm
  rw [List.filter_append, List.filter_cons_of_neg (by simp), List.filter_eq_self.2 h₁',
    List.filter_eq_self.2 h₂]
  exact List.perm_middle

/-- Dropping a task is a course that tells of nothing. -/
theorem dropTask_course {w : Workspace} (h : w.Named) (name : String) (ts : List Task) :
    Course Activity.Step ⟨w.registry, ts ++ w.tasks.map (·.2)⟩ []
      ⟨(w.dropTask name).registry, ts ++ (w.dropTask name).tasks.map (·.2)⟩ := by
  unfold dropTask
  cases ht : w.tasks.lookup name with
  | none => exact .refl _
  | some t =>
      have hp : (ts ++ w.tasks.map (·.2)).Perm
          (t :: (ts ++ (w.tasks.filter (·.1 ≠ name)).map (·.2))) :=
        (((perm_of_lookup h ht).map _).append_left ts).trans List.perm_middle
      exact .silent (.yield hp) (.single .abandon)

/-- How a task comes to run. -/
theorem launch?_course {w : Workspace} {a : Action} {l : Launch} (h : w.Named)
    (hl : w.launch? a = some l) :
    Course Activity.Step w.activity ((w.edit? a).toList.map fun e => .edited e.1 e.2)
      ⟨l.workspace.registry, l.task :: l.workspace.tasks.map (·.2)⟩ := by
  rcases launch?_cases hl with ⟨path, m, name, he, rfl⟩ | ⟨_, _, _, _, m, rfl, rfl⟩ |
    ⟨name, t, rfl, ht, rfl⟩
  · rw [he]
    exact .cons (.edit _ m) (.silent (.start .workspace)
      (Activity.course_of_moves (Task.start_course ..) _))
  · exact .silent (.start _) (Activity.course_of_moves (Task.start_course ..) _)
  · exact .single (.yield ((perm_of_lookup h ht).map _))

/-- What a task does when it runs. -/
theorem Launch.drained_course (l : Launch) (ts : List Task) :
    Course Activity.Step ⟨l.workspace.registry, l.task :: ts⟩ (l.consumptions.map .consumed)
      ⟨l.drained.1, l.drained.2 :: ts⟩ :=
  Activity.course_of_moves (Task.drain_course _ (l.workspace.registry, l.task)) ts

/-- **An action is a course of events**, those that the history tells of. -/
theorem act_course {w : Workspace} (h : w.Named) (a : Action) :
    Course Activity.Step w.activity (w.events a) (w.act a).1.activity := by
  have hc := act_comesTo w a
  unfold events
  generalize w.act a = r at hc ⊢
  cases hc with
  | @finished _ l reads launched done =>
      rw [launched, Option.toList_some, List.flatMap_singleton]
      refine ((launch?_course h launched).trans (l.drained_course _)).trans ?_
      have hs : Activity.Step ⟨l.drained.1, l.drained.2 :: l.workspace.tasks.map (·.2)⟩ _ _ :=
        .finish done
      dsimp only
      split_ifs <;> exact .single hs
  | @blocked _ l name reads launched named waits =>
      rw [launched, Option.toList_some, List.flatMap_singleton]
      refine ((launch?_course h launched).trans (l.drained_course _)).trans ?_
      have hn : l.around.Named := h.of_sublist (tasks_sublist_of_launch? launched)
      refine (dropTask_course hn name [l.drained.2]).trans (.single (.yield ?_))
      rw [tasks_keep, ← tasks_dropTask, List.map_append]
      exact (List.perm_append_singleton ..).symm
  | @dropped _ l reads launched unnamed waits =>
      rw [launched, Option.toList_some, List.flatMap_singleton]
      exact ((launch?_course h launched).trans (l.drained_course _)).trans (.single .abandon)
  | @seeded identity text m good =>
      have he : w.edit? (.seed identity text) = some (identity, m) := by
        simp [edit?, good, Except.toOption]
      have hs : Activity.Step w.activity _ _ := .edit identity m
      rw [he]
      unfold publishIfSettled
      dsimp only
      split_ifs <;> exact .single hs
  | gaveUp name held => exact dropTask_course h name []
  | released path count =>
      have ht : (w.release path).1.activity =
          ⟨w.registry, (w.tasks.map (·.2)).map (Task.release (Path.normalize path))⟩ := by
        simp [activity, Workspace.release]
      rw [ht]
      exact .single (.release _)
  | rested library gates searchPaths unedited unlaunched silent =>
      rw [unedited, unlaunched, silent]
      exact .refl _

/-- **A run is a course of events**, and its history is what the course tells of. -/
theorem perform_course {w : Workspace} (h : w.Named) (actions : List Action) :
    Course Activity.Step w.activity (w.history actions) (w.perform actions).activity := by
  induction actions generalizing w with
  | nil => exact .refl _
  | cons a actions ih => exact (act_course h a).trans (ih (h.act a))

/-- After any run the names of the tasks are distinct. -/
theorem Named.perform {w : Workspace} (h : w.Named) (actions : List Action) :
    (w.perform actions).Named := by
  induction actions generalizing w with
  | nil => exact h
  | cons a actions ih => exact ih (h.act a)

/-- A new workspace has no tasks. -/
theorem named_fresh (files : List (String × Option String)) (gated searchPaths : List String)
    (walkBudget : Nat) : (fresh files gated searchPaths walkBudget).Named :=
  List.nodup_nil

end Workspace
end WrenAnalysis
