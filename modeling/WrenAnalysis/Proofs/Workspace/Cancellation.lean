/-
# What becomes of the imports of others when a task is given up

A task skips an import that another task is reading.  If the other task ends, the import
is answered: its file is ready, or the report of the other task tells why not.  If the
other task is given up, the identity becomes absent again, no report tells of it, and the
task that skipped the import, which may be done by then, does not come back to it
(`Workspace.given_up_import_lost`).

This is the only way to lose an import.  An identity that is not absent stays so until a
warning tells that its file failed, and the warning stays until it is reported; both are
undone only when a task is given up (`Workspace.Live.act`).  Hence the imports of a document
whose task ends are answered once no task waits, in every run, except for files that a task
was reading, or knew to have failed, when it was given up
(`Workspace.completed_imports_kept`).
-/

import WrenAnalysis.Proofs.Resolution.Import
import WrenAnalysis.Proofs.Workspace.Ownership

namespace WrenAnalysis

/-- The name under which the task of an action is kept if it has to wait. -/
def Action.task? : Action → Option String
  | .change _ _ task => task
  | .openDocument _ _ task => task
  | .resolve _ _ _ task => task
  | _ => none

/-- The name of the task that an action gives up. -/
def Action.dropped? : Action → Option String
  | .drop task => some task
  | _ => none

/-- The report that an action ends with. -/
def Outcome.report? : Outcome → Option Report
  | .finished report => some report
  | _ => none

/-- A warning of a report tells that the file of an identity failed. -/
def Report.failed (report : Report) (identity : String) : Prop :=
  ∃ w ∈ report.warnings, w.failed? = some identity

namespace Workspace

/-! ### How tasks end -/

/-- The tasks that are given up when a task has run: the task itself if it has to wait and
has no name, and an older one whose name it takes. -/
def Launch.abandoned (l : Launch) : List Task :=
  if l.drained.2.isDone then []
  else
    match l.name with
    | some name => (l.workspace.tasks.lookup name).toList
    | none => [l.drained.2]

/-- The tasks that an action gives up. -/
def abandoned (w : Workspace) (a : Action) : List Task :=
  (a.dropped?.bind fun name => w.tasks.lookup name).toList ++
    (w.launch? a).toList.flatMap Launch.abandoned

/-- The tasks that some actions give up, in order. -/
def givenUp : Workspace → List Action → List Task
  | _, [] => []
  | w, a :: actions => w.abandoned a ++ (w.act a).1.givenUp actions

/-- The reports of the tasks that end in the course of some actions, in order. -/
def reports : Workspace → List Action → List Report
  | _, [] => []
  | w, a :: actions => (w.act a).2.outcome.report?.toList ++ (w.act a).1.reports actions

/-- The task that waits under a name is given up, for its own sake or for another task of
that name. -/
def vacates (w : Workspace) (name : String) (a : Action) : Bool :=
  a = .drop name || (a.task? = some name && (w.act a).2.outcome = .blocked)

/-- The report of the task that waits under a name, if it ends in the course of some
actions. -/
def reportOf (w : Workspace) (name : String) : List Action → Option Report
  | [] => none
  | a :: actions =>
    if w.vacates name a then none
    else if a = .poll name then
      (w.act a).2.outcome.report?.or ((w.act a).1.reportOf name actions)
    else (w.act a).1.reportOf name actions

/-- The report of the task that an action starts, if it ends by then or in the course of
the actions after it. -/
def completed? (w : Workspace) (a : Action) (after : List Action) : Option Report :=
  match (w.act a).2.outcome, a.task? with
  | .finished report, _ => some report
  | .blocked, some name => (w.act a).1.reportOf name after
  | _, _ => none

/-- A report tells that the file of an identity failed. -/
def Told (w : Workspace) (actions : List Action) (identity : String) : Prop :=
  ∃ report ∈ w.reports actions, report.failed identity

/-- A task was given up that was reading the file of an identity or knew that it had
failed. -/
def Lost (w : Workspace) (actions : List Action) (identity : String) : Prop :=
  ∃ t ∈ w.givenUp actions, identity ∈ t.claimed ∨ t.failed identity

/-- What the candidates of an import of a document are known by. -/
def candidates (w : Workspace) (dir literal : String) : List String :=
  ((w.sources .workspace).candidates dir literal).map ImportPath.identity

/-- An import is not lost in the course of some actions: a candidate is ready in the end, or
the task that followed it has reported that there is no file, or some task has reported that
a candidate failed. -/
def Kept (w : Workspace) (actions : List Action) (report : Report) (dir literal : String) :
    Prop :=
  (∃ i ∈ w.candidates dir literal, (w.perform actions).registry.state i = .ready) ∨
    Warning.importNotFound (ImportPath.file literal) dir ∈ report.warnings ∨
    ∃ i ∈ w.candidates dir literal, w.Told actions i

instance (report : Report) (identity : String) : Decidable (report.failed identity) :=
  inferInstanceAs (Decidable (∃ w ∈ report.warnings, w.failed? = some identity))

instance (w : Workspace) (actions : List Action) (identity : String) :
    Decidable (w.Told actions identity) :=
  inferInstanceAs (Decidable (∃ report ∈ w.reports actions, report.failed identity))

instance (w : Workspace) (actions : List Action) (report : Report) (dir literal : String) :
    Decidable (w.Kept actions report dir literal) :=
  inferInstanceAs (Decidable (_ ∨ _ ∨ _))

/-! ### What an identity has to wait for -/

variable {w : Workspace} {a : Action} {l : Launch} {name identity : String}

/-- An identity is ready or pending, or a task that waits knows that its file failed. -/
def Live (w : Workspace) (identity : String) : Prop :=
  w.registry.state identity ≠ .absent ∨ ∃ e ∈ w.tasks, e.2.failed identity

/-- Giving up a task makes absent only what the task claimed. -/
theorem state_abandon_ne_absent {r : Registry} (h : r.state identity ≠ .absent) (t : Task) :
    (t.abandon r).state identity ≠ .absent ∨ identity ∈ t.claimed := by
  rw [Registry.state_ne_absent_iff] at h ⊢
  by_cases hc : identity ∈ t.claimed
  · exact .inr hc
  · rw [Task.abandon_eq]
    exact .inl (h.imp_left fun hp => List.mem_filter.2 ⟨hp, decide_eq_true hc⟩)

/-- Registering a module makes nothing absent. -/
theorem state_insert_ne_absent {r : Registry} (h : r.state identity ≠ .absent) (other : String)
    (m : Module) : (r.insert other m).state identity ≠ .absent := by
  rw [Registry.state_ne_absent_iff] at h ⊢
  rw [Registry.mem_pending_insert, Registry.mem_identities_insert]
  by_cases he : identity = other
  · exact .inr (.inl he)
  · exact h.imp (fun hp => ⟨hp, he⟩) .inr

/-- Dropping a task ends what the task alone kept live. -/
theorem Live.dropTask (hn : w.Named) (h : w.Live identity) (name : String) :
    (w.dropTask name).Live identity ∨
      ∃ t ∈ (w.tasks.lookup name).toList, identity ∈ t.claimed ∨ t.failed identity := by
  unfold Workspace.dropTask
  cases ht : w.tasks.lookup name with
  | none => exact .inl h
  | some t =>
      have hlost : identity ∈ t.claimed ∨ t.failed identity →
          ∃ t' ∈ (some t).toList, identity ∈ t'.claimed ∨ t'.failed identity :=
        fun hi => ⟨t, List.mem_cons_self, hi⟩
      rcases h with hstate | ⟨e, he, hfail⟩
      · exact (state_abandon_ne_absent hstate t).imp .inl fun hc => hlost (.inl hc)
      · rcases List.mem_cons.1 ((perm_of_lookup hn ht).mem_iff.1 he) with rfl | he
        · exact .inr (hlost (.inr hfail))
        · exact .inl (.inr ⟨e, he, hfail⟩)

/-- An identity stays live when an action is done, or a report tells that its file failed,
or a task is given up that was reading it or knew that it had failed. -/
def Passes (w : Workspace) (a : Action) (identity : String) : Prop :=
  (w.act a).1.Live identity ∨
    (∃ report ∈ (w.act a).2.outcome.report?.toList, report.failed identity) ∨
      ∃ t ∈ w.abandoned a, identity ∈ t.claimed ∨ t.failed identity

/-- An action that lets a task run gives up what this task gives up. -/
theorem abandoned_of_launch? (launched : w.launch? a = some l) : w.abandoned a = l.abandoned := by
  have hd : a.dropped? = none := by
    cases a with
    | drop name => exact absurd launched (Option.some_ne_none _).symm
    | _ => rfl
  simp [abandoned, hd, launched]

/-- A task that waits gives up the older one of its name. -/
theorem Launch.abandoned_of_named (named : l.name = some name)
    (waits : l.drained.2.isDone = false) :
    l.abandoned = (l.workspace.tasks.lookup name).toList := by
  rw [abandoned, waits, named]
  rfl

/-- A task without a name cannot wait and is given up. -/
theorem Launch.abandoned_of_unnamed (unnamed : l.name = none)
    (waits : l.drained.2.isDone = false) : l.abandoned = [l.drained.2] := by
  rw [abandoned, waits, unnamed]
  rfl

/-- What is live around a task that has run, and what that task knows. -/
theorem passes_of_launched (hn : w.Named) (launched : w.launch? a = some l)
    (h : l.around.Live identity ∨ l.drained.2.failed identity) : w.Passes a identity := by
  have hnamed : l.around.Named := hn.of_sublist (tasks_sublist_of_launch? launched)
  unfold Passes
  rw [abandoned_of_launch? launched]
  have hc := act_comesTo w a
  generalize w.act a = r at hc ⊢
  cases hc with
  | @finished _ l' reads launched' done =>
      obtain rfl := Option.some.inj (launched.symm.trans launched')
      rcases h with hlive | hfail
      · refine .inl ?_
        dsimp only
        split_ifs <;> exact hlive
      · exact .inr (.inl ⟨_, List.mem_cons_self, hfail⟩)
  | @blocked _ l' name reads launched' named waits =>
      obtain rfl := Option.some.inj (launched.symm.trans launched')
      rw [l.abandoned_of_named named waits]
      rcases h with hlive | hfail
      · rcases hlive.dropTask hnamed name with hlive | hlost
        · exact .inl (hlive.imp_right fun ⟨e, he, hf⟩ => ⟨e, List.mem_append_left _ he, hf⟩)
        · exact .inr (.inr hlost)
      · refine .inl (.inr ⟨(name, l.drained.2), ?_, hfail⟩)
        rw [tasks_keep]
        exact List.mem_append_right _ List.mem_cons_self
  | @dropped _ l' reads launched' unnamed waits =>
      obtain rfl := Option.some.inj (launched.symm.trans launched')
      rw [l.abandoned_of_unnamed unnamed waits]
      rcases h with (hstate | htask) | hfail
      · rcases state_abandon_ne_absent hstate l.drained.2 with hstate | hclaim
        · exact .inl (.inl hstate)
        · exact .inr (.inr ⟨_, List.mem_cons_self, .inl hclaim⟩)
      · exact .inl (.inr htask)
      · exact .inr (.inr ⟨_, List.mem_cons_self, .inr hfail⟩)
  | seeded good => exact absurd launched (Option.some_ne_none _).symm
  | gaveUp name held => exact absurd launched (Option.some_ne_none _).symm
  | released path count => exact absurd launched (Option.some_ne_none _).symm
  | rested library gates searchPaths unedited unlaunched silent =>
      exact absurd (launched.symm.trans unlaunched) (Option.some_ne_none _)

/-- What is live is so when a task has run, or is known to that task. -/
theorem Live.launched (hn : w.Named) (h : w.Live identity) (launched : w.launch? a = some l) :
    l.around.Live identity ∨ l.drained.2.failed identity := by
  -- What is answered where the task starts is answered where it stops.
  have hdrain : Task.Answered (l.workspace.registry, l.task) identity →
      l.around.Live identity ∨ l.drained.2.failed identity := fun hi =>
    (Task.answered_of_course (Task.drain_course _ _) hi).imp_left .inl
  have hstart : ∀ (src : Sources) (scope : Scope) (dir : String) (m : Module) (r : Registry),
      r.state identity ≠ .absent → Task.Answered (Task.start src scope dir m r) identity := by
    intro src scope dir m r hr
    exact Task.answered_of_course (Task.start_course src scope dir m r) (.inl hr)
  rcases launch?_cases launched with ⟨path, m, name, -, rfl⟩ | ⟨_, _, _, _, m, -, rfl⟩ |
    ⟨name, t, -, ht, rfl⟩
  · rcases h with hstate | htask
    · exact hdrain (hstart _ _ _ _ _ (state_insert_ne_absent hstate _ m))
    · exact .inl (.inr htask)
  · rcases h with hstate | htask
    · exact hdrain (hstart _ _ _ _ _ hstate)
    · exact .inl (.inr htask)
  · rcases h with hstate | ⟨e, he, hfail⟩
    · exact hdrain (.inl hstate)
    · rcases List.mem_cons.1 ((perm_of_lookup hn ht).mem_iff.1 he) with rfl | he
      · exact hdrain (.inr hfail)
      · exact .inl (.inr ⟨e, he, hfail⟩)

/-- **An identity stays live until it is told of, or lost with a task.** -/
theorem Live.act (hn : w.Named) (h : w.Live identity) (a : Action) : w.Passes a identity := by
  cases hl : w.launch? a with
  | some l => exact passes_of_launched hn hl (h.launched hn hl)
  | none =>
      unfold Passes
      have hc := act_comesTo w a
      generalize w.act a = r at hc ⊢
      cases hc with
      | finished reads launched => exact absurd (launched.symm.trans hl) (Option.some_ne_none _)
      | blocked reads launched => exact absurd (launched.symm.trans hl) (Option.some_ne_none _)
      | dropped reads launched => exact absurd (launched.symm.trans hl) (Option.some_ne_none _)
      | @seeded path text m good =>
          have hlive : (w.register path m).Live identity :=
            h.imp_left fun hstate => state_insert_ne_absent hstate path m
          refine .inl ?_
          unfold publishIfSettled
          dsimp only
          split_ifs <;> exact hlive
      | gaveUp name held =>
          refine (h.dropTask hn name).imp_right fun ⟨t, ht, hi⟩ => .inr ⟨t, ?_, hi⟩
          exact List.mem_append_left _ ht
      | released path count =>
          refine .inl (h.imp_right fun ⟨e, he, hf⟩ => ?_)
          exact ⟨_, List.mem_map_of_mem he, hf⟩
      | rested => exact .inl h

/-- What becomes of an identity in a run. -/
def Fares (w : Workspace) (actions : List Action) (identity : String) : Prop :=
  (w.perform actions).Live identity ∨ w.Told actions identity ∨ w.Lost actions identity

/-- What becomes of an identity by one action and by the rest of a run. -/
theorem Passes.fares {actions : List Action} (h : w.Passes a identity)
    (rest : (w.act a).1.Live identity → (w.act a).1.Fares actions identity) :
    w.Fares (a :: actions) identity := by
  have htold : ∀ report, report ∈ (w.act a).2.outcome.report?.toList ∨
      report ∈ (w.act a).1.reports actions → report ∈ w.reports (a :: actions) :=
    fun report => List.mem_append.2
  have hlost : ∀ t, t ∈ w.abandoned a ∨ t ∈ (w.act a).1.givenUp actions →
      t ∈ w.givenUp (a :: actions) := fun t => List.mem_append.2
  rcases h with hlive | ⟨report, hr, hf⟩ | ⟨t, ht, hi⟩
  · rcases rest hlive with hlive | ⟨report, hr, hf⟩ | ⟨t, ht, hi⟩
    · exact .inl hlive
    · exact .inr (.inl ⟨report, htold _ (.inr hr), hf⟩)
    · exact .inr (.inr ⟨t, hlost _ (.inr ht), hi⟩)
  · exact .inr (.inl ⟨report, htold _ (.inl hr), hf⟩)
  · exact .inr (.inr ⟨t, hlost _ (.inl ht), hi⟩)

/-- **In any run an identity stays live, is told of, or is lost with a task.** -/
theorem Live.fares (hn : w.Named) (h : w.Live identity) (actions : List Action) :
    w.Fares actions identity := by
  induction actions generalizing w with
  | nil => exact .inl h
  | cons a actions ih => exact (h.act hn a).fares fun hlive => ih (hn.act a) hlive

/-! ### What a task reports in the end -/

/-- Taking out the task of one name leaves those of others where they are. -/
theorem lookup_filter_ne {other : String} (l : List (String × Task)) (h : other ≠ name) :
    (l.filter (·.1 ≠ name)).lookup other = l.lookup other := by
  induction l with
  | nil => rfl
  | cons e l ih =>
      obtain ⟨key, t⟩ := e
      by_cases hk : key = name
      · rw [List.filter_cons_of_neg (by simpa using hk), ih, lookup_cons_ite,
          if_neg (hk ▸ h)]
      · rw [List.filter_cons_of_pos (by simpa using hk), lookup_cons_ite, lookup_cons_ite, ih]

/-- A task that waits is found under its name. -/
theorem lookup_keep_self (w : Workspace) (name : String) (t : Task) :
    (w.keep name t).tasks.lookup name = some t := by
  have hnone : (w.tasks.filter (·.1 ≠ name)).lookup name = none := by
    refine List.lookup_eq_none_iff.2 fun e he => ?_
    exact bne_iff_ne.2 (Ne.symm (of_decide_eq_true (List.mem_filter.1 he).2))
  rw [tasks_keep, List.lookup_append, hnone, Option.none_or, lookup_cons_ite, if_pos rfl]

/-- A task that waits leaves those of other names where they are. -/
theorem lookup_keep_ne {other : String} (w : Workspace) (t : Task) (h : other ≠ name) :
    (w.keep name t).tasks.lookup other = w.tasks.lookup other := by
  rw [tasks_keep, List.lookup_append, lookup_filter_ne w.tasks h, lookup_cons_ite, if_neg h]
  exact Option.or_none

/-- Letting reads go leaves every task under its name. -/
theorem lookup_release (l : List (String × Task)) (path : String) :
    (l.map fun e => (e.1, e.2.release path)).lookup name =
      (l.lookup name).map (Task.release path) := by
  induction l with
  | nil => rfl
  | cons e l ih =>
      rw [List.map_cons, lookup_cons_ite, ih, lookup_cons_ite]
      split_ifs <;> rfl

/-- A task that runs is a new one or the one that was polled. -/
theorem launch?_name (launched : w.launch? a = some l) :
    (l.name = a.task? ∧ l.workspace.tasks = w.tasks ∧ ∀ name, a ≠ .poll name) ∨
      ∃ name t, a = .poll name ∧ w.tasks.lookup name = some t ∧
        l = ⟨w.forget name, some name, t⟩ := by
  cases a with
  | change path text name =>
      obtain ⟨m, -, rfl⟩ := Option.map_eq_some_iff.1 launched
      exact .inl ⟨rfl, rfl, fun _ he => Action.noConfusion he⟩
  | openDocument path text name =>
      simp only [launch?] at launched
      split_ifs at launched
      obtain ⟨m, -, rfl⟩ := Option.map_eq_some_iff.1 launched
      exact .inl ⟨rfl, rfl, fun _ he => Action.noConfusion he⟩
  | resolve text origin searchPaths name =>
      obtain ⟨m, -, rfl⟩ := Option.map_eq_some_iff.1 launched
      exact .inl ⟨rfl, rfl, fun _ he => Action.noConfusion he⟩
  | poll name =>
      obtain ⟨t, ht, rfl⟩ := Option.map_eq_some_iff.1 launched
      exact .inr ⟨name, t, rfl, ht, rfl⟩
  | _ => simp [launch?] at launched

/-- The task that waits under a name has these warnings. -/
def Warns (w : Workspace) (name : String) (own : List Warning) : Prop :=
  ∃ t, w.tasks.lookup name = some t ∧ own ⊆ t.warnings

/-- A task forgets no warning while it runs. -/
theorem warnings_drained (l : Launch) : l.task.warnings ⊆ l.drained.2.warnings :=
  Task.warnings_of_course (Task.drain_course _ (l.workspace.registry, l.task))

/-- A task that is not given up keeps its warnings until it is done, and reports them then. -/
theorem Warns.act {own : List Warning} (h : w.Warns name own)
    (stays : w.vacates name a = false) :
    (a = .poll name ∧ ∃ report, (w.act a).2.outcome.report? = some report ∧
        own ⊆ report.warnings) ∨
      (a = .poll name → (w.act a).2.outcome.report? = none) ∧ (w.act a).1.Warns name own := by
  obtain ⟨t, ht, hown⟩ := h
  unfold vacates at stays
  have hc := act_comesTo w a
  generalize w.act a = r at hc stays ⊢
  cases hc with
  | @finished _ l reads launched done =>
      have hkept : ∀ t', l.workspace.tasks.lookup name = some t' → own ⊆ t'.warnings →
          (if l.publishes then l.around.publish else l.around).Warns name own := by
        intro t' ht' hown'
        split_ifs <;> exact ⟨t', ht', hown'⟩
      rcases launch?_name launched with ⟨-, htasks, hpoll⟩ | ⟨other, t', rfl, ht', rfl⟩
      · exact .inr ⟨fun he => absurd he (hpoll name), hkept t (htasks ▸ ht) hown⟩
      · by_cases hname : name = other
        · subst hname
          obtain rfl := Option.some.inj (ht.symm.trans ht')
          have hall := List.Subset.trans hown (warnings_drained ⟨w.forget name, some name, t⟩)
          exact .inl ⟨rfl, _, rfl, hall⟩
        · refine .inr ⟨fun he => absurd (Action.poll.inj he).symm hname, ?_⟩
          exact hkept t ((lookup_filter_ne w.tasks hname).trans ht) hown
  | @blocked _ l other reads launched named waits =>
      refine .inr ⟨fun _ => rfl, ?_⟩
      rcases launch?_name launched with ⟨hname, htasks, -⟩ | ⟨other', t', rfl, ht', rfl⟩
      · have hne : name ≠ other := by
          rintro rfl
          simp [← hname, named] at stays
        exact ⟨t, (lookup_keep_ne l.around _ hne).trans (htasks ▸ ht), hown⟩
      · obtain rfl := Option.some.inj named
        by_cases hname : name = other'
        · subst hname
          obtain rfl := Option.some.inj (ht.symm.trans ht')
          have hall := List.Subset.trans hown (warnings_drained ⟨w.forget name, some name, t⟩)
          exact ⟨_, lookup_keep_self .., hall⟩
        · exact ⟨t, (lookup_keep_ne _ _ hname).trans ((lookup_filter_ne w.tasks hname).trans ht),
            hown⟩
  | @dropped _ l reads launched unnamed waits =>
      rcases launch?_name launched with ⟨-, htasks, -⟩ | ⟨other, t', rfl, ht', rfl⟩
      · exact .inr ⟨fun _ => rfl, t, htasks ▸ ht, hown⟩
      · exact absurd unnamed (Option.some_ne_none _)
  | seeded good =>
      refine .inr ⟨nofun, ?_⟩
      unfold publishIfSettled
      dsimp only
      split_ifs <;> exact ⟨t, ht, hown⟩
  | gaveUp other held =>
      have hne : name ≠ other := by
        rintro rfl
        simp at stays
      refine .inr ⟨nofun, t, ?_, hown⟩
      rw [tasks_dropTask, lookup_filter_ne w.tasks hne, ht]
  | released path count =>
      refine .inr ⟨nofun, t.release (Path.normalize path), ?_, hown⟩
      exact (lookup_release w.tasks _).trans (by rw [ht]; rfl)
  | @rested _ o library gates searchPaths unedited unlaunched silent =>
      refine .inr ⟨fun _ => ?_, t, ht, hown⟩
      cases o <;> first | rfl | cases silent

/-- **The report of a task has all warnings that the task had.** -/
theorem Warns.reportOf {own : List Warning} {actions : List Action} {report : Report}
    (h : w.Warns name own) (hr : w.reportOf name actions = some report) :
    own ⊆ report.warnings := by
  induction actions generalizing w with
  | nil => cases hr
  | cons a actions ih =>
      unfold Workspace.reportOf at hr
      split_ifs at hr with hv hp
      · rcases h.act (Bool.eq_false_iff.2 hv) with ⟨-, report', hr', hown⟩ | ⟨hnone, hw⟩
        · rw [hr', Option.some_or] at hr
          exact Option.some.inj hr ▸ hown
        · rw [hnone hp, Option.none_or] at hr
          exact ih hw hr
      · rcases h.act (Bool.eq_false_iff.2 hv) with ⟨hpoll, -⟩ | ⟨-, hw⟩
        · exact absurd hpoll hp
        · exact ih hw hr

/-! ### The imports of a document -/

/-- Where the task comes from that an action runs for a text that it registers. -/
theorem launch?_of_edit? {m : Module} (he : w.edit? a = some (identity, m))
    (launched : w.launch? a = some l) :
    ∃ path name, identity = ImportPath.identity path ∧ l = w.launchDocument path m name := by
  rcases launch?_cases launched with ⟨path, m', name, he', rfl⟩ | ⟨_, _, _, _, _, rfl, -⟩ |
    ⟨_, _, rfl, -, -⟩
  · obtain ⟨hi, hm⟩ := Prod.mk.inj (Option.some.inj (he.symm.trans he'))
    exact ⟨path, name, hi, by rw [hm]⟩
  · cases he
  · cases he

/-- The imports of a document are accounted for when its task has run. -/
theorem accounts_of_document {m : Module} (he : w.edit? a = some (identity, m))
    (launched : w.launch? a = some l) {literal : String} (hl : literal ∈ m.importLiterals) :
    Task.Accounts (w.sources .workspace) l.drained (ImportPath.originDir identity) literal := by
  obtain ⟨path, name, rfl, rfl⟩ := launch?_of_edit? he launched
  have hstart := Task.followAll_accounts
    ((w.register (ImportPath.identity path) m).sources .workspace)
    (ImportPath.originDir (ImportPath.identity path)) m
    ((w.register (ImportPath.identity path) m).registry, { scope := .workspace }) literal hl
  exact hstart.course (Task.drain_course ..)

/-- The report of a task has the warnings that the task had when it first ran. -/
theorem launch?_of_completed? {after : List Action} {report : Report}
    (h : w.completed? a after = some report) :
    ∃ l, w.launch? a = some l ∧ l.drained.2.warnings ⊆ report.warnings := by
  unfold completed? at h
  have hc := act_comesTo w a
  generalize w.act a = r at hc h
  cases hc with
  | finished reads launched done =>
      obtain rfl := Option.some.inj h
      exact ⟨_, launched, List.Subset.refl _⟩
  | @blocked _ l name reads launched named waits =>
      rcases launch?_name launched with ⟨hname, -⟩ | ⟨other, t, rfl, -, -⟩
      · rw [← hname, named] at h
        have hwarns : (l.around.keep name l.drained.2).Warns name l.drained.2.warnings :=
          ⟨_, lookup_keep_self .., List.Subset.refl _⟩
        exact ⟨l, launched, hwarns.reportOf h⟩
      · cases h
  | dropped reads launched unnamed waits => cases h
  | seeded good => cases h
  | gaveUp name held => cases h
  | released path count => cases h
  | @rested _ o library gates searchPaths unedited unlaunched silent kept =>
      cases o with
      | finished report => cases silent
      | blocked => exact absurd rfl kept.2
      | _ => cases h

/-- **Only a task that is given up can lose an import.**  In any run, at any point of it, let
an action register a document whose task ends then or later, and let no task wait in the
end.  Then each import of the document is kept, unless a task was given up meanwhile that was
reading one of its candidates or knew that it had failed. -/
theorem completed_imports_kept (files : List (String × Option String))
    (gated searchPaths : List String) (walkBudget : Nat) (before : List Action) (a : Action)
    (after : List Action) (identity : String) (m : Module) (report : Report) :
    let w := (fresh files gated searchPaths walkBudget).perform before
    w.edit? a = some (identity, m) → w.completed? a after = some report →
      (w.perform (a :: after)).tasks = [] →
        ∀ literal ∈ m.importLiterals, ImportPath.isBuiltin literal = false →
          w.Kept (a :: after) report (ImportPath.originDir identity) literal ∨
            ∃ i ∈ w.candidates (ImportPath.originDir identity) literal, w.Lost (a :: after) i := by
  intro w document completed rests literal hl hfile
  have hn : w.Named := (named_fresh ..).perform before
  have hpend : (w.perform (a :: after)).registry.pending = [] := by
    have howned := activity_owned_perform files gated searchPaths walkBudget (before ++ a :: after)
    rw [perform_append] at howned
    exact howned.pending_eq_nil (List.map_eq_nil_iff.2 rests)
  obtain ⟨l, launched, hwarnings⟩ := launch?_of_completed? completed
  cases accounts_of_document document launched hl with
  | builtin hb => exact absurd (hfile.symm.trans hb) Bool.false_ne_true
  | missing hw => exact .inl (.inr (.inl (hwarnings hw)))
  | @answered path mem ha =>
      have hmem : ImportPath.identity path ∈
          w.candidates (ImportPath.originDir identity) literal := List.mem_map_of_mem mem
      have hfares : w.Fares (a :: after) (ImportPath.identity path) :=
        (passes_of_launched hn launched (ha.imp_left .inl)).fares fun hlive =>
          hlive.fares (hn.act a) after
      rcases hfares with (hstate | ⟨e, he, -⟩) | htold | hlost
      · refine .inl (.inl ⟨_, hmem, ?_⟩)
        rw [Registry.state_ne_absent_iff, hpend] at hstate
        rw [Registry.state_eq_ready_iff, hpend]
        exact ⟨List.not_mem_nil, hstate.resolve_left List.not_mem_nil⟩
      · rw [rests] at he
        exact absurd he List.not_mem_nil
      · exact .inl (.inr (.inr ⟨_, hmem, htold⟩))
      · exact .inr ⟨_, hmem, hlost⟩

/-- A document imports a file that the task of another document is reading, and is done with
it.  The other task goes on and ends, so the import is kept. -/
theorem completed_imports_kept_of_poll :
    let start := fresh [("/p/x.wren", some "class X \x7b\x7d")] ["/p/x.wren"] [] 100
    let before : List Action := [.change "/p/a.wren" "import \"x\"" (some "t")]
    let a := Action.change "/p/b.wren" "import \"x\"" (some "u")
    let after : List Action := [.release "/p/x.wren", .poll "t"]
    let w := start.perform before
    (w.completed? a after = some ⟨[], [], false⟩ ∧ (w.perform (a :: after)).tasks = [] ∧
        w.givenUp (a :: after) = []) ∧
      w.Kept (a :: after) ⟨[], [], false⟩ "/p" "\"x\"" := by
  intro start before a after w
  have completed : w.completed? a after = some ⟨[], [], false⟩ := by decide +kernel
  have rests : (w.perform (a :: after)).tasks = [] := by decide +kernel
  have spared : w.givenUp (a :: after) = [] := by decide +kernel
  have text : (w.edit? a).map (fun e => (e.1, e.2.importLiterals)) =
      some ("/p/b.wren", ["\"x\""]) := by decide +kernel
  obtain ⟨⟨identity, m⟩, document, he⟩ := Option.map_eq_some_iff.1 text
  obtain ⟨hi, hl⟩ := Prod.mk.inj he
  have hmem : "\"x\"" ∈ m.importLiterals := hl ▸ List.mem_cons_self
  have hkept := completed_imports_kept _ _ _ _ before a after identity m _ document completed
    rests "\"x\"" hmem (by decide +kernel)
  rw [show identity = "/p/b.wren" from hi,
    show ImportPath.originDir "/p/b.wren" = "/p" by decide +kernel] at hkept
  refine ⟨⟨completed, rests, spared⟩, hkept.resolve_right ?_⟩
  rintro ⟨i, -, t, ht, -⟩
  rw [spared] at ht
  exact List.not_mem_nil ht

/-- The same, but the other task is given up.  The import has no candidate that is ready, and
nothing tells of it. -/
theorem given_up_import_lost :
    let start := fresh [("/p/x.wren", some "class X \x7b\x7d")] ["/p/x.wren"] [] 100
    let w := start.perform [.change "/p/a.wren" "import \"x\"" (some "t")]
    let a := Action.change "/p/b.wren" "import \"x\"" (some "u")
    let after : List Action := [.release "/p/x.wren", .drop "t"]
    w.completed? a after = some ⟨[], [], false⟩ ∧ (w.perform (a :: after)).tasks = [] ∧
      (w.edit? a).map (fun e => (e.1, e.2.importLiterals)) = some ("/p/b.wren", ["\"x\""]) ∧
      ¬ w.Kept (a :: after) ⟨[], [], false⟩ "/p" "\"x\"" := by
  decide +kernel

end Workspace
end WrenAnalysis
