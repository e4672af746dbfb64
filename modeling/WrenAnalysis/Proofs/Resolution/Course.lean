/-
# The course of events

Whatever a task does to the registry and to itself is made of six moves
(`Task.Move`): it warns, issues a read, puts a read aside, or consumes one that
fails, that comes too late, or that is registered.  A whole `Task.drain` is a
course of moves (`Task.drain_course`).  What happens around the tasks is made of
six more steps (`Activity.Step`): a text is registered, a task starts, is done or
is given up, reads are let go, and another task takes its turn.

A course keeps a history.  It tells of the texts that were registered, of the reads
that were consumed with what each of them met (`Consumption`), and of the reports.
What each step keeps, a course keeps (`Course.preserves`), and the property may
speak of the history: all invariants of a workspace are shown that way.
-/

import WrenAnalysis.Proofs.Registry
import WrenAnalysis.Resolution.Task

namespace WrenAnalysis

/-- A read that is consumed, with all that decides what comes of it. -/
structure Consumption where
  sources : Sources
  registry : Registry
  /-- The task that issued the read, without it. -/
  task : Task
  load : Load

namespace Consumption

/-- The registry and the task once the read is consumed. -/
def after (c : Consumption) : Registry × Task :=
  Task.consume c.sources (c.registry, c.task) c.load

/-- An identity is ready once the read is consumed, and was not before. -/
def makesReady (c : Consumption) (identity : String) : Bool :=
  !c.registry.contains identity && c.after.1.contains identity

end Consumption

/-- What a history tells of. -/
inductive Event where
  /-- A text was registered that no task had read. -/
  | edited (identity : String) (module : Module)
  /-- A task consumed a read. -/
  | consumed (c : Consumption)
  /-- A task had no read left. -/
  | finished (report : Report)

/-- One step after the other, with the history of all of them. -/
inductive Course {σ : Type} (step : σ → List Event → σ → Prop) : σ → List Event → σ → Prop
  | refl (s : σ) : Course step s [] s
  | cons {a b c : σ} {es fs : List Event} :
      step a es b → Course step b fs c → Course step a (es ++ fs) c

namespace Course

variable {σ : Type} {step : σ → List Event → σ → Prop} {a b c : σ} {es fs : List Event}

/-- One step is a course. -/
theorem single (h : step a es b) : Course step a es b :=
  List.append_nil es ▸ cons h (refl b)

/-- A step that no history tells of, in front of a course. -/
theorem silent (h : step a [] b) (h' : Course step b fs c) : Course step a fs c := cons h h'

/-- One course after another is a course. -/
theorem trans (h : Course step a es b) (h' : Course step b fs c) :
    Course step a (es ++ fs) c := by
  induction h with
  | refl => exact h'
  | cons hs _ ih =>
      rw [List.append_assoc]
      exact cons hs (ih h')

/-- **What each step keeps, a course keeps.**  The property may speak of the
history so far. -/
theorem preserves {P : List Event → σ → Prop}
    (keep : ∀ {before : List Event} {a b : σ} {es : List Event},
      step a es b → P before a → P (before ++ es) b)
    (h : Course step a es b) : ∀ {before : List Event}, P before a → P (before ++ es) b := by
  induction h with
  | refl s =>
      intro before hP
      rwa [List.append_nil]
  | cons hs _ ih =>
      intro before hP
      rw [← List.append_assoc]
      exact ih (keep hs hP)

end Course

namespace Task

/-- The task without the claim to an identity. -/
def unclaim (t : Task) (identity : String) : Task :=
  { t with claimed := t.claimed.filter (· ≠ identity) }

/-- The task with one more identity that it has loaded. -/
def record (t : Task) (identity : String) : Task :=
  { t with loaded := t.loaded ++ [identity] }

/-- What a task can do in one move. -/
inductive Move : Registry × Task → List Event → Registry × Task → Prop
  | warn {r : Registry} {t : Task} (w : Warning) : Move (r, t) [] (r, t.warn w)
  /-- Only an absent identity is read. -/
  | issue {r : Registry} {t : Task} (l : Load) (absent : r.state l.identity = .absent) :
      Move (r, t) [] (r.await l.identity, t.issue l)
  | park {r : Registry} {t : Task} {l : Load} {queue : List Load} (head : t.queue = l :: queue) :
      Move (r, t) [] (r, { t with queue, parked := t.parked ++ [l] })
  /-- A read that yields no module makes its identity absent again. -/
  | fail {r : Registry} {t : Task} {l : Load} {queue : List Load} (src : Sources)
      (head : t.queue = l :: queue) {w : Warning} (bad : l.parse = .error w) :
      Move (r, t) [.consumed ⟨src, r, { t with queue }, l⟩]
        (r.release l.identity, ({ t with queue }.unclaim l.identity).warn w)
  /-- A module is dropped if its identity is no longer pending. -/
  | discard {r : Registry} {t : Task} {l : Load} {queue : List Load} (src : Sources)
      (head : t.queue = l :: queue) {m : Module} (good : l.parse = .ok m)
      (late : l.identity ∉ r.pending) :
      Move (r, t) [.consumed ⟨src, r, { t with queue }, l⟩]
        (r, { t with queue }.unclaim l.identity)
  | register {r : Registry} {t : Task} {l : Load} {queue : List Load} (src : Sources)
      (head : t.queue = l :: queue) {m : Module} (good : l.parse = .ok m)
      (pending : l.identity ∈ r.pending) :
      Move (r, t) [.consumed ⟨src, r, { t with queue }, l⟩]
        (r.insert l.identity m, ({ t with queue }.unclaim l.identity).record l.identity)

/-- The read that a turn consumes, if it consumes one. -/
def consumption? (src : Sources) (s : Registry × Task) : Option Consumption :=
  match s.2.queue with
  | [] => none
  | l :: queue => if l.waiting then none else some ⟨src, s.1, { s.2 with queue }, l⟩

/-- The reads consumed in at most `turns` turns, in order. -/
def consumptionsUpTo (src : Sources) : (turns : Nat) → Registry × Task → List Consumption
  | 0, _ => []
  | turns + 1, s =>
    match turn? src s with
    | none => []
    | some s' => (consumption? src s).toList ++ consumptionsUpTo src turns s'

/-- The reads consumed until the queue is empty, in order. -/
def consumptions (src : Sources) (s : Registry × Task) : List Consumption :=
  consumptionsUpTo src (turnBound src.library s.2) s

variable {src : Sources} {r : Registry} {t : Task} {l : Load} {m : Module}

/-! ### Reads in flight -/

/-- A read that is issued is in flight. -/
theorem inFlight_issue (t : Task) (l : Load) : (t.issue l).inFlight.Perm (l :: t.inFlight) := by
  simp [inFlight, issue, List.perm_middle]

/-- The read at the head is in flight, before the others. -/
theorem inFlight_of_head {queue : List Load} (head : t.queue = l :: queue) :
    t.inFlight = l :: ({ t with queue } : Task).inFlight := by
  rw [inFlight, head]
  rfl

/-! ### What comes of a read -/

/-- A read that fails takes back its mark and leaves a warning. -/
theorem consume_of_error {w : Warning} (bad : l.parse = .error w) :
    consume src (r, t) l = (r.release l.identity, (t.unclaim l.identity).warn w) := by
  simp only [consume, bad, Registry.complete_none]
  rfl

/-- A read whose identity is no longer pending only ends. -/
theorem consume_of_late (good : l.parse = .ok m) (late : l.identity ∉ r.pending) :
    consume src (r, t) l = (r, t.unclaim l.identity) := by
  simp only [consume, good, Registry.complete?_of_notMem late]
  rfl

/-- A read whose identity is pending is registered, and its imports are followed. -/
theorem consume_of_pending (good : l.parse = .ok m) (pending : l.identity ∈ r.pending) :
    consume src (r, t) l = followAll src l.directory m
      (r.insert l.identity m, (t.unclaim l.identity).record l.identity) := by
  simp only [consume, good, Registry.complete?_of_mem pending]
  rfl

/-! ### Courses of moves -/

/-- A task keeps to its search paths. -/
theorem scope_of_course {s s' : Registry × Task} {es : List Event} (h : Course Move s es s') :
    s'.2.scope = s.2.scope := by
  induction h with
  | refl => rfl
  | cons hm _ ih =>
      rw [ih]
      cases hm <;> rfl

/-- An import is skipped, or warned about, or its first candidate is read, which
was absent as all of them were. -/
theorem follow_course (src : Sources) (dir literal : String) (s : Registry × Task) :
    Course Move s [] (follow src dir s literal) := by
  obtain ⟨r, t⟩ := s
  simp only [follow]
  split_ifs
  · exact .refl _
  · exact .refl _
  · split
    · exact .single (.warn _)
    · rename_i path _
      split
      · exact .refl _
      · rename_i r' hr'
        obtain ⟨absent, rfl⟩ := Registry.begin?_eq_some hr'
        exact .single (.issue ⟨_, path, _, _⟩ absent)

/-- Following imports one after the other is a course of moves. -/
theorem foldl_follow_course (src : Sources) (dir : String) (literals : List String)
    (s : Registry × Task) : Course Move s [] (literals.foldl (follow src dir) s) := by
  induction literals generalizing s with
  | nil => exact .refl s
  | cons literal literals ih => exact (follow_course src dir literal s).trans (ih _)

/-- Following the imports of a module is a course of moves. -/
theorem followAll_course (src : Sources) (dir : String) (m : Module) (s : Registry × Task) :
    Course Move s [] (followAll src dir m s) :=
  foldl_follow_course src dir m.importLiterals s

/-- Consuming the head of the queue is one move and what follows from its imports. -/
theorem consume_course {queue : List Load} (src : Sources) (head : t.queue = l :: queue) :
    Course Move (r, t) [.consumed ⟨src, r, { t with queue }, l⟩]
      (consume src (r, { t with queue }) l) := by
  cases hp : l.parse with
  | error w =>
      rw [consume_of_error hp]
      exact .single (.fail src head hp)
  | ok m =>
      by_cases hm : l.identity ∈ r.pending
      · rw [consume_of_pending hp hm]
        exact .cons (.register src head hp hm) (followAll_course ..)
      · rw [consume_of_late hp hm]
        exact .single (.discard src head hp hm)

/-- A turn is a course of moves, with the read that it consumes. -/
theorem turn_course {s s' : Registry × Task} (h : turn? src s = some s') :
    Course Move s ((consumption? src s).toList.map .consumed) s' := by
  obtain ⟨r, t⟩ := s
  unfold turn? at h
  unfold consumption?
  cases hq : t.queue with
  | nil => simp [hq] at h
  | cons l queue =>
      simp only [hq] at h ⊢
      split_ifs at h ⊢
      · obtain rfl := Option.some.inj h
        exact .single (.park hq)
      · obtain rfl := Option.some.inj h
        exact consume_course src hq

/-- Turns are a course of moves, with the reads that they consume. -/
theorem drainUpTo_course (src : Sources) (turns : Nat) (s : Registry × Task) :
    Course Move s ((consumptionsUpTo src turns s).map .consumed) (drainUpTo src turns s) := by
  induction turns generalizing s with
  | zero => exact .refl s
  | succ turns ih =>
      unfold consumptionsUpTo drainUpTo
      cases h : turn? src s with
      | none => exact .refl s
      | some s' =>
          rw [List.map_append]
          exact (turn_course h).trans (ih s')

/-- **A task runs by its moves**, and consumes the reads that `consumptions` lists. -/
theorem drain_course (src : Sources) (s : Registry × Task) :
    Course Move s ((consumptions src s).map .consumed) (drain src s) :=
  drainUpTo_course src _ s

/-- The start of a task is a course of moves that consumes nothing. -/
theorem start_course (src : Sources) (scope : Scope) (dir : String) (m : Module) (r : Registry) :
    Course Move (r, { scope }) [] (start src scope dir m r) :=
  followAll_course src dir m _

end Task

/-- The registry and the tasks that are alive.  The first of them is the one whose
turn it is. -/
structure Activity where
  registry : Registry
  tasks : List Task

namespace Activity

/-- What can happen to a registry and the tasks on it. -/
inductive Step : Activity → List Event → Activity → Prop
  | edit {r : Registry} {ts : List Task} (identity : String) (m : Module) :
      Step ⟨r, ts⟩ [.edited identity m] ⟨r.insert identity m, ts⟩
  | start {r : Registry} {ts : List Task} (scope : Scope) : Step ⟨r, ts⟩ [] ⟨r, { scope } :: ts⟩
  | move {r r' : Registry} {t t' : Task} {ts : List Task} {es : List Event}
      (h : Task.Move (r, t) es (r', t')) : Step ⟨r, t :: ts⟩ es ⟨r', t' :: ts⟩
  | finish {r : Registry} {t : Task} {ts : List Task} (done : t.isDone = true) :
      Step ⟨r, t :: ts⟩ [.finished (t.report r)] ⟨r, ts⟩
  | abandon {r : Registry} {t : Task} {ts : List Task} : Step ⟨r, t :: ts⟩ [] ⟨t.abandon r, ts⟩
  | release {r : Registry} {ts : List Task} (path : String) :
      Step ⟨r, ts⟩ [] ⟨r, ts.map (Task.release path)⟩
  | yield {r : Registry} {ts ts' : List Task} (h : ts.Perm ts') : Step ⟨r, ts⟩ [] ⟨r, ts'⟩

/-- What a task does is done beside all others. -/
theorem course_of_moves {s s' : Registry × Task} {es : List Event}
    (h : Course Task.Move s es s') (ts : List Task) :
    Course Step ⟨s.1, s.2 :: ts⟩ es ⟨s'.1, s'.2 :: ts⟩ := by
  induction h with
  | refl => exact .refl _
  | cons hm _ ih => exact .cons (.move hm) ih

end Activity
end WrenAnalysis
