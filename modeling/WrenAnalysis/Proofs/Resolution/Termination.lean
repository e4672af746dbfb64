/-
# A call stops

A call waits for its reads and consumes them one at a time, in the order in which they happen
to end (`Call.Runs`).  Each read that ends was issued for an import of the module or of a
file that was loaded, and no file is loaded twice.  So there are only so many reads that can
end, and in whatever order they do, the call is left with none in flight
(`Call.done_of_schedule`).

A file that fails is absent again and may be read for another import.  That is why reads are
counted by imports here, and not by the files that are not registered.

The queue of a task is one such order, if no gate holds a read back (`Call.Runs.drain`).
-/

import Mathlib.Data.Nat.Find
import WrenAnalysis.Proofs.Resolution.Bound

namespace WrenAnalysis

namespace Task

/-- No read is held back. -/
structure Ungated (t : Task) : Prop where
  parked : t.parked = []
  queue : ∀ l ∈ t.queue, l.waiting = false

namespace Ungated

variable {src : Sources} {t : Task}

/-- With all gates open no import leads to a read that is held back. -/
theorem follow (hopen : src.gates = []) (dir literal : String) {s : Registry × Task}
    (h : s.2.Ungated) : (Task.follow src dir s literal).2.Ungated := by
  have hf := Task.follow_followed src dir literal s
  generalize Task.follow src dir s literal = s' at hf ⊢
  cases hf with
  | skipped unread reason => exact h
  | missing unread nowhere => exact ⟨h.parked, h.queue⟩
  | read first =>
      refine ⟨h.parked, fun l hl => ?_⟩
      rcases List.mem_append.1 hl with hl | hl
      · exact h.queue l hl
      · rw [List.mem_singleton.1 hl, Sources.load, hopen]
        rfl

/-- With all gates open the imports of a module lead to no read that is held back. -/
theorem followAll (hopen : src.gates = []) (dir : String) (m : Module) {s : Registry × Task}
    (h : s.2.Ungated) : (Task.followAll src dir m s).2.Ungated := by
  unfold Task.followAll
  induction m.importLiterals generalizing s with
  | nil => exact h
  | cons literal literals ih => exact ih (h.follow hopen dir literal)

/-- With all gates open a read that ends leads to none that is held back. -/
theorem consume (hopen : src.gates = []) (r : Registry) (l : Load) (h : t.Ungated) :
    (Task.consume src (r, t) l).2.Ungated := by
  have hsame : (t.unclaim l.identity).Ungated := ⟨h.parked, h.queue⟩
  cases hp : l.parse with
  | error w =>
      rw [Task.consume_of_error hp]
      exact ⟨hsame.parked, hsame.queue⟩
  | ok m =>
      by_cases hm : l.identity ∈ r.pending
      · rw [Task.consume_of_pending hp hm]
        exact followAll hopen _ m ⟨hsame.parked, hsame.queue⟩
      · rw [Task.consume_of_late hp hm]
        exact hsame

end Ungated
end Task

namespace Call

variable {c : Call} {n : ℕ} {s s' : Registry × Task}

/-- The call once the imports of its module were followed. -/
def begun (c : Call) : Registry × Task :=
  Task.start c.sources c.scope c.dir c.module c.registry

/-- One of the reads in flight has ended and is consumed. -/
inductive Completes (c : Call) : Registry × Task → Load → Registry × Task → Prop
  | of {r : Registry} {t : Task} {l : Load} {queue : List Load}
      (any : (l :: queue).Perm t.inFlight) :
      Completes c (r, t) l (Task.consume c.sources (r, { t with queue, parked := [] }) l)

/-- The states of a call once so many reads have ended. -/
inductive Runs (c : Call) : ℕ → Registry × Task → Prop
  | begin : Runs c 0 c.begun
  | next {n : ℕ} {s s' : Registry × Task} {l : Load} (h : Runs c n s) (hl : c.Completes s l s') :
      Runs c (n + 1) s'

/-- Any read in flight can be the next to end. -/
theorem completes_of_mem (c : Call) {l : Load} (hl : l ∈ s.2.inFlight) :
    ∃ s', c.Completes s l s' := by
  obtain ⟨before, after, he⟩ := List.append_of_mem hl
  have hany : (l :: (before ++ after)).Perm s.2.inFlight := by
    rw [he]
    exact List.perm_middle.symm
  exact ⟨_, .of hany⟩

/-! ### How many reads there are -/

/-- A run has a log of as many reads. -/
theorem Runs.reaches (h : c.Runs n s) : ∃ log, c.Reaches log s ∧ (ended log).length = n := by
  induction h with
  | begin => exact ⟨_, .start, by rw [ended_map_followed]; rfl⟩
  | @next n s s' l h hl ih =>
      obtain ⟨log, hs, hlen⟩ := ih
      cases hl with
      | @of r t _ queue any =>
          have hsame : ((l :: queue ++ []).map Load.free).Perm (t.inFlight.map Load.free) := by
            rw [List.append_nil]
            exact any.map _
          refine ⟨_, (hs.shift hsame).take c.sources.gates rfl, ?_⟩
          rw [ended_append, ended_taken, List.length_append, hlen]
          rfl

/-- What a call has read when so many of its reads have ended. -/
structure Metered (c : Call) (n : ℕ) (s : Registry × Task) : Prop where
  /-- Every read issued has ended or is in flight. -/
  issued : s.2.issued.length = n + s.2.inFlight.length
  /-- Every read issued is for an import of the module or of a file that was loaded. -/
  asked : s.2.issued.length ≤ c.module.importLiterals.length +
    Task.total ((s.2.report s.1).loaded.map c.sources.library.imports)
  /-- No file is loaded twice. -/
  once : (s.2.report s.1).loaded.Nodup
  /-- The files that can be loaded have only so many imports. -/
  loaded : Task.total ((s.2.report s.1).loaded.map c.sources.library.imports) ≤
    c.sources.library.allImports

/-- The reads of a run are counted at each of its states. -/
theorem Runs.metered (plain : c.sources.library.Plain) (h : c.Runs n s) : c.Metered n s := by
  obtain ⟨log, hs, rfl⟩ := h.reaches
  have hmet : importsMet log = Task.total (s.2.loaded.map c.sources.library.imports) := by
    rw [importsMet, total_importCount fun l hl => hs.ended_of hl, ← hs.logged.loaded]
  refine ⟨?_, ?_, hs.alone.loaded.1, ?_⟩
  · rw [hs.issued_length, Task.inFlight, List.length_append]
  · exact hmet ▸ hs.issued_le
  · exact hmet ▸ hs.importsMet_le plain

/-- There is a last read. -/
theorem Runs.le (plain : c.sources.library.Plain) (h : c.Runs n s) :
    n ≤ c.module.importLiterals.length + c.sources.library.allImports := by
  have hm := h.metered plain
  have hissued := hm.issued
  have hasked := hm.asked
  have hloaded := hm.loaded
  omega

/-! ### The end, in every order -/

/-- An order in which reads end: while some are in flight, one of them is the next. -/
structure Schedule (c : Call) (run : ℕ → Registry × Task) : Prop where
  begins : run 0 = c.begun
  goes : ∀ n, (run n).2.isDone = false → ∃ l, c.Completes (run n) l (run (n + 1))

variable {run : ℕ → Registry × Task}

/-- While reads are in flight a schedule is a run. -/
theorem Schedule.runs (h : c.Schedule run) (hbusy : ∀ k < n, (run k).2.isDone = false) :
    c.Runs n (run n) := by
  induction n with
  | zero => exact h.begins ▸ .begin
  | succ n ih =>
      obtain ⟨l, hl⟩ := h.goes n (hbusy n (Nat.lt_succ_self n))
      exact (ih fun k hk => hbusy k (Nat.lt_succ_of_lt hk)).next hl

/-- In every order of its reads a call gets done. -/
theorem Schedule.done (h : c.Schedule run) (plain : c.sources.library.Plain) :
    ∃ n, (run n).2.isDone = true ∧ c.Runs n (run n) := by
  have hdone : ∃ n, (run n).2.isDone = true := by
    by_contra hnever
    have hbusy : ∀ k, (run k).2.isDone = false := fun k =>
      Bool.eq_false_iff.2 fun hk => hnever ⟨k, hk⟩
    have hlong := (h.runs (n := c.module.importLiterals.length +
      c.sources.library.allImports + 1) fun k _ => hbusy k).le plain
    omega
  -- At the first such moment all states before it had a read in flight.
  refine ⟨Nat.find hdone, Nat.find_spec hdone, h.runs fun k hk => ?_⟩
  exact Bool.eq_false_iff.2 (Nat.find_min hdone hk)

/-! ### The order of the queue -/

/-- With all gates open the turns of a task prolong the run of its call. -/
theorem Runs.drainUpTo (hopen : c.sources.gates = []) (h : c.Runs n s) (hs : s.2.Ungated)
    (turns : ℕ) : (Task.drainUpTo c.sources turns s).2.Ungated ∧
      ∃ k, c.Runs k (Task.drainUpTo c.sources turns s) := by
  induction turns generalizing n s with
  | zero => exact ⟨hs, n, h⟩
  | succ turns ih =>
      obtain ⟨r, t⟩ := s
      unfold Task.drainUpTo Task.turn?
      cases hq : t.queue with
      | nil => exact ⟨hs, n, h⟩
      | cons l queue =>
          have hfree : l.waiting = false := hs.queue l (hq ▸ List.mem_cons_self)
          have hrest : ({ t with queue } : Task).Ungated :=
            ⟨hs.parked, fun l' hl' => hs.queue l' (hq ▸ List.mem_cons_of_mem l hl')⟩
          have hany : (l :: queue).Perm t.inFlight := by
            rw [Task.inFlight, hq, hs.parked, List.append_nil]
          have hnext := h.next (.of hany)
          simp only [hfree, Bool.false_eq_true, if_false]
          rw [← hs.parked] at hnext
          exact ih hnext (hrest.consume hopen r l)

/-- With all gates open the loop of a task is a run of its call, and gets it done. -/
theorem Runs.drain (plain : c.sources.library.Plain) (hopen : c.sources.gates = []) :
    (Task.drain c.sources c.begun).2.isDone = true ∧
      ∃ n, c.Runs n (Task.drain c.sources c.begun) := by
  have hstart : c.begun.2.Ungated :=
    Task.Ungated.followAll hopen c.dir c.module (s := (c.registry, { scope := c.scope }))
      ⟨rfl, nofun⟩
  obtain ⟨hfree, hruns⟩ := Runs.drainUpTo hopen .begin hstart
    (Task.turnBound c.sources.library c.begun.2)
  have hqueue : (Task.drain c.sources c.begun).2.queue = [] :=
    (Reaches.start (c := c)).drain_queue plain c.sources.gates
  have hparked : (Task.drain c.sources c.begun).2.parked = [] := hfree.parked
  refine ⟨?_, hruns⟩
  rw [Task.isDone, Task.inFlight, hqueue, hparked]
  rfl

/-- **Every resolution stops.**  Whatever the files, the registry, the search paths and the
module, and in whatever order its reads end, a call is left with none in flight after finitely
many of them.  Until then any read in flight can be the next, and at all times no more reads
were issued than the module and the files in the report have imports.  The loop of a task is
one of these orders. -/
theorem resolution_stops (c : Call) (plain : c.sources.library.Plain) :
    (∀ run, c.Schedule run → ∃ n, (run n).2.isDone = true ∧ c.Runs n (run n)) ∧
    (∀ n s, c.Runs n s → c.Metered n s ∧ ∀ l ∈ s.2.inFlight, ∃ s', c.Completes s l s') ∧
    (c.sources.gates = [] → (Task.drain c.sources c.begun).2.isDone = true ∧
      ∃ n, c.Runs n (Task.drain c.sources c.begun)) :=
  ⟨fun _ h => h.done plain, fun _ _ h => ⟨h.metered plain, fun _ hl => c.completes_of_mem hl⟩,
    Runs.drain plain⟩

/-- A file imports itself and another one, which imports the first by a longer path, a file that
does not parse and one that cannot be read; the module imports the one that does not parse as
well. -/
theorem resolution_stops_of_cycle :
    let library := (((({} : Library).put "a.wren" (some "import \"a\"\nimport \"b\"")).put
      "b.wren" (some "import \"x/../a\"\nimport \"bad\"\nimport \"shut\"")).put
      "bad.wren" (some "class")).put "shut.wren" none
    let m := (Module.parse "import \"bad\"\nimport \"a\"").toOption.getD ⟨[]⟩
    let c : Call := ⟨⟨library, [], []⟩, .workspace, "", m, {}⟩
    let s := Task.drain c.sources c.begun
    (s.2.issued = ["bad.wren", "a.wren", "b.wren", "bad.wren", "shut.wren"] ∧
        s.2.loaded = ["a.wren", "b.wren"]) ∧
      s.2.isDone = true ∧ ∃ n, c.Runs n s ∧ c.Metered n s := by
  intro library m c s
  have run : s.2.issued = ["bad.wren", "a.wren", "b.wren", "bad.wren", "shut.wren"] ∧
      s.2.loaded = ["a.wren", "b.wren"] := by
    decide +kernel
  have plain : library.Plain := (((Library.plain_default.put ..).put ..).put ..).put ..
  obtain ⟨-, hmetered, hdrain⟩ := resolution_stops c plain
  obtain ⟨hdone, n, hn⟩ := hdrain rfl
  exact ⟨run, hdone, n, hn, (hmetered n s hn).1⟩

end Call
end WrenAnalysis
