/-
# What the log of a call tells

The log of a call and its task tell the same (`Call.Logged`): the reads issued are those
that the imports asked for, each of them ends once, and a read that has ended is either
listed as loaded or has left a warning.  A read holds the file of its identity as the
library has it (`Call.Reaches.faithful`), so what comes of it is known beforehand.
-/

import WrenAnalysis.Proofs.Path.NormalForm
import WrenAnalysis.Proofs.Resolution.Call

namespace WrenAnalysis

/-- The module in a file, if it can be read and parses. -/
def Library.module? (l : Library) (path : String) : Option Module :=
  match l.read path with
  | .ok text => (Module.parse text).toOption
  | .error _ => none

/-- Where there is no file, there is no module. -/
theorem Library.module?_of_not_contains {l : Library} {path : String}
    (h : l.contains path = false) : l.module? path = none := by
  have hnone : l.find? path = none := by simpa [contains] using h
  simp [module?, read, hnone]

/-- What is read for an import is known by its path. -/
theorem Inquiry.identity_of_read? {src : Sources} {q : Inquiry} {path : String}
    (h : q.read? src = some path) : ImportPath.identity path = path :=
  ImportPath.identity_candidate (mem_candidates_of_read? h)

namespace Load

/-- A read of a file as the library has it. -/
structure Of (l : Load) (library : Library) : Prop where
  identity_eq : l.identity = l.path
  normal : Path.normalize l.path = l.path
  content_eq : l.content = library.read l.path

variable {l : Load} {library : Library} {m : Module} {w : Warning}

/-- A read that yields a module yields that of the file. -/
theorem Of.module?_of_ok (h : l.Of library) (good : l.parse = .ok m) :
    library.module? l.path = some m := by
  rw [parse, h.content_eq] at good
  unfold Library.module?
  cases hr : library.read l.path with
  | error e => simp [hr] at good
  | ok text =>
      simp only [hr] at good ⊢
      split at good
      · cases good
      · rename_i m' hm
        obtain rfl := Except.ok.inj good
        rw [hm]
        rfl

/-- A read that fails is one of a file without a module. -/
theorem Of.module?_of_error (h : l.Of library) (bad : l.parse = .error w) :
    library.module? l.path = none := by
  rw [parse, h.content_eq] at bad
  unfold Library.module?
  cases hr : library.read l.path with
  | error e => rfl
  | ok text =>
      simp only [hr] at bad ⊢
      split at bad
      · rename_i e he
        rw [he]
        rfl
      · cases bad

/-- Whether a read waits at a gate does not matter. -/
theorem Of.of_free {l' : Load} (h : l'.Of library) (hf : l'.free = l.free) : l.Of library := by
  obtain ⟨hi, hp, hc, -⟩ := Load.mk.inj hf
  exact ⟨by rw [← hi, ← hp, h.identity_eq], hp ▸ h.normal, by rw [← hc, ← hp, h.content_eq]⟩

/-- What an import asks for is read as the library has it. -/
theorem of_read? {src : Sources} {q : Inquiry} {path : String} (h : q.read? src = some path)
    (waiting : Bool) :
    Of ⟨ImportPath.identity path, path, src.library.read path, waiting⟩ src.library := by
  have hnormal := Inquiry.identity_of_read? h
  refine ⟨?_, hnormal, rfl⟩
  dsimp only
  exact hnormal

/-- A read that yields a module makes its identity ready. -/
theorem outcome_of_ok (good : l.parse = .ok m) : l.outcome = .inl l.identity := by
  rw [outcome, good]

/-- A read that fails comes to its warning. -/
theorem outcome_of_error (bad : l.parse = .error w) : l.outcome = .inr w := by
  rw [outcome, bad]

end Load

namespace Call

variable {c : Call} {log es : List Entry} {s s' : Registry × Task} {r : Registry} {t : Task}
  {dir literal : String}

/-! ### The log and the report -/

/-- What holds between the log of a call and its task. -/
structure Logged (c : Call) (log : List Entry) (s : Registry × Task) : Prop where
  /-- Every read issued was asked for by an import. -/
  issued : s.2.issued = (followed log).filterMap (Inquiry.read? c.sources)
  /-- Every read issued has ended or is in flight. -/
  paths : ((reads log s.2).map Load.path).Perm s.2.issued
  loaded : s.2.loaded = (ended log).filterMap fun l => l.outcome.getLeft?
  failures : s.2.warnings.filter (fun w => w.failed?.isSome) =
    (ended log).filterMap fun l => l.outcome.getRight?
  asked : ∀ q ∈ followed log, c.Imported log q.dir q.literal
  /-- Where an import is said to have no file, there was none. -/
  missing : ∀ file dir, Warning.importNotFound file dir ∈ s.2.warnings →
    ∀ path ∈ ImportPath.candidates dir file c.sources.searchPaths,
      c.sources.library.contains path = false

namespace Logged

variable {l : Load} {queue : List Load} {q : Inquiry}

/-- At the start the log and the task are empty. -/
theorem init (c : Call) : c.Logged [] (c.registry, { scope := c.scope }) where
  issued := rfl
  paths := .refl _
  loaded := rfl
  failures := rfl
  asked _ h := absurd h List.not_mem_nil
  missing _ _ h := absurd h List.not_mem_nil

/-- What is followed later must be imported too. -/
theorem asked_append (h : c.Logged log s) (es : List Entry)
    (hes : ∀ q ∈ followed es, c.Imported log q.dir q.literal) :
    ∀ q ∈ followed (log ++ es), c.Imported (log ++ es) q.dir q.literal := by
  intro q hq
  rw [followed_append] at hq
  rcases List.mem_append.1 hq with hq | hq
  · exact (h.asked q hq).mono es
  · exact (hes q hq).mono es

/-- An import that is followed and not read. -/
theorem unread (h : c.Logged log s) (imported : c.Imported log q.dir q.literal)
    (hq : q.read? c.sources = none) : c.Logged (log ++ [.followed q]) s where
  issued := by simp [h.issued, hq]
  paths := by simpa [reads] using h.paths
  loaded := by simp [h.loaded]
  failures := by simp [h.failures]
  asked := h.asked_append _ (by simpa using imported)
  missing := h.missing

/-- A warning of a missing file needs no entry of a read. -/
theorem warn (h : c.Logged log (r, t))
    (nowhere : ∀ path ∈ c.sources.candidates dir literal,
      c.sources.library.contains path = false) :
    c.Logged log (r, t.warn (.importNotFound (ImportPath.file literal) dir)) where
  issued := h.issued
  paths := h.paths
  loaded := h.loaded
  failures := by
    rw [← h.failures, Task.warn, List.filter_append]
    exact List.append_nil _
  asked := h.asked
  missing file from' hmem := by
    rcases Task.mem_warnings_warn.1 hmem with hmem | he
    · exact h.missing file from' hmem
    · obtain ⟨hfile, hdir⟩ := Warning.importNotFound.inj he
      rw [hfile, hdir]
      exact nowhere

/-- An import whose file is read is logged with its read. -/
theorem read (h : c.Logged log (r, t)) (imported : c.Imported log q.dir q.literal)
    (hq : q.read? c.sources = some l.path) (r' : Registry) :
    c.Logged (log ++ [.followed q]) (r', t.issue l) where
  issued := by simp [Task.issue, ← h.issued, hq]
  paths := by
    have hperm : (reads log (t.issue l)).Perm (l :: reads log t) :=
      ((Task.inFlight_issue t l).append_left _).trans List.perm_middle
    simp only [reads, ended_append, ended_followed, List.append_nil]
    exact (hperm.map _).trans ((h.paths.cons _).trans (List.perm_append_singleton ..).symm)
  loaded := by
    rw [ended_append, ended_followed, List.append_nil]
    exact h.loaded
  failures := by
    rw [ended_append, ended_followed, List.append_nil]
    exact h.failures
  asked := h.asked_append _ (by simpa using imported)
  missing := h.missing

/-- The order of the reads in flight does not matter. -/
theorem shift (h : c.Logged log (r, t)) {queue parked : List Load}
    (same : ((queue ++ parked).map Load.free).Perm (t.inFlight.map Load.free)) :
    c.Logged log (r, { t with queue, parked }) where
  issued := h.issued
  paths := by
    refine List.Perm.trans ?_ h.paths
    rw [reads, reads, List.map_append, List.map_append]
    exact (perm_of_free (f := Load.path) (fun _ => rfl) same).append_left _
  loaded := h.loaded
  failures := h.failures
  asked := h.asked
  missing := h.missing

/-- A read that ends moves from the reads in flight to those that have ended. -/
theorem take (h : c.Logged log (r, t)) (head : t.queue = l :: queue) (t' : Task)
    (hf : t'.inFlight = ({ t with queue } : Task).inFlight) (hi : t'.issued = t.issued)
    (hl : t'.loaded = t.loaded ++ l.outcome.getLeft?.toList)
    (hw : t'.warnings = t.warnings ++ l.outcome.getRight?.toList)
    (hfail : ∀ w, l.outcome = .inr w → w.failed?.isSome = true) (r' : Registry) :
    c.Logged (log ++ [.ended l]) (r', t') := by
  refine ⟨?_, ?_, ?_, ?_, h.asked_append _ nofun, fun file from' hmem => ?_⟩
  · simpa [hi] using h.issued
  · have hpaths := h.paths
    rw [← reads_of_head log head] at hpaths
    rw [reads, hf, hi]
    exact hpaths
  · rw [hl, h.loaded, ended_append, ended_ended, List.filterMap_append]
    cases ho : l.outcome <;> simp [ho]
  · rw [hw, List.filter_append, h.failures, ended_append, ended_ended, List.filterMap_append]
    cases ho : l.outcome with
    | inl i => simp [ho]
    | inr w => simp [ho, hfail w ho]
  · rw [hw] at hmem
    rcases List.mem_append.1 hmem with hmem | hmem
    · exact h.missing file from' hmem
    · cases ho : l.outcome with
      | inl i => simp [ho] at hmem
      | inr w =>
          have hsome := hfail w ho
          rw [ho] at hmem
          obtain rfl := List.mem_singleton.1 hmem
          exact absurd hsome Bool.false_ne_true

/-- **The log and the report agree after every step.** -/
theorem step (hs : c.Step log s es s') (h : c.Logged log s) : c.Logged (log ++ es) s' := by
  cases hs with
  | skip imported unread => exact h.unread imported unread
  | miss imported unread nowhere => exact (h.warn nowhere).unread imported unread
  | @read r t dir literal path imported waiting first =>
      exact h.read
        (l := ⟨ImportPath.identity path, path, c.sources.library.read path, waiting⟩)
        imported first _
  | shift same =>
      rw [List.append_nil]
      exact h.shift same
  | @fail r t l queue head w bad =>
      have ho := Load.outcome_of_error bad
      refine h.take head (({ t with queue }.unclaim l.identity).warn w) rfl rfl ?_ ?_
        (fun w' hw => ?_) _
      · simp [ho, Task.warn, Task.unclaim]
      · simp [ho, Task.warn, Task.unclaim]
      · obtain rfl := Sum.inr.inj (ho.symm.trans hw)
        rw [Load.failed?_of_error bad]
        rfl
  | @register r t l queue head m good =>
      have ho := Load.outcome_of_ok good
      refine h.take head (({ t with queue }.unclaim l.identity).record l.identity) rfl rfl
        ?_ ?_ (fun w hw => ?_) _
      · simp [ho, Task.record, Task.unclaim]
      · simp [ho, Task.record, Task.unclaim]
      · exact absurd (ho.symm.trans hw) Sum.inl_ne_inr

/-- What is listed as loaded is what a read that ended has yielded. -/
theorem mem_loaded_iff (h : c.Logged log s) {i : String} :
    i ∈ s.2.loaded ↔ ∃ l ∈ ended log, ∃ m, l.parse = .ok m ∧ l.identity = i := by
  rw [h.loaded, List.mem_filterMap]
  refine exists_congr fun l => and_congr_right fun _ => ?_
  cases hp : l.parse with
  | error w => simp [Load.outcome_of_error hp]
  | ok m => simp [Load.outcome_of_ok hp]

end Logged

/-- In all states of a call the log and the task tell the same. -/
theorem Reaches.logged (h : c.Reaches log s) : c.Logged log s :=
  (h.preserves (fun hs _ hl => Logged.step hs hl) (Logged.init c)).2

/-- Every read that a step starts is one of a file as the library has it. -/
theorem of_step (hs : c.Step log s es s') (h : ∀ l ∈ reads log s.2, l.Of c.sources.library) :
    ∀ l ∈ reads (log ++ es) s'.2, l.Of c.sources.library := by
  intro l hl
  rcases reads_of_step hs hl with ⟨l', hl', he⟩ | ⟨dir, literal, path, waiting, -, first, rfl⟩
  · exact (h l' hl').of_free he
  · exact Load.of_read? first waiting

/-- A read has the file of its identity. -/
theorem Reaches.faithful (h : c.Reaches log s) :
    ∀ l ∈ reads log s.2, l.Of c.sources.library :=
  (h.preserves (P := fun log s => ∀ l ∈ reads log s.2, l.Of c.sources.library)
    (fun hs _ hof => of_step hs hof) fun _ hl => absurd hl List.not_mem_nil).2

/-- Every read that has ended was one of a file as the library has it. -/
theorem Reaches.ended_of (h : c.Reaches log s) {l : Load} (hl : l ∈ ended log) :
    l.Of c.sources.library :=
  h.faithful l (List.mem_append_left _ hl)

/-- A file that a warning is about has no module. -/
theorem Reaches.module?_of_failed (h : c.Reaches log s) {i : String} (hi : s.2.failed i) :
    c.sources.library.module? i = none := by
  obtain ⟨w, hw, hfail⟩ := hi
  have hmem : w ∈ s.2.warnings.filter fun w => w.failed?.isSome :=
    List.mem_filter.2 ⟨hw, by rw [hfail]; rfl⟩
  rw [h.logged.failures] at hmem
  obtain ⟨l, hl, ho⟩ := List.mem_filterMap.1 hmem
  cases hp : l.parse with
  | ok m => simp [Load.outcome_of_ok hp] at ho
  | error w' =>
      obtain rfl : w' = w := by simpa [Load.outcome_of_error hp] using ho
      have hid := Option.some.inj (hfail.symm.trans (Load.failed?_of_error hp))
      rw [hid, (h.ended_of hl).identity_eq]
      exact (h.ended_of hl).module?_of_error hp

end Call
end WrenAnalysis
