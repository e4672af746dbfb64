/-
# Which files are read more than once

A failed read leaves its identity absent.  An import of the same file that is followed
later finds nothing ready or pending and reads the file again, so one call may read a file
that does not parse as often as it meets imports of it, with a warning for each time
(`Call.diamond_rereads`).

That is the only way.  While a file is read it is pending, and once it is loaded it is
ready, so a file with a module is read at most once; and a call reads every file at most
once just when it follows no import of a file whose read has failed before
(`Call.reread_iff_retried`).
-/

import WrenAnalysis.Proofs.Resolution.Bound

namespace WrenAnalysis
namespace Call

variable {c : Call} {log es : List Entry} {s s' : Registry × Task} {t : Task}

/-- An import was followed that asked for a file whose read had failed. -/
def Retried (c : Call) (log : List Entry) : Prop :=
  ∃ before q after l w, log = before ++ .followed q :: after ∧ l ∈ ended before ∧
    l.parse = .error w ∧ q.read? c.sources = some l.path

/-- An import that is followed now asks for a file whose read has failed. -/
def Retries (c : Call) (log : List Entry) (e : Entry) : Prop :=
  ∃ q l w, e = .followed q ∧ l ∈ ended log ∧ l.parse = .error w ∧
    q.read? c.sources = some l.path

/-- Nothing is retried at the start. -/
theorem not_retried_nil : ¬ c.Retried [] := by
  rintro ⟨before, q, after, l, w, he, -⟩
  exact List.append_ne_nil_of_right_ne_nil _ (List.cons_ne_nil _ _) he.symm

/-- A file is retried by the last entry or before it. -/
theorem retried_concat {e : Entry} :
    c.Retried (log ++ [e]) ↔ c.Retried log ∨ c.Retries log e := by
  constructor
  · rintro ⟨before, q, after, l, w, he, hl, hbad, hread⟩
    rcases List.eq_nil_or_concat after with rfl | ⟨after, last, rfl⟩
    · obtain ⟨rfl, hq⟩ := List.append_inj' he rfl
      exact .inr ⟨q, l, w, (List.cons.inj hq).1, hl, hbad, hread⟩
    · rw [List.concat_eq_append, ← List.cons_append, ← List.append_assoc] at he
      exact .inl ⟨before, q, after, l, w, (List.append_inj' he rfl).1, hl, hbad, hread⟩
  · rintro (⟨before, q, after, l, w, rfl, hl, hbad, hread⟩ | ⟨q, l, w, rfl, hl, hbad, hread⟩)
    · exact ⟨before, q, after ++ [e], l, w, List.append_assoc .., hl, hbad, hread⟩
    · exact ⟨log, q, [], l, w, rfl, hl, hbad, hread⟩

/-- A file that is absent and was read before has failed. -/
theorem mem_issued_iff_of_absent {path : String} (ha : c.Alone s) (hlog : c.Logged log s)
    (hof : ∀ l ∈ reads log s.2, l.Of c.sources.library) (absent : s.1.state path = .absent) :
    path ∈ s.2.issued ↔ ∃ l w, l ∈ ended log ∧ l.parse = .error w ∧ l.path = path := by
  obtain ⟨hpending, hready⟩ := Registry.state_eq_absent_iff.1 absent
  rw [← hlog.paths.mem_iff]
  constructor
  · intro hmem
    obtain ⟨l, hl, rfl⟩ := List.mem_map.1 hmem
    have hid := (hof l hl).identity_eq
    rcases List.mem_append.1 hl with hended | hflight
    · cases hp : l.parse with
      | error w => exact ⟨l, w, hended, hp, rfl⟩
      | ok m =>
          have hloaded := hlog.mem_loaded_iff.2 ⟨l, hended, m, hp, hid⟩
          exact absurd ((ha.ready _).2 (.inr hloaded)) hready
    · have hmem : l.path ∈ s.2.inFlight.map Load.identity :=
        hid ▸ List.mem_map_of_mem hflight
      exact absurd ((ha.pending _).2 (.inr hmem)) hpending
  · rintro ⟨l, w, hl, -, rfl⟩
    exact List.mem_map_of_mem (List.mem_append_left _ hl)

/-- No file was read twice, unless one was retried. -/
def OnceUnlessRetried (c : Call) (log : List Entry) (s : Registry × Task) : Prop :=
  s.2.issued.Nodup ↔ ¬ c.Retried log

/-- A step reads a file twice only by retrying one. -/
theorem OnceUnlessRetried.step (hs : c.Step log s es s') (ha : c.Alone s)
    (hlog : c.Logged log s) (hof : ∀ l ∈ reads log s.2, l.Of c.sources.library)
    (h : c.OnceUnlessRetried log s) : c.OnceUnlessRetried (log ++ es) s' := by
  unfold OnceUnlessRetried at h ⊢
  have hunread : ∀ q : Inquiry, q.read? c.sources = none → ¬ c.Retries log (.followed q) := by
    rintro q hq ⟨q', l, w, he, -, -, hread⟩
    obtain rfl := Entry.followed.inj he
    exact absurd (hq.symm.trans hread) (Option.some_ne_none _).symm
  have hended : ∀ l, ¬ c.Retries log (.ended l) := by
    rintro l ⟨q, l', w, he, -⟩
    exact Entry.noConfusion he
  cases hs with
  | skip imported unread => rwa [retried_concat, or_iff_left (hunread _ unread)]
  | miss imported unread nowhere => rwa [retried_concat, or_iff_left (hunread _ unread)]
  | @read r t dir literal path imported waiting first =>
      have hpath := Inquiry.identity_of_read? first
      have habsent := Inquiry.absent_of_read? first
      rw [hpath] at habsent
      have hretries : c.Retries log (.followed ⟨r, dir, literal⟩) ↔ path ∈ t.issued := by
        rw [mem_issued_iff_of_absent ha hlog hof habsent]
        constructor
        · rintro ⟨q, l, w, he, hl, hbad, hread⟩
          obtain rfl := Entry.followed.inj he
          exact ⟨l, w, hl, hbad, Option.some.inj (hread.symm.trans first)⟩
        · rintro ⟨l, w, hl, hbad, rfl⟩
          exact ⟨_, l, w, rfl, hl, hbad, first⟩
      rw [retried_concat, hretries, not_or, ← h]
      exact (List.concat_eq_append ▸ List.nodup_concat t.issued path).trans and_comm
  | shift same => rwa [List.append_nil]
  | fail head bad => rwa [retried_concat, or_iff_left (hended _)]
  | register head good => rwa [retried_concat, or_iff_left (hended _)]

/-- In all states of a call a file was read twice only if one was retried. -/
theorem Reaches.onceUnlessRetried (h : c.Reaches log s) : c.OnceUnlessRetried log s := by
  refine (h.preserves (P := fun log s => c.Logged log s ∧
    (∀ l ∈ reads log s.2, l.Of c.sources.library) ∧ c.OnceUnlessRetried log s)
    (fun hs ha hP => ⟨Logged.step hs hP.1, of_step hs hP.2.1, hP.2.2.step hs ha hP.1 hP.2.1⟩)
    ⟨Logged.init c, fun _ hl => absurd hl List.not_mem_nil, ?_⟩).2.2.2
  exact iff_of_true List.nodup_nil not_retried_nil

/-! ### Reads and warnings -/

/-- The identities whose reads have failed, one for each warning about a file. -/
def failures (t : Task) : List String := t.warnings.filterMap Warning.failed?

/-- An identity has failed for a task that has a warning about it. -/
theorem mem_failures {i : String} : i ∈ failures t ↔ t.failed i := List.mem_filterMap

/-- Each read of a file is listed as loaded or has left a warning. -/
theorem count_paths {library : Library} {ls : List Load} (h : ∀ l ∈ ls, l.Of library)
    (i : String) :
    (ls.map Load.path).count i = (ls.filterMap fun l => l.outcome.getLeft?).count i +
      ((ls.filterMap fun l => l.outcome.getRight?).filterMap Warning.failed?).count i := by
  induction ls with
  | nil => rfl
  | cons l ls ih =>
      obtain ⟨hof, hofs⟩ := List.forall_mem_cons.1 h
      rw [List.map_cons, List.count_cons, ih hofs, ← hof.identity_eq]
      cases hp : l.parse with
      | error w =>
          simp only [List.filterMap_cons, Load.outcome_of_error hp, Sum.getLeft?, Sum.getRight?,
            Load.failed?_of_error hp, List.count_cons]
          exact Nat.add_assoc ..
      | ok m =>
          simp only [List.filterMap_cons, Load.outcome_of_ok hp, Sum.getLeft?, Sum.getRight?,
            List.count_cons]
          exact Nat.add_right_comm ..

/-- Once a call is done, its reads are those listed and those warned about. -/
theorem Reaches.count_issued (h : c.Reaches log s) (done : s.2.isDone = true) (i : String) :
    s.2.issued.count i = s.2.loaded.count i + (failures s.2).count i := by
  have hf : s.2.inFlight = [] := List.isEmpty_iff.1 done
  have hpaths := h.logged.paths
  rw [reads, hf, List.append_nil] at hpaths
  have hfail : failures s.2 =
      (s.2.warnings.filter fun w => w.failed?.isSome).filterMap Warning.failed? := by
    rw [List.filterMap_filter]
    refine List.filterMap_congr fun w _ => ?_
    cases w.failed? <;> rfl
  rw [← hpaths.count_eq, count_paths (fun l hl => h.ended_of hl), hfail, h.logged.failures,
    h.logged.loaded]

/-- What a finished call tells of how often it has read each file. -/
structure Counted (c : Call) (log : List Entry) (s : Registry × Task) : Prop where
  /-- A file is read under its identity. -/
  identity : ∀ path ∈ s.2.issued, ImportPath.identity path = path
  /-- A file that can be read and parses is read at most once and has no warning. -/
  good : ∀ i, (c.sources.library.module? i).isSome = true →
    s.2.issued.count i ≤ 1 ∧ i ∉ failures s.2
  /-- Any other file has a warning for each time it is read. -/
  bad : ∀ i, c.sources.library.module? i = none → (failures s.2).count i = s.2.issued.count i
  /-- A file is read twice just if a file whose read had failed was asked for again. -/
  reads : s.2.issued.Nodup ↔ ¬ c.Retried log
  /-- The same goes for its warnings. -/
  warnings : (failures s.2).Nodup ↔ ¬ c.Retried log

/-- **A file is read again only after it has failed.**  Whatever the files, the search paths,
the registry, the module and the order in which reads end, a call that is done has read no
file twice and has warned of none twice just if it followed no import of a file whose read
had failed before. -/
theorem reread_iff_retried (c : Call) {log : List Entry} {s : Registry × Task}
    (h : c.Reaches log s) (done : s.2.isDone = true) : c.Counted log s := by
  have hcount := h.count_issued done
  have hloaded : ∀ i, c.sources.library.module? i = none → s.2.loaded.count i = 0 := by
    refine fun i hnone => List.count_eq_zero.2 fun hi => ?_
    obtain ⟨l, hl, m, hp, rfl⟩ := h.logged.mem_loaded_iff.1 hi
    have hsome := (h.ended_of hl).module?_of_ok hp
    rw [← (h.ended_of hl).identity_eq, hnone] at hsome
    cases hsome
  have hfail : ∀ i, (c.sources.library.module? i).isSome = true → i ∉ failures s.2 := by
    intro i hsome hi
    rw [h.module?_of_failed (mem_failures.1 hi)] at hsome
    cases hsome
  have hgood : ∀ i, (c.sources.library.module? i).isSome = true → s.2.issued.count i ≤ 1 := by
    intro i hsome
    rw [hcount, List.count_eq_zero.2 (hfail i hsome)]
    exact List.nodup_iff_count_le_one.1 h.alone.loaded.1 i
  have hbad : ∀ i, c.sources.library.module? i = none →
      (failures s.2).count i = s.2.issued.count i := by
    intro i hnone
    rw [hcount, hloaded i hnone, Nat.zero_add]
  have hwarned : (failures s.2).Nodup ↔ s.2.issued.Nodup := by
    rw [List.nodup_iff_count_le_one, List.nodup_iff_count_le_one]
    refine forall_congr' fun i => ?_
    cases hm : c.sources.library.module? i with
    | none => rw [hbad i hm]
    | some m =>
        have hsome : (c.sources.library.module? i).isSome = true := by
          rw [hm]
          rfl
        rw [List.count_eq_zero.2 (hfail i hsome)]
        exact iff_of_true (Nat.zero_le 1) (hgood i hsome)
  constructor
  case identity =>
    intro path hp
    obtain ⟨l, hl, rfl⟩ := List.mem_map.1 (h.logged.paths.mem_iff.2 hp)
    exact (h.faithful l hl).normal
  case good => exact fun i hsome => ⟨hgood i hsome, hfail i hsome⟩
  case bad => exact hbad
  case reads => exact h.onceUnlessRetried
  case warnings => exact hwarned.trans h.onceUnlessRetried

/-- A file that does not parse is imported by the module, and by a file that is loaded when
it has failed. -/
theorem reread_of_later_import :
    let library := (({} : Library).put "/p/b.wren" (some "import \"bad\"")).put
      "/p/bad.wren" (some "class")
    let m := (Module.parse "import \"bad\"\nimport \"b\"").toOption.getD ⟨[]⟩
    let c : Call := ⟨⟨library, [], []⟩, .workspace, "/p", m, {}⟩
    let s := Task.drain { c.sources with gates := [] }
      (Task.start c.sources c.scope c.dir c.module c.registry)
    (s.2.isDone = true ∧ s.2.issued = ["/p/bad.wren", "/p/b.wren", "/p/bad.wren"]) ∧
      ∃ log, c.Reaches log s ∧ c.Counted log s ∧ c.Retried log := by
  intro library m c s
  have run : s.2.isDone = true ∧
      s.2.issued = ["/p/bad.wren", "/p/b.wren", "/p/bad.wren"] := by
    decide +kernel
  obtain ⟨es, h⟩ := (Reaches.start (c := c)).drain []
  have hcounted := reread_iff_retried c h run.1
  refine ⟨run, _, h, hcounted, not_not.1 fun hnot => ?_⟩
  have hnodup := hcounted.reads.2 hnot
  rw [run.2] at hnodup
  exact absurd hnodup (by decide)

/-- **The diamond.**  Two files import a third, which does not parse; the second of them is
read once the third has failed.  The third is then read twice in one call and the report has
two warnings about it. -/
theorem diamond_rereads :
    let library := ((({} : Library).put "/p/b.wren" (some "import \"d\"")).put
      "/p/c.wren" (some "import \"d\"")).put "/p/d.wren" (some "class")
    let m := (Module.parse "import \"b\"\nimport \"c\"").toOption.getD ⟨[]⟩
    let c : Call := ⟨⟨library, ["/p/c.wren"], []⟩, .workspace, "/p", m, {}⟩
    let held := Task.drain c.sources (Task.start c.sources c.scope c.dir c.module c.registry)
    let s := Task.drain { c.sources with gates := [] } (held.1, held.2.release "/p/c.wren")
    (∃ log, c.Reaches log s) ∧ s.2.isDone = true ∧
      s.2.issued = ["/p/b.wren", "/p/c.wren", "/p/d.wren", "/p/d.wren"] ∧
      (s.2.report s.1).warnings.filterMap Warning.failed? = ["/p/d.wren", "/p/d.wren"] := by
  intro library m c held s
  obtain ⟨es, hheld⟩ := (Reaches.start (c := c)).drain ["/p/c.wren"]
  obtain ⟨fs, h⟩ := (hheld.release "/p/c.wren").drain []
  refine ⟨⟨_, h⟩, ?_⟩
  decide +kernel

end Call
end WrenAnalysis
