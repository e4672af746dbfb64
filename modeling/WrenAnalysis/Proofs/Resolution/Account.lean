/-
# No import is lost

An import that was skipped because a candidate was pending rests on a read of the same
call, which ends before the call does.  So every import that a call has met is accounted
for at all times (`Call.Reaches.accounts`).  A call that is done has an answer for each of
them, be it of the module or of a file that was loaded (`Call.report_complete`): a candidate
is ready, or the report says why none is.
-/

import WrenAnalysis.Proofs.Resolution.Bound

namespace WrenAnalysis
namespace Call

variable {c : Call} {log : List Entry} {s : Registry × Task} {dir literal : String}

/-- **Every import that a call has met is accounted for.** -/
theorem Reaches.accounts (h : c.Reaches log s) (imported : c.Imported log dir literal) :
    Task.Accounts c.sources s dir literal := by
  induction h generalizing dir literal with
  | start =>
      rcases imported with ⟨rfl, hl⟩ | ⟨l, hl, -⟩
      · exact Task.followAll_accounts c.sources c.dir c.module _ literal hl
      · rw [ended_map_followed] at hl
        exact absurd hl List.not_mem_nil
  | shift h same ih => exact ih imported
  | @take log r t l queue h gates head ih =>
      have hended : ∀ l' ∈ ended (log ++ .ended l :: (Task.inquiriesOf { c.sources with gates }
          (r, { t with queue }) l).map .followed), l' ∈ ended log ∨ l' = l := by
        intro l' hl'
        rw [ended_append, ended_taken, List.mem_append] at hl'
        exact hl'.imp_right List.mem_singleton.1
      have hold : c.Imported log dir literal → Task.Accounts c.sources
          (Task.consume { c.sources with gates } (r, { t with queue }) l) dir literal :=
        fun hi => (ih hi).course (Task.consume_course _ head)
      rcases imported with hm | ⟨l', hl', m, hp, rfl, hlit⟩
      · exact hold (.inl hm)
      · rcases hended l' hl' with hl' | rfl
        · exact hold (.inr ⟨l', hl', m, hp, rfl, hlit⟩)
        · rw [Task.consume_of_pending hp (h.alone.head_pending head)]
          exact Task.followAll_accounts { c.sources with gates } _ m _ literal hlit

/-- An import of the module, or of a file that the report lists. -/
def Owes (c : Call) (report : Report) (dir literal : String) : Prop :=
  dir = c.dir ∧ literal ∈ c.module.importLiterals ∨
    ∃ i ∈ report.loaded, ∃ m, c.sources.library.module? i = some m ∧
      dir = (Path.parent? i).getD "." ∧ literal ∈ m.importLiterals

/-- A report owes the imports that the call has met. -/
theorem Reaches.owes_iff (h : c.Reaches log s) :
    c.Owes (s.2.report s.1) dir literal ↔ c.Imported log dir literal := by
  refine or_congr_right ⟨?_, ?_⟩
  · rintro ⟨i, hi, m, hm, rfl, hlit⟩
    obtain ⟨l, hl, m', hp, rfl⟩ := h.logged.mem_loaded_iff.1 hi
    have hof := h.ended_of hl
    have he := hof.module?_of_ok hp
    rw [hof.identity_eq] at hm ⊢
    obtain rfl := Option.some.inj (he.symm.trans hm)
    exact ⟨l, hl, m', hp, rfl, hlit⟩
  · rintro ⟨l, hl, m, hp, rfl, hlit⟩
    have hof := h.ended_of hl
    refine ⟨l.identity, h.logged.mem_loaded_iff.2 ⟨l, hl, m, hp, rfl⟩, m, ?_, ?_, hlit⟩
    · rw [hof.identity_eq]
      exact hof.module?_of_ok hp
    · rw [hof.identity_eq]
      rfl

/-- A call that is done leaves nothing pending where nothing was. -/
theorem pending_of_done (h : c.Alone s) (done : s.2.isDone = true)
    (settled : c.registry.pending = []) : s.1.pending = [] := by
  have hf : s.2.inFlight = [] := List.isEmpty_iff.1 done
  refine List.eq_nil_iff_forall_not_mem.2 fun i hi => ?_
  have hor := (h.pending i).1 hi
  rw [settled, hf] at hor
  exact hor.elim List.not_mem_nil List.not_mem_nil

/-- What a call that is done leaves behind. -/
structure Complete (c : Call) (log : List Entry) (s : Registry × Task) : Prop where
  settled : s.1.pending = [] ∧ (s.2.report s.1).settled = true
  /-- The report lists what became ready, each once. -/
  loaded : (s.2.report s.1).loaded.Nodup ∧
    ∀ i, i ∈ (s.2.report s.1).loaded ↔ s.1.state i = .ready ∧ c.registry.state i ≠ .ready
  /-- An import of the module or of a loaded file needs no file, or a candidate is ready, or
  no candidate exists and the report says so, or the report tells of a candidate that failed. -/
  imports : ∀ dir literal, c.Owes (s.2.report s.1) dir literal →
    ImportPath.isBuiltin literal = true ∨
      (∃ path ∈ c.sources.candidates dir literal,
        s.1.state (ImportPath.identity path) = .ready) ∨
      (Warning.importNotFound (ImportPath.file literal) dir ∈ (s.2.report s.1).warnings ∧
        ∀ path ∈ c.sources.candidates dir literal, c.sources.library.contains path = false) ∨
      ∃ path ∈ c.sources.candidates dir literal, ∃ w ∈ (s.2.report s.1).warnings,
        w.failed? = some (ImportPath.identity path)
  /-- The reads issued are those that the imports asked for, in order. -/
  issued : s.2.issued = (followed log).filterMap (Inquiry.read? c.sources)
  /-- An import asks for its first candidate that exists, all of them being absent. -/
  asked : ∀ q ∈ followed log, c.Owes (s.2.report s.1) q.dir q.literal ∧
    ∀ path, q.read? c.sources = some path →
      (∀ other ∈ c.sources.candidates q.dir q.literal,
        q.registry.state (ImportPath.identity other) = .absent) ∧
      (c.sources.candidates q.dir q.literal).find? c.sources.library.contains = some path
  /-- Every read issued has ended, and each is listed as loaded or left one warning. -/
  ended : ((ended log).map Load.path).Perm s.2.issued ∧
    (s.2.report s.1).loaded = ((ended log).map Load.outcome).filterMap Sum.getLeft? ∧
    (s.2.report s.1).warnings.filter (fun w => w.failed?.isSome) =
      ((ended log).map Load.outcome).filterMap Sum.getRight?

/-- **No import is lost.**  Whatever the files, the search paths, the module and the order in
which reads end, a call on a registry without pending loads comes to an end.  It then leaves
nothing pending, reports what became ready, and has an answer for every import that it met. -/
theorem report_complete (c : Call) (plain : c.sources.library.Plain)
    (settled : c.registry.pending = []) :
    c.Ends ∧ ∀ log s, c.Reaches log s → s.2.isDone = true → c.Complete log s := by
  refine ⟨ends plain, fun log s h done => ?_⟩
  have halone := h.alone
  have hlogged := h.logged
  have hpend := pending_of_done halone done settled
  have hf : s.2.inFlight = [] := List.isEmpty_iff.1 done
  have hready : ∀ i, s.1.state i = .ready ↔ i ∈ s.1.identities := fun i => by
    rw [Registry.state_eq_ready_iff, hpend]
    exact and_iff_right List.not_mem_nil
  have hready₀ : ∀ i, c.registry.state i = .ready ↔ i ∈ c.registry.identities := fun i => by
    rw [Registry.state_eq_ready_iff, settled]
    exact and_iff_right List.not_mem_nil
  constructor
  case settled => exact ⟨hpend, Registry.isSettled_iff.2 hpend⟩
  case loaded =>
    refine ⟨halone.loaded.1, fun i => ?_⟩
    rw [hready, Ne, hready₀, halone.ready]
    exact ⟨fun hi => ⟨.inr hi, halone.loaded.2 i hi⟩, fun hi => hi.1.resolve_left hi.2⟩
  case imports =>
    intro dir literal howes
    cases h.accounts (h.owes_iff.1 howes) with
    | builtin hb => exact .inl hb
    | missing hw => exact .inr (.inr (.inl ⟨hw, hlogged.missing _ _ hw⟩))
    | answered mem ha =>
        rcases ha with hknown | hfail
        · rw [Registry.state_ne_absent_iff, hpend, or_iff_right List.not_mem_nil] at hknown
          exact .inr (.inl ⟨_, mem, (hready _).2 hknown⟩)
        · exact .inr (.inr (.inr ⟨_, mem, hfail⟩))
  case issued => exact hlogged.issued
  case asked =>
    exact fun q hq => ⟨h.owes_iff.2 (hlogged.asked q hq), fun path hp =>
      (Inquiry.read?_eq_some_iff.1 hp).2⟩
  case ended =>
    have hpaths := hlogged.paths
    rw [reads, hf, List.append_nil] at hpaths
    rw [List.filterMap_map, List.filterMap_map]
    exact ⟨hpaths, hlogged.loaded, hlogged.failures⟩

/-- A module imports a file from a search path, which imports one that does not parse and one
that is nowhere. -/
theorem report_complete_of_failures :
    let library := (({} : Library).put "/lib/b.wren"
      (some "import \"bad\"\nimport \"gone\"")).put "/lib/bad.wren" (some "class")
    let m := (Module.parse "import \"b\"").toOption.getD ⟨[]⟩
    let c : Call := ⟨⟨library, [], ["/lib"]⟩, .workspace, "/p", m, {}⟩
    let s := Task.drain { c.sources with gates := [] }
      (Task.start c.sources c.scope c.dir c.module c.registry)
    (c.registry.pending = [] ∧ s.2.isDone = true ∧
        s.2.issued = ["/lib/b.wren", "/lib/bad.wren"]) ∧
      c.Ends ∧ ∃ log, c.Reaches log s ∧ c.Complete log s := by
  intro library m c s
  have run : s.2.isDone = true ∧ s.2.issued = ["/lib/b.wren", "/lib/bad.wren"] := by
    decide +kernel
  obtain ⟨es, h⟩ := (Reaches.start (c := c)).drain []
  have plain : library.Plain := (Library.plain_default.put ..).put ..
  obtain ⟨hends, hcomplete⟩ := report_complete c plain rfl
  exact ⟨⟨rfl, run⟩, hends, _, h, hcomplete _ _ h run.1⟩

end Call
end WrenAnalysis
