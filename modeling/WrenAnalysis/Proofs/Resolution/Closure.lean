/-
# A resolution loads the import closure

Without search paths an import has one candidate.  The files that a call is to load are
then the least set (`Call.Closure`) with the candidates of the module's imports and of the
imports of its own members, as far as they can be read, parse and are not ready at the
start.  A call loads this set and nothing else, in whatever order its reads end
(`Call.ready_eq_closure`).

That nothing else is loaded is shown along the run: each read in flight that has a module
is in the closure.  That nothing is left out is shown at the end: the candidate of a
member's import is accounted for, and since its file can be read and parses it has not
failed, so it is ready.
-/

import WrenAnalysis.Proofs.Resolution.Account

namespace WrenAnalysis
namespace Call

variable {c : Call} {log es : List Entry} {s s' : Registry × Task} {dir literal i : String}

/-- The only candidate of an import has the identity `i`, can be read, parses, and was not
ready at the start. -/
structure Brings (c : Call) (dir literal i : String) : Prop where
  file : ImportPath.isBuiltin literal = false
  candidate : ∃ path, c.sources.candidates dir literal = [path] ∧ ImportPath.identity path = i ∧
    (c.sources.library.module? path).isSome = true
  unready : c.registry.state i ≠ .ready

/-- The import closure of the module: the least set with what its imports bring, and with
what the imports of its members bring, each taken from the directory of the member. -/
inductive Closure (c : Call) : String → Prop
  | ofModule {literal i : String} (mem : literal ∈ c.module.importLiterals)
      (brings : c.Brings c.dir literal i) : Closure c i
  | ofMember {j literal i : String} {m : Module} (member : Closure c j)
      (file : c.sources.library.module? j = some m) (mem : literal ∈ m.importLiterals)
      (brings : c.Brings ((Path.parent? j).getD ".") literal i) : Closure c i

/-- Without search paths an import has one candidate. -/
theorem candidates_eq (noPaths : c.sources.searchPaths = []) :
    c.sources.candidates dir literal =
      [Path.normalize (Path.join dir (ImportPath.file literal))] := by
  rw [Sources.candidates, noPaths]
  rfl

/-- What is read for an import and has a module is brought by it. -/
theorem brings_of_read? (noPaths : c.sources.searchPaths = []) {r : Registry} {path : String}
    (h : (Inquiry.mk r dir literal).read? c.sources = some path)
    (hm : (c.sources.library.module? path).isSome = true)
    (hready : ∀ i ∈ c.registry.identities, i ∈ r.identities) :
    c.Brings dir literal (ImportPath.identity path) := by
  have hmem := Inquiry.mem_candidates_of_read? h
  refine ⟨(Inquiry.read?_eq_some_iff.1 h).1, ⟨path, ?_, rfl, hm⟩, fun hr => ?_⟩
  · rw [candidates_eq noPaths] at hmem ⊢
    rw [List.mem_singleton.1 hmem]
  · have habsent := Registry.state_eq_absent_iff.1 (Inquiry.absent_of_read? h)
    exact habsent.2 (hready _ (Registry.state_eq_ready_iff.1 hr).2)

/-- The reads of a call that have a module are in the closure. -/
def Enclosed (c : Call) (log : List Entry) (s : Registry × Task) : Prop :=
  ∀ l ∈ reads log s.2, ∀ m, l.parse = .ok m → l.Of c.sources.library ∧ c.Closure l.identity

/-- What is imported in a call brings only files of the closure. -/
theorem Imported.closure (h : c.Imported log dir literal) (henc : c.Enclosed log s)
    (brings : c.Brings dir literal i) : c.Closure i := by
  rcases h with ⟨rfl, hlit⟩ | ⟨l, hl, m, hp, rfl, hlit⟩
  · exact .ofModule hlit brings
  · obtain ⟨hof, hmember⟩ := henc l (List.mem_append_left _ hl) m hp
    rw [hof.identity_eq] at hmember
    exact .ofMember hmember (hof.module?_of_ok hp) hlit brings

/-- A step reads nothing with a module outside of the closure. -/
theorem Enclosed.step (noPaths : c.sources.searchPaths = []) (hs : c.Step log s es s')
    (ha : c.Alone s) (h : c.Enclosed log s) : c.Enclosed (log ++ es) s' := by
  intro l hl m hp
  rcases reads_of_step hs hl with
    ⟨l', hl', he⟩ | ⟨dir, literal, path, waiting, imported, first, rfl⟩
  · -- What a read yields does not depend on its gate.
    have hp' : l'.parse = .ok m := (congrArg Load.parse he : l'.free.parse = l.free.parse) ▸ hp
    obtain ⟨hof, hcl⟩ := h l' hl' m hp'
    obtain ⟨hi, -⟩ := Load.mk.inj he
    exact ⟨hof.of_free he, hi ▸ hcl⟩
  · have hof := Load.of_read? first waiting
    have hm : (c.sources.library.module? path).isSome = true := by
      rw [hof.module?_of_ok hp]
      rfl
    have brings := brings_of_read? noPaths first hm fun i hi => (ha.ready i).2 (.inl hi)
    refine ⟨hof, ?_⟩
    dsimp only
    exact imported.closure h brings

/-- In all states of a call nothing with a module was read outside of the closure. -/
theorem Reaches.enclosed (noPaths : c.sources.searchPaths = []) (h : c.Reaches log s) :
    c.Enclosed log s :=
  (h.preserves (fun hs ha henc => Enclosed.step noPaths hs ha henc)
    fun _ hl => absurd hl List.not_mem_nil).2

/-- Once nothing is pending, what an import brings is ready. -/
theorem ready_of_brings (h : c.Reaches log s) (hpend : s.1.pending = [])
    (imported : c.Imported log dir literal) (brings : c.Brings dir literal i) :
    i ∈ s.1.identities := by
  obtain ⟨hfile, ⟨path, honly, rfl, hsome⟩, -⟩ := brings
  have hmem : path ∈ c.sources.candidates dir literal := by
    rw [honly]
    exact List.mem_cons_self
  cases h.accounts imported with
  | builtin hb => exact absurd (hfile.symm.trans hb) Bool.false_ne_true
  | missing hw =>
      have hnone := Library.module?_of_not_contains (h.logged.missing _ _ hw path hmem)
      exact absurd hsome (by rw [hnone]; exact Bool.false_ne_true)
  | @answered other mem ha =>
      have hother : other ∈ c.sources.candidates dir literal := mem
      rw [honly] at hother
      rw [List.mem_singleton.1 hother] at ha
      rcases ha with hknown | hfail
      · rw [Registry.state_ne_absent_iff, hpend] at hknown
        exact hknown.resolve_left List.not_mem_nil
      · have hnone := h.module?_of_failed hfail
        rw [ImportPath.identity_candidate hmem] at hnone
        exact absurd hsome (by rw [hnone]; exact Bool.false_ne_true)

/-- Once a call is done, the closure is ready and listed. -/
theorem mem_loaded_iff_closure (noPaths : c.sources.searchPaths = []) (h : c.Reaches log s)
    (settled : c.registry.pending = []) (hpend : s.1.pending = []) :
    i ∈ s.2.loaded ↔ c.Closure i := by
  have hloaded : ∀ j, c.registry.state j ≠ .ready → j ∈ s.1.identities → j ∈ s.2.loaded := by
    intro j hj hi
    refine ((h.alone.ready j).1 hi).resolve_left fun hold => hj ?_
    rw [Registry.state_eq_ready_iff, settled]
    exact ⟨List.not_mem_nil, hold⟩
  constructor
  · intro hi
    obtain ⟨l, hl, m, hp, rfl⟩ := h.logged.mem_loaded_iff.1 hi
    exact (h.enclosed noPaths l (List.mem_append_left _ hl) m hp).2
  · intro hi
    induction hi with
    | ofModule mem brings =>
        exact hloaded _ brings.unready (ready_of_brings h hpend (.inl ⟨rfl, mem⟩) brings)
    | ofMember member file mem brings ih =>
        have howes := h.owes_iff.1 (.inr ⟨_, ih, _, file, rfl, mem⟩)
        exact hloaded _ brings.unready (ready_of_brings h hpend howes brings)

/-- **A resolution loads the import closure.**  Without search paths, on files that do not
change and a registry without pending loads, a call comes to an end in every order of its
reads.  What is ready then is what was ready before and the import closure of the module;
the report lists the closure without repetition, and modules that were ready before are as
they were. -/
theorem ready_eq_closure (c : Call) (plain : c.sources.library.Plain)
    (noPaths : c.sources.searchPaths = []) (settled : c.registry.pending = []) :
    c.Ends ∧ ∀ log s, c.Reaches log s → s.2.isDone = true →
      (∀ i, s.1.state i = .ready ↔ c.registry.state i = .ready ∨ c.Closure i) ∧
        ((s.2.report s.1).loaded.Nodup ∧ ∀ i, i ∈ (s.2.report s.1).loaded ↔ c.Closure i) ∧
        ∀ i, c.registry.state i = .ready → s.1.get? i = c.registry.get? i := by
  refine ⟨ends plain, fun log s h done => ?_⟩
  have hpend := pending_of_done h.alone done settled
  have hloaded : ∀ i, i ∈ s.2.loaded ↔ c.Closure i := fun i =>
    mem_loaded_iff_closure noPaths h settled hpend
  refine ⟨fun i => ?_, ⟨h.alone.loaded.1, hloaded⟩, fun i hi => ?_⟩
  · rw [Registry.state_eq_ready_iff, Registry.state_eq_ready_iff, hpend, settled,
      and_iff_right List.not_mem_nil, and_iff_right List.not_mem_nil, h.alone.ready, hloaded]
  · exact h.alone.kept i (Registry.state_eq_ready_iff.1 hi).2

/-- Two files import each other, and one of them imports a file that does not parse. -/
theorem ready_eq_closure_of_cycle :
    let library := ((({} : Library).put "/p/b.wren" (some "import \"lib/c\"\nimport \"bad\"")).put
      "/p/lib/c.wren" (some "import \"../b\"")).put "/p/bad.wren" (some "class")
    let m := (Module.parse "import \"b\"").toOption.getD ⟨[]⟩
    let c : Call := ⟨⟨library, [], []⟩, .workspace, "/p", m, {}⟩
    let s := Task.drain { c.sources with gates := [] }
      (Task.start c.sources c.scope c.dir c.module c.registry)
    (s.2.isDone = true ∧ s.2.loaded = ["/p/b.wren", "/p/lib/c.wren"]) ∧
      c.Ends ∧ ∀ i, s.1.state i = .ready ↔ c.registry.state i = .ready ∨ c.Closure i := by
  intro library m c s
  have run : s.2.isDone = true ∧ s.2.loaded = ["/p/b.wren", "/p/lib/c.wren"] := by
    decide +kernel
  obtain ⟨es, h⟩ := (Reaches.start (c := c)).drain []
  have plain : library.Plain := ((Library.plain_default.put ..).put ..).put ..
  obtain ⟨hends, hclosure⟩ := ready_eq_closure c plain rfl rfl
  exact ⟨run, hends, (hclosure _ _ h run.1).1⟩

end Call
end WrenAnalysis
