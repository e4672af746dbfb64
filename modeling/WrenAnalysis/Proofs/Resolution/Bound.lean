/-
# A call comes to an end

Where each normal path has a file of its own, a file is loaded at most once, and every read
but the first ones stands for an import of a loaded file.  So the imports in the library
bound the reads of a call (`Call.Reaches.issued_le`), in whatever order they end.  A failed
file may be read more than once, but each time for another import.

`Task.drain` and `Task.release` keep to the states of a call, so the queue of a task is one
order among others, and the turns that `Task.drain` allows itself are enough
(`Call.Reaches.drain_queue`).
-/

import WrenAnalysis.Proofs.Resolution.Log

namespace WrenAnalysis

namespace Task

/-- There is nothing in an empty total. -/
@[simp] theorem total_nil : total [] = 0 := rfl

/-- The first count comes on top of the others. -/
@[simp] theorem total_cons (n : Nat) (counts : List Nat) :
    total (n :: counts) = n + total counts := rfl

/-- Two lists of counts are totalled one by one. -/
@[simp] theorem total_append (counts more : List Nat) :
    total (counts ++ more) = total counts + total more := by
  induction counts with
  | nil => exact (Nat.zero_add _).symm
  | cons n counts ih => rw [List.cons_append, total_cons, total_cons, ih, Nat.add_assoc]

/-- The order of the counts does not matter. -/
theorem total_of_perm {counts counts' : List Nat} (h : counts.Perm counts') :
    total counts = total counts' := by
  induction h with
  | nil => rfl
  | cons n _ ih => rw [total_cons, total_cons, ih]
  | swap n m counts => exact Nat.add_left_comm ..
  | trans _ _ ih ih' => exact ih.trans ih'

end Task

/-- A library that keeps its files under their normal paths. -/
structure Library.Plain (l : Library) : Prop where
  key_eq : l.key = Path.normalize
  spellings_pos : 0 < l.spellings

/-- The empty library is plain. -/
theorem Library.plain_default : ({} : Library).Plain := ⟨rfl, Nat.one_pos⟩

/-- A plain library stays plain with one more file. -/
theorem Library.Plain.put {l : Library} (h : l.Plain) (path : String) (text : Option String) :
    (l.put path text).Plain :=
  ⟨h.key_eq, h.spellings_pos⟩

/-- How many imports the file at a path has. -/
def Library.imports (l : Library) (path : String) : Nat :=
  Task.fileImports ((l.find? path).getD none)

/-- How many imports the files have together. -/
def Library.allImports (l : Library) : Nat :=
  Task.total (l.entries.map fun e => Task.fileImports e.2)

namespace Load

variable {l : Load} {library : Library}

/-- A read has the imports of its file. -/
theorem Of.importCount_eq (h : l.Of library) : l.importCount = library.imports l.path := by
  rw [importCount, parse, h.content_eq, Library.read, Library.imports]
  cases library.find? l.path with
  | none => rfl
  | some text =>
      cases text with
      | none => rfl
      | some text =>
          simp only [Option.getD_some, Task.fileImports]
          cases Module.parse text <;> rfl

/-- A module has its imports. -/
theorem importCount_of_ok {m : Module} (good : l.parse = .ok m) :
    l.importCount = m.importLiterals.length := by
  rw [importCount, good]
  exact List.length_map _ |>.symm

end Load

/-- Distinct keys have at most the imports of all entries. -/
theorem total_lookup_le (es : List (String × Option String)) {keys : List String}
    (hnodup : keys.Nodup) :
    Task.total (keys.map fun key => Task.fileImports ((es.lookup key).getD none)) ≤
      Task.total (es.map fun e => Task.fileImports e.2) := by
  induction es generalizing keys with
  | nil =>
      clear hnodup
      induction keys with
      | nil => exact Nat.le_refl 0
      | cons key keys ih => exact Nat.le_trans (Nat.le_of_eq (Nat.zero_add _)) ih
  | cons e es ih =>
      obtain ⟨first, text⟩ := e
      -- The keys other than the first are looked up in the rest.
      have hrest : ∀ others : List String, others.Nodup → first ∉ others →
          Task.total (others.map fun key =>
              Task.fileImports ((((first, text) :: es).lookup key).getD none)) ≤
            Task.total (es.map fun e => Task.fileImports e.2) := by
        intro others hothers hnot
        refine Nat.le_trans (Nat.le_of_eq (congrArg _ (List.map_congr_left fun key hk => ?_)))
          (ih hothers)
        have hne : key ≠ first := fun he => hnot (he ▸ hk)
        rw [lookup_cons_ite, if_neg hne]
      by_cases hmem : first ∈ keys
      · have hperm := (List.perm_cons_erase hmem).map fun key =>
          Task.fileImports ((((first, text) :: es).lookup key).getD none)
        have hgone : first ∉ keys.erase first := fun h => (hnodup.mem_erase_iff.1 h).1 rfl
        rw [Task.total_of_perm hperm, List.map_cons, Task.total_cons, List.lookup_cons_self]
        exact Nat.add_le_add_left (hrest _ (hnodup.erase _) hgone) _
      · exact Nat.le_trans (hrest keys hnodup hmem) (Nat.le_add_left ..)

/-- Distinct files have at most the imports of all files. -/
theorem Library.total_imports_le {l : Library} (plain : l.Plain) {paths : List String}
    (hnormal : ∀ path ∈ paths, Path.normalize path = path) (hnodup : paths.Nodup) :
    Task.total (paths.map l.imports) ≤ l.allImports := by
  have hkey : paths.map l.imports =
      paths.map fun path => Task.fileImports ((l.entries.lookup path).getD none) := by
    refine List.map_congr_left fun path hp => ?_
    rw [imports, find?, plain.key_eq, hnormal path hp]
  rw [hkey]
  exact total_lookup_le l.entries hnodup

namespace Task

/-- At most one read is issued for one import. -/
theorem follow_issued_le (src : Sources) (dir literal : String) (s : Registry × Task) :
    (follow src dir s literal).2.issued.length ≤ s.2.issued.length + 1 ∧
      (follow src dir s literal).2.parked = s.2.parked := by
  have hf := follow_followed src dir literal s
  generalize follow src dir s literal = s' at hf ⊢
  cases hf with
  | skipped unread reason => exact ⟨Nat.le_succ _, rfl⟩
  | missing unread nowhere => exact ⟨Nat.le_succ _, rfl⟩
  | read first => exact ⟨Nat.le_of_eq (List.length_append ..), rfl⟩

/-- At most one read is issued for an import. -/
theorem followAll_issued_le (src : Sources) (dir : String) (m : Module) (s : Registry × Task) :
    (followAll src dir m s).2.issued.length ≤ s.2.issued.length + m.importLiterals.length ∧
      (followAll src dir m s).2.parked = s.2.parked := by
  unfold followAll
  induction m.importLiterals generalizing s with
  | nil => exact ⟨Nat.le_refl _, rfl⟩
  | cons literal literals ih =>
      obtain ⟨hle, hparked⟩ := follow_issued_le src dir literal s
      obtain ⟨hle', hparked'⟩ := ih (follow src dir s literal)
      rw [List.foldl_cons, List.length_cons]
      exact ⟨by omega, hparked'.trans hparked⟩

/-- A read that ends gives rise to one read for each of its imports at most. -/
theorem consume_issued_le (src : Sources) (s : Registry × Task) (l : Load) :
    (consume src s l).2.issued.length ≤ s.2.issued.length + l.importCount ∧
      (consume src s l).2.parked = s.2.parked := by
  obtain ⟨r, t⟩ := s
  cases hp : l.parse with
  | error w =>
      rw [consume_of_error hp]
      exact ⟨Nat.le_add_right .., rfl⟩
  | ok m =>
      by_cases hm : l.identity ∈ r.pending
      · rw [consume_of_pending hp hm, Load.importCount_of_ok hp]
        exact followAll_issued_le ..
      · rw [consume_of_late hp hm]
        exact ⟨Nat.le_add_right .., rfl⟩

end Task

namespace Call

variable {c : Call} {log es fs : List Entry} {s s' s'' : Registry × Task}

/-! ### The reads that a call can issue -/

/-- The imports of the files that were loaded. -/
def importsMet (log : List Entry) : Nat := Task.total ((ended log).map Load.importCount)

/-- The imports of two logs are counted one by one. -/
@[simp] theorem importsMet_append (log es : List Entry) :
    importsMet (log ++ es) = importsMet log + importsMet es := by
  simp [importsMet]

/-- A read that ends is counted with its imports. -/
@[simp] theorem importsMet_taken (l : Load) (qs : List Inquiry) :
    importsMet (.ended l :: qs.map .followed) = l.importCount := by
  simp [importsMet]

/-- Only reads that yield a module have imports, and those of its file. -/
theorem total_importCount {library : Library} {ls : List Load} (h : ∀ l ∈ ls, l.Of library) :
    Task.total (ls.map Load.importCount) =
      Task.total ((ls.filterMap fun l => l.outcome.getLeft?).map library.imports) := by
  induction ls with
  | nil => rfl
  | cons l ls ih =>
      obtain ⟨hof, hofs⟩ := List.forall_mem_cons.1 h
      rw [List.map_cons, Task.total_cons, ih hofs]
      cases hp : l.parse with
      | error w =>
          rw [List.filterMap_cons, Load.outcome_of_error hp, Load.importCount, hp]
          exact Nat.zero_add _
      | ok m =>
          rw [List.filterMap_cons, Load.outcome_of_ok hp, hof.importCount_eq, hof.identity_eq]
          rfl

/-- No file is loaded twice, so the imports of all files are enough. -/
theorem Reaches.importsMet_le (plain : c.sources.library.Plain) (h : c.Reaches log s) :
    importsMet log ≤ c.sources.library.allImports := by
  rw [importsMet, total_importCount fun l hl => h.ended_of hl, ← h.logged.loaded]
  refine Library.total_imports_le plain (fun i hi => ?_) h.alone.loaded.1
  obtain ⟨l, hl, m, -, rfl⟩ := h.logged.mem_loaded_iff.1 hi
  rw [(h.ended_of hl).identity_eq]
  exact (h.ended_of hl).normal

/-- Every read issued is for an import of the module or of a loaded file. -/
theorem Reaches.issued_le (h : c.Reaches log s) :
    s.2.issued.length ≤ c.module.importLiterals.length + importsMet log := by
  induction h with
  | start =>
      have hle := (Task.followAll_issued_le c.sources c.dir c.module
        (c.registry, { scope := c.scope })).1
      rw [importsMet, ended_map_followed]
      exact Nat.le_trans hle (Nat.le_of_eq (Nat.zero_add _))
  | shift h same ih => exact ih
  | @take log r t l queue h gates head ih =>
      have hle := (Task.consume_issued_le { c.sources with gates } (r, { t with queue }) l).1
      rw [importsMet_append, importsMet_taken, ← Nat.add_assoc]
      exact Nat.le_trans hle (Nat.add_le_add_right ih _)

/-! ### The order in which a task takes up its reads -/

/-- What a number of turns can do: each ends a read or puts one aside, and what is issued is
for the imports of the reads that ended. -/
structure Turned (turns : Nat) (s : Registry × Task) (es : List Entry) (s' : Registry × Task) :
    Prop where
  taken : (ended es).length + s'.2.parked.length = s.2.parked.length + turns
  issued : s'.2.issued.length ≤ s.2.issued.length + importsMet es

/-- Turns after turns. -/
theorem Turned.trans {n m : Nat} (h : Turned n s es s') (h' : Turned m s' fs s'') :
    Turned (n + m) s (es ++ fs) s'' where
  taken := by
    have htaken := h.taken
    have htaken' := h'.taken
    rw [ended_append, List.length_append]
    omega
  issued := by
    rw [importsMet_append, ← Nat.add_assoc]
    exact Nat.le_trans h'.issued (Nat.add_le_add_right h.issued _)

/-- A turn of a task ends a read or puts one aside, in a state of the call. -/
theorem Reaches.turn (h : c.Reaches log s) (gates : List String)
    (ht : Task.turn? { c.sources with gates } s = some s') :
    ∃ es, c.Reaches (log ++ es) s' ∧ Turned 1 s es s' := by
  obtain ⟨r, t⟩ := s
  unfold Task.turn? at ht
  cases hq : t.queue with
  | nil => simp [hq] at ht
  | cons l queue =>
      simp only [hq] at ht
      split_ifs at ht
      · obtain rfl := Option.some.inj ht
        refine ⟨[], ?_, ⟨by simp, Nat.le_refl _⟩⟩
        rw [List.append_nil]
        refine h.shift (List.Perm.map _ ?_)
        rw [Task.inFlight, hq, ← List.append_assoc]
        exact List.perm_append_singleton ..
      · obtain rfl := Option.some.inj ht
        obtain ⟨hissued, hparked⟩ :=
          Task.consume_issued_le { c.sources with gates } (r, { t with queue }) l
        refine ⟨_, h.take gates hq, ⟨?_, ?_⟩⟩
        · rw [hparked, ended_taken]
          exact Nat.add_comm ..
        · rw [importsMet_taken]
          exact hissued

/-- The turns of a task stop where no read is left to take up, or are all taken. -/
theorem Reaches.drainUpTo (h : c.Reaches log s) (gates : List String) (turns : Nat) :
    ∃ es n, c.Reaches (log ++ es) (Task.drainUpTo { c.sources with gates } turns s) ∧
      Turned n s es (Task.drainUpTo { c.sources with gates } turns s) ∧
      ((Task.drainUpTo { c.sources with gates } turns s).2.queue = [] ∨ n = turns) := by
  induction turns generalizing log s with
  | zero => exact ⟨[], 0, (List.append_nil log).symm ▸ h, ⟨Nat.zero_add _, Nat.le_refl _⟩, .inr rfl⟩
  | succ turns ih =>
      unfold Task.drainUpTo
      cases ht : Task.turn? { c.sources with gates } s with
      | none =>
          refine ⟨[], 0, (List.append_nil log).symm ▸ h, ⟨Nat.zero_add _, Nat.le_refl _⟩, .inl ?_⟩
          unfold Task.turn? at ht
          cases hq : s.2.queue with
          | nil => rfl
          | cons l queue =>
              simp only [hq] at ht
              split_ifs at ht
      | some s' =>
          obtain ⟨es, hs, hone⟩ := h.turn gates ht
          obtain ⟨fs, n, hd, hn, hend⟩ := ih hs
          refine ⟨es ++ fs, 1 + n, List.append_assoc log es fs ▸ hd, hone.trans hn, ?_⟩
          exact hend.imp_right fun he => by rw [he, Nat.add_comm]

/-- The queue of a task is one order of its reads. -/
theorem Reaches.drain (h : c.Reaches log s) (gates : List String) :
    ∃ es, c.Reaches (log ++ es) (Task.drain { c.sources with gates } s) := by
  obtain ⟨es, -, hd, -⟩ := h.drainUpTo gates (Task.turnBound c.sources.library s.2)
  exact ⟨es, hd⟩

/-- As many reads are issued as have ended or are in flight. -/
theorem Reaches.issued_length (h : c.Reaches log s) :
    s.2.issued.length = (ended log).length + (s.2.queue.length + s.2.parked.length) := by
  rw [← h.logged.paths.length_eq, List.length_map, reads, List.length_append, Task.inFlight,
    List.length_append]

/-- A turn is allowed for each read in the queue. -/
theorem queue_length_le (ls : List Load) :
    ls.length ≤ Task.total (ls.map fun l => 1 + l.importCount) := by
  induction ls with
  | nil => exact Nat.le_refl _
  | cons l ls ih =>
      rw [List.map_cons, Task.total_cons, List.length_cons]
      omega

/-- **The turns of `Task.drain` are enough**: it stops for want of reads to take up. -/
theorem Reaches.drain_queue (plain : c.sources.library.Plain) (h : c.Reaches log s)
    (gates : List String) : (Task.drain { c.sources with gates } s).2.queue = [] := by
  obtain ⟨es, n, hd, hn, hend⟩ := h.drainUpTo gates (Task.turnBound c.sources.library s.2)
  rcases hend with hq | he
  · exact hq
  -- Were a read left after all turns, there would be more reads than imports to ask for them.
  have hbefore := h.issued_length
  have hafter := hd.issued_length
  have hmet := hd.importsMet_le plain
  have htaken := hn.taken
  have hissued := hn.issued
  have hqueue := queue_length_le s.2.queue
  have hspell := Nat.le_mul_of_pos_left c.sources.library.allImports plain.spellings_pos
  have hbound : n = Task.total (s.2.queue.map fun l => 1 + l.importCount) +
    c.sources.library.spellings * c.sources.library.allImports := he
  rw [importsMet_append] at hmet
  rw [ended_append, List.length_append] at hafter
  refine List.eq_nil_of_length_eq_zero ?_
  change (Task.drainUpTo { c.sources with gates }
    (Task.turnBound c.sources.library s.2) s).2.queue.length = 0
  omega

/-- Reads that are let go are the same reads in another order. -/
theorem Reaches.release (h : c.Reaches log s) (path : String) :
    c.Reaches log (s.1, s.2.release path) := by
  obtain ⟨r, t⟩ := s
  refine h.shift ?_
  have hfree : ∀ ls : List Load, (ls.map fun l =>
      if Task.waitsAt path l then { l with waiting := false } else l).map Load.free =
        ls.map Load.free := by
    intro ls
    rw [List.map_map]
    refine List.map_congr_left fun l _ => ?_
    simp only [Function.comp_apply]
    split_ifs <;> rfl
  simp only [Task.inFlight, List.map_append, hfree]
  rw [List.append_assoc, ← List.map_append]
  exact ((List.filter_append_perm _ _).map _).append_left _

/-! ### The end of a call -/

/-- Any read in flight can be the next to end. -/
theorem Reaches.next (h : c.Reaches log s) {l : Load} (hl : l ∈ s.2.inFlight) :
    ∃ es s', c.Reaches (log ++ .ended l :: es) s' := by
  obtain ⟨r, t⟩ := s
  obtain ⟨before, after, he⟩ := List.append_of_mem hl
  have hsame : ((l :: (before ++ after) ++ []).map Load.free).Perm (t.inFlight.map Load.free) := by
    rw [List.append_nil, show t.inFlight = before ++ l :: after from he]
    exact List.perm_middle.symm.map _
  exact ⟨_, _, (h.shift hsame).take [] rfl⟩

/-- A call comes to an end in every order of its reads. -/
structure Ends (c : Call) : Prop where
  /-- While reads are in flight the call goes on, by any of them. -/
  next : ∀ log s, c.Reaches log s → ∀ l ∈ s.2.inFlight, ∃ es s',
    c.Reaches (log ++ .ended l :: es) s'
  /-- It does not go on for ever: there are no more reads than imports. -/
  bounded : ∀ log s, c.Reaches log s → (ended log).length + s.2.inFlight.length ≤
    c.module.importLiterals.length + c.sources.library.allImports
  /-- Nor does a task stop too early: all reads it can take up are taken up. -/
  drained : ∀ log s, c.Reaches log s → ∀ gates,
    (Task.drain { c.sources with gates } s).2.queue = []

/-- **A call on a plain library comes to an end.** -/
theorem ends (plain : c.sources.library.Plain) : c.Ends where
  next _ _ h _ hl := h.next hl
  bounded log s h := by
    have hlen := h.issued_length
    have hle := h.issued_le
    have hmet := h.importsMet_le plain
    rw [Task.inFlight, List.length_append]
    omega
  drained _ _ h gates := h.drain_queue plain gates

end Call
end WrenAnalysis
