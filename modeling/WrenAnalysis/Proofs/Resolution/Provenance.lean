/-
# Where a module comes from

The module stored under an identity is the text registered last under it, or else
the one that the only read of it yielded (`Provenance`).  A history has both: the
text is the last one it tells of (`latestEdit`), and the reads that made an identity
ready can be counted in it (`loadsOf`).

A read is only registered while its identity is pending, and an identity that is
pending has no module yet.  So a text that is registered while a read of the same
identity is in flight is there to stay: the read finds its identity ready, and
nothing comes of it but a warning if the file is bad (`Consumption.Discarded`).
-/

import WrenAnalysis.Proofs.Resolution.Ownership

namespace WrenAnalysis

/-! ### Reading a history -/

/-- The text that an event registers under an identity. -/
def Event.edit? (identity : String) : Event → Option Module
  | .edited other m => if other = identity then some m else none
  | _ => none

/-- The text registered last under an identity. -/
def latestEdit (history : List Event) (identity : String) : Option Module :=
  history.reverse.findSome? (Event.edit? identity)

/-- The read that an event tells of, if it makes an identity ready. -/
def Event.load? (identity : String) : Event → Option Consumption
  | .consumed c => if c.makesReady identity then some c else none
  | _ => none

/-- The reads that made an identity ready, in order. -/
def loadsOf (history : List Event) (identity : String) : List Consumption :=
  history.filterMap (Event.load? identity)

section Reading

variable {history : List Event} {identity other : String} {m : Module} {c : Consumption}

/-- A later text is preferred to an earlier one. -/
theorem latestEdit_append (history es : List Event) (identity : String) :
    latestEdit (history ++ es) identity = (latestEdit es identity).or (latestEdit history identity) := by
  rw [latestEdit, List.reverse_append, List.findSome?_append]
  rfl

/-- A registered text is the last one under its own identity only. -/
@[simp] theorem latestEdit_edited :
    latestEdit [.edited other m] identity = if other = identity then some m else none := by
  simp [latestEdit, Event.edit?]

/-- A read is not a text that was registered. -/
@[simp] theorem latestEdit_consumed : latestEdit [.consumed c] identity = none := rfl

/-- Where a text was registered, there is a last one. -/
theorem latestEdit_ne_none (h : Event.edited identity m ∈ history) :
    latestEdit history identity ≠ none := by
  intro hn
  have hm := List.findSome?_eq_none_iff.1 hn _ (List.mem_reverse.2 h)
  simp [Event.edit?] at hm

/-- The reads of two histories come one after the other. -/
theorem loadsOf_append (history es : List Event) (identity : String) :
    loadsOf (history ++ es) identity = loadsOf history identity ++ loadsOf es identity :=
  List.filterMap_append

/-- A registered text is no read. -/
@[simp] theorem loadsOf_edited : loadsOf [.edited other m] identity = [] := rfl

/-- A read counts where it makes the identity ready. -/
theorem loadsOf_consumed :
    loadsOf [.consumed c] identity = if c.makesReady identity then [c] else [] := by
  simp only [loadsOf, Event.load?, List.filterMap_cons, List.filterMap_nil]
  split_ifs <;> rfl

end Reading

/-! ### What comes of a read -/

namespace Consumption

/-- Nothing comes of a read but a warning if it yields no module. -/
structure Discarded (c : Consumption) : Prop where
  registry : c.after.1 = c.registry
  loaded : c.after.2.loaded = c.task.loaded
  /-- None of its imports is followed. -/
  issued : c.after.2.issued = c.task.issued
  inFlight : c.after.2.inFlight = c.task.inFlight
  warnings : ∀ w ∈ c.after.2.warnings, w ∈ c.task.warnings ∨ c.load.parse = .error w

variable {c : Consumption} {m : Module} {identity : String}

/-- A read that fails takes back its mark and leaves a warning. -/
theorem after_of_error {w : Warning} (bad : c.load.parse = .error w) :
    c.after = (c.registry.release c.load.identity, (c.task.unclaim c.load.identity).warn w) :=
  Task.consume_of_error bad

/-- A read that comes too late only ends. -/
theorem after_of_late (good : c.load.parse = .ok m) (late : c.load.identity ∉ c.registry.pending) :
    c.after = (c.registry, c.task.unclaim c.load.identity) :=
  Task.consume_of_late good late

/-- A read whose identity is no longer pending comes to nothing. -/
theorem discarded_of_late (late : c.load.identity ∉ c.registry.pending) : c.Discarded := by
  cases hp : c.load.parse with
  | error w =>
      have hr : c.registry.release c.load.identity = c.registry := by
        rw [Registry.release, Registry.without_of_notMem late]
      have ha := after_of_error hp
      rw [hr] at ha
      refine ⟨by rw [ha], by rw [ha]; rfl, by rw [ha]; rfl, by rw [ha]; rfl, fun w' hw => ?_⟩
      rw [ha] at hw
      rcases List.mem_append.1 hw with hw | hw
      · exact .inl hw
      · exact .inr (List.mem_singleton.1 hw ▸ hp)
  | ok m =>
      have ha := after_of_late hp late
      refine ⟨by rw [ha], by rw [ha]; rfl, by rw [ha]; rfl, by rw [ha]; rfl, fun w hw => ?_⟩
      rw [ha] at hw
      exact .inl hw

/-- Following imports registers nothing. -/
theorem units_of_silent {s s' : Registry × Task} (h : Course Task.Move s [] s') :
    s'.1.units = s.1.units := by
  have hstart : ([] : List Event) = [] → s.1.units = s.1.units := fun _ => rfl
  refine h.preserves (P := fun history s' => history = [] → s'.1.units = s.1.units)
    (fun {before a b es} hm ha he => ?_) hstart rfl
  obtain ⟨hb, rfl⟩ := List.append_eq_nil_iff.1 he
  rw [← ha hb]
  cases hm with
  | warn w => rfl
  | issue l absent => rfl
  | park head => rfl

/-- A read that fails makes nothing ready. -/
theorem makesReady_of_error {w : Warning} (bad : c.load.parse = .error w) :
    c.makesReady identity = false := by
  rw [makesReady, after_of_error bad]
  exact Bool.not_and_self _

/-- A read that comes too late makes nothing ready. -/
theorem makesReady_of_late (good : c.load.parse = .ok m)
    (late : c.load.identity ∉ c.registry.pending) : c.makesReady identity = false := by
  rw [makesReady, after_of_late good late]
  exact Bool.not_and_self _

/-- A read that is registered makes its own identity ready and no other. -/
theorem makesReady_iff (good : c.load.parse = .ok m)
    (pending : c.load.identity ∈ c.registry.pending)
    (unready : c.load.identity ∉ c.registry.identities) :
    c.makesReady identity = true ↔ identity = c.load.identity := by
  have hunits : c.after.1.identities = (c.registry.insert c.load.identity m).identities := by
    rw [after, Task.consume_of_pending good pending, ← Registry.map_fst_units,
      units_of_silent (Task.followAll_course ..), Registry.map_fst_units]
  rw [makesReady, Bool.and_eq_true, Bool.not_eq_true', ← Bool.not_eq_true, Registry.contains_iff,
    Registry.contains_iff, hunits, Registry.mem_identities_insert]
  constructor
  · rintro ⟨hn, he | hr⟩
    · exact he
    · exact absurd hr hn
  · rintro rfl
    exact ⟨unready, .inl rfl⟩

end Consumption

/-! ### The invariant -/

/-- What a history tells of the modules of a registry. -/
structure Provenance (history : List Event) (r : Registry) : Prop where
  /-- A module is the text registered last under its identity, or else what the only
  read yielded that made its identity ready. -/
  stored : ∀ identity m, r.get? identity = some m →
    latestEdit history identity = some m ∨
      latestEdit history identity = none ∧ ∃ c, loadsOf history identity = [c] ∧
        c.load.identity = identity ∧ c.load.parse = .ok m
  /-- Under an identity that is not ready, there was neither. -/
  unready : ∀ identity, identity ∉ r.identities →
    latestEdit history identity = none ∧ loadsOf history identity = []

namespace Provenance

variable {history : List Event} {r r' : Registry} {c : Consumption} {m : Module}

/-- At the start there is no module to account for. -/
theorem empty : Provenance [] {} :=
  ⟨fun _ _ h => absurd h (Option.some_ne_none _).symm, fun _ _ => ⟨rfl, rfl⟩⟩

/-- Events that register nothing do not matter. -/
theorem log (h : Provenance history r) {es : List Event}
    (he : ∀ identity, latestEdit es identity = none) (hl : ∀ identity, loadsOf es identity = []) :
    Provenance (history ++ es) r := by
  constructor
  · intro identity m hm
    rw [latestEdit_append, loadsOf_append, he, hl, Option.none_or, List.append_nil]
    exact h.stored identity m hm
  · intro identity hi
    rw [latestEdit_append, loadsOf_append, he, hl, Option.none_or, List.append_nil]
    exact h.unready identity hi

/-- Only the modules of the registry matter. -/
theorem of_units (h : Provenance history r) (hu : r'.units = r.units) : Provenance history r' := by
  constructor
  · intro identity m hm
    rw [← Registry.lookup_units, hu, Registry.lookup_units] at hm
    exact h.stored identity m hm
  · intro identity hi
    rw [← Registry.map_fst_units, hu, Registry.map_fst_units] at hi
    exact h.unready identity hi

/-- A registered text is where its module comes from. -/
theorem edit (h : Provenance history r) (identity : String) (m : Module) :
    Provenance (history ++ [.edited identity m]) (r.insert identity m) := by
  constructor
  · intro other m' hm
    rw [latestEdit_append, loadsOf_append, latestEdit_edited, loadsOf_edited, List.append_nil]
    rw [Registry.get?_insert] at hm
    by_cases ho : other = identity
    · rw [if_pos ho] at hm
      rw [if_pos ho.symm]
      exact .inl hm
    · rw [if_neg ho] at hm
      rw [if_neg (Ne.symm ho), Option.none_or]
      exact h.stored other m' hm
  · intro other ho
    rw [Registry.mem_identities_insert, not_or] at ho
    rw [latestEdit_append, loadsOf_append, latestEdit_edited, loadsOf_edited,
      if_neg (Ne.symm ho.1), Option.none_or, List.append_nil]
    exact h.unready other ho.2

/-- A text that was registered made its identity ready. -/
theorem mem_of_edited {identity : String} (h : Provenance history r)
    (he : Event.edited identity m ∈ history) : identity ∈ r.identities := by
  by_contra hr
  exact latestEdit_ne_none he (h.unready identity hr).1

/-- Which identities a read makes ready that is registered. -/
theorem loadsOf_register (history : List Event) (good : c.load.parse = .ok m)
    (pending : c.load.identity ∈ c.registry.pending)
    (unready : c.load.identity ∉ c.registry.identities) (identity : String) :
    loadsOf (history ++ [.consumed c]) identity =
      if identity = c.load.identity then loadsOf history identity ++ [c]
      else loadsOf history identity := by
  rw [loadsOf_append, loadsOf_consumed]
  simp only [Consumption.makesReady_iff good pending unready]
  split_ifs
  · rfl
  · exact List.append_nil _

/-- A read that is registered is where its module comes from, and the only one. -/
theorem register (h : Provenance history c.registry) (good : c.load.parse = .ok m)
    (pending : c.load.identity ∈ c.registry.pending)
    (unready : c.load.identity ∉ c.registry.identities) :
    Provenance (history ++ [.consumed c]) (c.registry.insert c.load.identity m) := by
  constructor
  · intro other m' hm
    rw [latestEdit_append, latestEdit_consumed, Option.none_or,
      loadsOf_register history good pending unready]
    rw [Registry.get?_insert] at hm
    by_cases ho : other = c.load.identity
    · obtain ⟨hedit, hload⟩ := h.unready _ unready
      rw [if_pos ho] at hm
      obtain rfl := Option.some.inj hm
      rw [if_pos ho, ho, hedit, hload]
      exact .inr ⟨rfl, c, rfl, rfl, good⟩
    · rw [if_neg ho] at hm
      rw [if_neg ho]
      exact h.stored other m' hm
  · intro other ho
    rw [Registry.mem_identities_insert, not_or] at ho
    rw [latestEdit_append, latestEdit_consumed, Option.none_or,
      loadsOf_register history good pending unready, if_neg ho.1]
    exact h.unready other ho.2

end Provenance

namespace Activity

/-- What is ready stays ready: no step takes a module out of the registry. -/
theorem identities_of_course {a b : Activity} {es : List Event} {identity : String}
    (h : Course Step a es b) (hi : identity ∈ a.registry.identities) :
    identity ∈ b.registry.identities := by
  induction h with
  | refl => exact hi
  | cons hs _ ih =>
      refine ih ?_
      cases hs with
      | edit other m => exact Registry.mem_identities_insert.2 (.inr hi)
      | move hm =>
          cases hm with
          | register => exact Registry.mem_identities_insert.2 (.inr hi)
          | _ => exact hi
      | abandon =>
          rw [Task.abandon_eq]
          exact hi
      | _ => exact hi

/-- What a history tells of the registry, the tasks, and the reads consumed so far. -/
structure Recorded (history : List Event) (a : Activity) : Prop where
  provenance : Provenance history a.registry
  /-- No read has made an identity ready that a task still claims. -/
  unloaded : ∀ identity ∈ a.tasks.flatMap Task.claimed, loadsOf history identity = []
  /-- What a task says it loaded, a read has made ready. -/
  loaded : ∀ t ∈ a.tasks, ∀ identity ∈ t.loaded, loadsOf history identity ≠ []
  reported : ∀ report, Event.finished report ∈ history →
    ∀ identity ∈ report.loaded, loadsOf history identity ≠ []
  /-- A read that came too late had been outrun by a text. -/
  late : ∀ c, Event.consumed c ∈ history → c.load.identity ∉ c.registry.pending →
    c.load.identity ∈ a.registry.identities ∧ loadsOf history c.load.identity = []
  /-- A read that is consumed after a text was registered under its identity comes too
  late. -/
  outrun : history.Pairwise fun e f => ∀ c m, e = .edited c.load.identity m → f = .consumed c →
    c.load.identity ∉ c.registry.pending

namespace Recorded

variable {before es : List Event} {a b : Activity} {r r' : Registry} {t t' : Task}
  {ts ts' : List Task} {l : Load} {queue : List Load} {c : Consumption} {m : Module}

/-- A task may change in all but what it has loaded. -/
theorem exists_loaded (he : t'.loaded = t.loaded) :
    ∀ u ∈ t' :: ts, ∀ i ∈ u.loaded, ∃ v ∈ t :: ts, i ∈ v.loaded := by
  intro u hu i hi
  rcases List.mem_cons.1 hu with rfl | hu
  · exact ⟨t, List.mem_cons_self, he ▸ hi⟩
  · exact ⟨u, List.mem_cons_of_mem _ hu, hi⟩

/-- A step that registers nothing and that no history tells of. -/
theorem quiet (h : Recorded before ⟨r, ts⟩) (hu : r'.units = r.units)
    (hc : ∀ i ∈ ts'.flatMap Task.claimed, i ∈ ts.flatMap Task.claimed ∨ i ∉ r.identities)
    (hl : ∀ t' ∈ ts', ∀ i ∈ t'.loaded, ∃ t ∈ ts, i ∈ t.loaded) : Recorded before ⟨r', ts'⟩ := by
  refine ⟨h.provenance.of_units hu, fun i hi => ?_, fun t' ht' i hi => ?_, h.reported,
    fun c hcon hlate => ?_, h.outrun⟩
  · rcases hc i hi with hi' | hi'
    · exact h.unloaded i hi'
    · exact (h.provenance.unready i hi').2
  · obtain ⟨t, ht, hi'⟩ := hl t' ht' i hi
    exact h.loaded t ht i hi'
  · rw [← Registry.map_fst_units, hu, Registry.map_fst_units]
    exact h.late c hcon hlate

/-- An event that makes nothing ready but by a text. -/
theorem log (h : Recorded before ⟨r, ts⟩) {e : Event} (hl : ∀ i, loadsOf [e] i = [])
    (hp : Provenance (before ++ [e]) r') (hr : ∀ i ∈ r.identities, i ∈ r'.identities)
    (hrep : ∀ report, e = .finished report → ∃ t ∈ ts, report.loaded = t.loaded)
    (hlate : ∀ c, e = .consumed c → c.load.identity ∉ c.registry.pending →
      c.load.identity ∈ r'.identities ∧ loadsOf before c.load.identity = [])
    (hout : ∀ c m, e = .consumed c → Event.edited c.load.identity m ∈ before →
      c.load.identity ∉ c.registry.pending) : Recorded (before ++ [e]) ⟨r', ts⟩ := by
  have hloads : ∀ i, loadsOf (before ++ [e]) i = loadsOf before i := fun i => by
    rw [loadsOf_append, hl, List.append_nil]
  refine ⟨hp, fun i hi => ?_, fun t ht i hi => ?_, fun report hmem i hi => ?_,
    fun c hmem hc => ?_, ?_⟩
  · rw [hloads]
    exact h.unloaded i hi
  · rw [hloads]
    exact h.loaded t ht i hi
  · rw [hloads]
    rcases List.mem_append.1 hmem with hmem | hmem
    · exact h.reported report hmem i hi
    · obtain ⟨t, ht, he⟩ := hrep report (List.mem_singleton.1 hmem).symm
      exact h.loaded t ht i (he ▸ hi)
  · rw [hloads]
    rcases List.mem_append.1 hmem with hmem | hmem
    · exact (h.late c hmem hc).imp_left (hr _)
    · exact hlate c (List.mem_singleton.1 hmem).symm hc
  · refine List.pairwise_append.2 ⟨h.outrun, List.pairwise_singleton .., ?_⟩
    rintro f hf g hg c m rfl rfl
    exact hout c m (List.mem_singleton.1 hg).symm hf

/-- Registering a text is recorded. -/
theorem edit (h : Recorded before ⟨r, ts⟩) (identity : String) (m : Module) :
    Recorded (before ++ [.edited identity m]) ⟨r.insert identity m, ts⟩ :=
  h.log (fun _ => rfl) (h.provenance.edit identity m)
    (fun _ hi => Registry.mem_identities_insert.2 (.inr hi)) nofun nofun nofun

/-- The report of a task that ends is recorded. -/
theorem finish (h : Recorded before ⟨r, ts⟩) (ht : t ∈ ts) (r' : Registry) :
    Recorded (before ++ [.finished (t.report r')]) ⟨r, ts⟩ := by
  refine h.log (fun _ => rfl) (h.provenance.log (fun _ => rfl) fun _ => rfl) (fun _ hi => hi)
    (fun report he => ⟨t, ht, ?_⟩) nofun nofun
  rw [← Event.finished.inj he]
  rfl

/-- A read that is consumed after a text was registered under its identity. -/
theorem notMem_pending (h : Recorded before ⟨r, ts⟩) (ho : Owned before ⟨r, ts⟩)
    {identity : String} (he : Event.edited identity m ∈ before) : identity ∉ r.pending :=
  fun hp => ho.held.exclusive identity hp (h.provenance.mem_of_edited he)

/-- A read of which nothing comes. -/
theorem consume (h : Recorded before ⟨c.registry, ts⟩) (ho : Owned before ⟨c.registry, ts⟩)
    (hc : c.load.identity ∈ ts.flatMap Task.claimed) (hn : ∀ i, c.makesReady i = false) :
    Recorded (before ++ [.consumed c]) ⟨c.registry, ts⟩ := by
  have hl : ∀ i, loadsOf [.consumed c] i = [] := fun i => by
    rw [loadsOf_consumed, hn]
    rfl
  refine h.log hl (h.provenance.log (fun _ => rfl) hl) (fun _ hi => hi) nofun ?_ ?_
  · rintro _ ⟨rfl⟩ hlate
    exact ⟨((ho.held.standing _ hc).resolve_left hlate).1, h.unloaded _ hc⟩
  · rintro _ m ⟨rfl⟩ he
    exact h.notMem_pending ho he

/-- A read that is registered. -/
theorem register (h : Recorded before ⟨c.registry, ts⟩) (ho : Owned before ⟨c.registry, ts⟩)
    (good : c.load.parse = .ok m) (pending : c.load.identity ∈ c.registry.pending)
    (hc : ∀ i ∈ ts'.flatMap Task.claimed, i ∈ ts.flatMap Task.claimed ∧ i ≠ c.load.identity)
    (hl : ∀ t' ∈ ts', ∀ i ∈ t'.loaded, i = c.load.identity ∨ ∃ t ∈ ts, i ∈ t.loaded) :
    Recorded (before ++ [.consumed c]) ⟨c.registry.insert c.load.identity m, ts'⟩ := by
  have unready := ho.held.exclusive _ pending
  have hloads := Provenance.loadsOf_register before good pending unready
  have hmono : ∀ i, loadsOf before i ≠ [] → loadsOf (before ++ [.consumed c]) i ≠ [] := by
    intro i hi
    rw [loadsOf_append]
    exact fun hnil => hi (List.append_eq_nil_iff.1 hnil).1
  refine ⟨h.provenance.register good pending unready, fun i hi => ?_, fun t ht i hi => ?_,
    fun report hmem i hi => ?_, fun c' hmem hlate => ?_, ?_⟩
  · obtain ⟨hi', hne⟩ := hc i hi
    rw [hloads, if_neg hne]
    exact h.unloaded i hi'
  · rcases hl t ht i hi with rfl | ⟨t', ht', hi'⟩
    · rw [hloads, if_pos rfl]
      exact List.append_ne_nil_of_right_ne_nil _ (List.cons_ne_nil _ _)
    · exact hmono i (h.loaded t' ht' i hi')
  · exact hmono i (h.reported report (by simpa using hmem) i hi)
  · rcases List.mem_append.1 hmem with hmem | hmem
    · -- An identity that is ready is not the one that is registered now.
      obtain ⟨hr, hnil⟩ := h.late c' hmem hlate
      have hne : c'.load.identity ≠ c.load.identity := fun he => unready (he ▸ hr)
      rw [hloads, if_neg hne, Registry.mem_identities_insert]
      exact ⟨.inr hr, hnil⟩
    · obtain rfl : c' = c := by simpa using hmem
      exact absurd pending hlate
  · refine List.pairwise_append.2 ⟨h.outrun, List.pairwise_singleton .., ?_⟩
    rintro f hf g hg c' m rfl rfl
    obtain rfl : c' = c := by simpa using hg
    exact h.notMem_pending ho hf

/-- Starting a read needs no record. -/
theorem issue (h : Recorded before ⟨r, t :: ts⟩) (ho : Owned before ⟨r, t :: ts⟩)
    (absent : r.state l.identity = .absent) :
    Recorded before ⟨r.await l.identity, t.issue l :: ts⟩ := by
  obtain ⟨-, hr⟩ := Registry.state_eq_absent_iff.1 absent
  have hl : l.identity ∉ t.claimed := fun hl =>
    ho.held.notMem_of_absent absent (List.mem_append_left _ hl)
  refine h.quiet rfl (fun i hi => ?_) (exists_loaded rfl)
  rw [List.flatMap_cons, Task.claimed_issue hl, List.append_assoc, List.mem_append,
    List.singleton_append, List.mem_cons] at hi
  rcases hi with hi | rfl | hi
  · exact .inl (List.mem_append_left _ hi)
  · exact .inr hr
  · exact .inl (List.mem_append_right _ hi)

/-- **Every move of a task is recorded.** -/
theorem move (h : Recorded before ⟨r, t :: ts⟩) (ho : Owned before ⟨r, t :: ts⟩)
    (hm : Task.Move (r, t) es (r', t')) : Recorded (before ++ es) ⟨r', t' :: ts⟩ := by
  cases hm with
  | warn w =>
      rw [List.append_nil]
      exact h.quiet rfl (fun i hi => .inl hi) (exists_loaded rfl)
  | issue l absent =>
      rw [List.append_nil]
      exact h.issue ho absent
  | park head =>
      rw [List.append_nil]
      exact h.quiet rfl (fun i hi => .inl hi) (exists_loaded rfl)
  | @fail _ _ l queue src head w bad =>
      obtain ⟨hmem, hsub⟩ := ho.claims_of_take head
      have hc := consume (c := ⟨src, r, { t with queue }, l⟩) h ho hmem
        fun _ => Consumption.makesReady_of_error bad
      exact hc.quiet rfl (fun i hi => .inl (hsub i hi).1) (exists_loaded rfl)
  | @discard _ _ l queue src head m good late =>
      obtain ⟨hmem, hsub⟩ := ho.claims_of_take head
      have hc := consume (c := ⟨src, r, { t with queue }, l⟩) h ho hmem
        fun _ => Consumption.makesReady_of_late good late
      exact hc.quiet rfl (fun i hi => .inl (hsub i hi).1) (exists_loaded rfl)
  | @register _ _ l queue src head m good pending =>
      refine register (c := ⟨src, r, { t with queue }, l⟩) h ho good pending
        (ho.claims_of_take head).2 fun t' ht' i hi => ?_
      rcases List.mem_cons.1 ht' with rfl | ht'
      · rcases List.mem_append.1 hi with hi | hi
        · exact .inr ⟨t, List.mem_cons_self, hi⟩
        · exact .inl (List.mem_singleton.1 hi)
      · exact .inr ⟨t', List.mem_cons_of_mem _ ht', hi⟩

/-- **Every step keeps the records true.** -/
theorem step (h : Recorded before a) (hs : Step a es b) (ho : Owned before a) :
    Recorded (before ++ es) b := by
  cases hs with
  | edit identity m => exact h.edit identity m
  | start scope =>
      rw [List.append_nil]
      refine h.quiet rfl (fun i hi => .inl hi) fun t ht i hi => ?_
      rcases List.mem_cons.1 ht with rfl | ht
      · exact absurd hi List.not_mem_nil
      · exact ⟨t, ht, hi⟩
  | move hm => exact h.move ho hm
  | finish done =>
      refine (h.finish List.mem_cons_self _).quiet rfl (fun i hi => .inl ?_) fun t ht i hi => ?_
      · exact List.mem_append_right _ hi
      · exact ⟨t, List.mem_cons_of_mem _ ht, hi⟩
  | @abandon r t ts =>
      rw [List.append_nil, Task.abandon_eq]
      refine h.quiet rfl (fun i hi => .inl (List.mem_append_right _ hi)) fun t ht i hi => ?_
      exact ⟨t, List.mem_cons_of_mem _ ht, hi⟩
  | release path =>
      rw [List.append_nil]
      refine h.quiet rfl (fun i hi => .inl ?_) fun t ht i hi => ?_
      · rwa [List.flatMap_map] at hi
      · obtain ⟨t', ht', rfl⟩ := List.mem_map.1 ht
        exact ⟨t', ht', hi⟩
  | yield hp =>
      rw [List.append_nil]
      refine h.quiet rfl (fun i hi => .inl ((hp.flatMap_right _).mem_iff.2 hi)) fun t ht i hi => ?_
      exact ⟨t, hp.mem_iff.2 ht, hi⟩

/-- What each step keeps, a course keeps. -/
theorem course (h : Recorded before a) (hs : Course Step a es b) (ho : Owned before a) :
    Recorded (before ++ es) b := by
  refine (hs.preserves (P := fun history a => Recorded history a ∧ Owned history a) ?_ ⟨h, ho⟩).1
  intro before a b es hs ⟨h, ho⟩
  exact ⟨h.step hs ho, ho.step hs⟩

end Recorded
end Activity
end WrenAnalysis
