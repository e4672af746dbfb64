/-
# One resolution by itself

A call follows the imports of a module while nothing else touches the registry.  Its
reads end in any order: `Call.Reaches` has all states of a call, with one way to go on
for each read in flight, and a log of the imports that were followed and the reads that
ended.

All invariants of a call are shown by its steps (`Call.Step`).  There are six of them:
an import is skipped, warned about or read, the reads in flight are put in another order, and
a read fails or is registered (`Call.Reaches.preserves`).  A read never comes too late: what
a call has in flight is pending and nobody else ends its loads (`Call.Alone`).
-/

import WrenAnalysis.Proofs.Resolution.Import

namespace WrenAnalysis

/-- A read without its gate. -/
def Load.free (l : Load) : Load := { l with waiting := false }

/-- What a read comes to: the identity that it makes ready, or a warning. -/
def Load.outcome (l : Load) : String ⊕ Warning :=
  match l.parse with
  | .ok _ => .inl l.identity
  | .error w => .inr w

/-- What does not depend on gates is the same for the same reads in another order. -/
theorem perm_of_free {α : Type} {f : Load → α} (hf : ∀ l, f l.free = f l) {ls ls' : List Load}
    (h : (ls.map Load.free).Perm (ls'.map Load.free)) : (ls.map f).Perm (ls'.map f) := by
  have hmap : ∀ ls : List Load, (ls.map Load.free).map f = ls.map f := fun ls => by
    rw [List.map_map]
    exact List.map_congr_left fun l _ => hf l
  rw [← hmap ls, ← hmap ls']
  exact h.map f

namespace Task

/-- The imports that are followed one after the other, each with the registry it meets. -/
def inquiries (src : Sources) (dir : String) : List String → Registry × Task → List Inquiry
  | [], _ => []
  | literal :: literals, s =>
    ⟨s.1, dir, literal⟩ :: inquiries src dir literals (follow src dir s literal)

/-- The imports that are followed when a read is consumed: those of its module, if it is
registered. -/
def inquiriesOf (src : Sources) (s : Registry × Task) (l : Load) : List Inquiry :=
  match l.parse with
  | .error _ => []
  | .ok m =>
    if l.identity ∈ s.1.pending then
      inquiries src l.directory m.importLiterals
        (s.1.insert l.identity m, (s.2.unclaim l.identity).record l.identity)
    else []

end Task

/-- A call to follow the imports of a module, with all that it draws on. -/
structure Call where
  sources : Sources
  scope : Scope
  /-- The directory of the module. -/
  dir : String
  module : Module
  /-- The registry at the start. -/
  registry : Registry

namespace Call

/-- What the log of a call tells of. -/
inductive Entry where
  /-- An import was followed. -/
  | followed (q : Inquiry)
  /-- A read ended and was consumed. -/
  | ended (l : Load)

/-- The import that an entry tells of. -/
def Entry.inquiry? : Entry → Option Inquiry
  | followed q => some q
  | ended _ => none

/-- The read that an entry tells of. -/
def Entry.load? : Entry → Option Load
  | followed _ => none
  | ended l => some l

/-- The imports that were followed, in order. -/
def followed (log : List Entry) : List Inquiry := log.filterMap Entry.inquiry?

/-- The reads that have ended, in order. -/
def ended (log : List Entry) : List Load := log.filterMap Entry.load?

/-- The states of a call, and what has happened so far. -/
inductive Reaches (c : Call) : List Entry → Registry × Task → Prop
  /-- The imports of the module were followed. -/
  | start :
      Reaches c ((Task.inquiries c.sources c.dir c.module.importLiterals
          (c.registry, { scope := c.scope })).map .followed)
        (Task.start c.sources c.scope c.dir c.module c.registry)
  /-- The same reads in another order. -/
  | shift {log : List Entry} {r : Registry} {t : Task} {queue parked : List Load}
      (h : Reaches c log (r, t))
      (same : ((queue ++ parked).map Load.free).Perm (t.inFlight.map Load.free)) :
      Reaches c log (r, { t with queue, parked })
  /-- The read at the head ended. -/
  | take {log : List Entry} {r : Registry} {t : Task} {l : Load} {queue : List Load}
      (h : Reaches c log (r, t)) (gates : List String) (head : t.queue = l :: queue) :
      Reaches c (log ++ .ended l ::
          (Task.inquiriesOf { c.sources with gates } (r, { t with queue }) l).map .followed)
        (Task.consume { c.sources with gates } (r, { t with queue }) l)

/-- An import of the module, or of a file that was loaded. -/
def Imported (c : Call) (log : List Entry) (dir literal : String) : Prop :=
  dir = c.dir ∧ literal ∈ c.module.importLiterals ∨
    ∃ l ∈ ended log, ∃ m, l.parse = .ok m ∧ dir = l.directory ∧ literal ∈ m.importLiterals

/-- What can happen in a call, one import or one read at a time. -/
inductive Step (c : Call) (log : List Entry) :
    Registry × Task → List Entry → Registry × Task → Prop
  | skip {r : Registry} {t : Task} {dir literal : String} (imported : c.Imported log dir literal)
      (unread : (Inquiry.mk r dir literal).read? c.sources = none) :
      Step c log (r, t) [.followed ⟨r, dir, literal⟩] (r, t)
  | miss {r : Registry} {t : Task} {dir literal : String} (imported : c.Imported log dir literal)
      (unread : (Inquiry.mk r dir literal).read? c.sources = none)
      (nowhere : ∀ path ∈ c.sources.candidates dir literal,
        c.sources.library.contains path = false) :
      Step c log (r, t) [.followed ⟨r, dir, literal⟩]
        (r, t.warn (.importNotFound (ImportPath.file literal) dir))
  | read {r : Registry} {t : Task} {dir literal path : String}
      (imported : c.Imported log dir literal) (waiting : Bool)
      (first : (Inquiry.mk r dir literal).read? c.sources = some path) :
      Step c log (r, t) [.followed ⟨r, dir, literal⟩]
        (r.await (ImportPath.identity path),
          t.issue ⟨ImportPath.identity path, path, c.sources.library.read path, waiting⟩)
  | shift {r : Registry} {t : Task} {queue parked : List Load}
      (same : ((queue ++ parked).map Load.free).Perm (t.inFlight.map Load.free)) :
      Step c log (r, t) [] (r, { t with queue, parked })
  | fail {r : Registry} {t : Task} {l : Load} {queue : List Load} (head : t.queue = l :: queue)
      {w : Warning} (bad : l.parse = .error w) :
      Step c log (r, t) [.ended l]
        (r.release l.identity, ({ t with queue }.unclaim l.identity).warn w)
  | register {r : Registry} {t : Task} {l : Load} {queue : List Load}
      (head : t.queue = l :: queue) {m : Module} (good : l.parse = .ok m) :
      Step c log (r, t) [.ended l]
        (r.insert l.identity m, ({ t with queue }.unclaim l.identity).record l.identity)

section Log

variable (log es : List Entry) (q : Inquiry) (l : Load)

/-- The imports of two logs come one after the other. -/
@[simp] theorem followed_append : followed (log ++ es) = followed log ++ followed es :=
  List.filterMap_append

/-- The reads of two logs come one after the other. -/
@[simp] theorem ended_append : ended (log ++ es) = ended log ++ ended es := List.filterMap_append

/-- An entry of an import tells of this import. -/
@[simp] theorem followed_followed : followed [.followed q] = [q] := rfl

/-- An entry of a read tells of no import. -/
@[simp] theorem followed_ended : followed [.ended l] = [] := rfl

/-- An entry of an import tells of no read. -/
@[simp] theorem ended_followed : ended [.followed q] = [] := rfl

/-- An entry of a read tells of this read. -/
@[simp] theorem ended_ended : ended [.ended l] = [l] := rfl

/-- An empty log tells of no import. -/
@[simp] theorem followed_nil : followed [] = [] := rfl

/-- An empty log tells of no read. -/
@[simp] theorem ended_nil : ended [] = [] := rfl

/-- No read ends while imports are followed. -/
theorem ended_map_followed (qs : List Inquiry) : ended (qs.map .followed) = [] := by
  induction qs with
  | nil => rfl
  | cons q qs ih => exact ih

/-- One read ends before its imports are followed. -/
@[simp] theorem ended_taken (qs : List Inquiry) :
    ended (.ended l :: qs.map .followed) = [l] :=
  congrArg (l :: ·) (ended_map_followed qs)

end Log

variable {c : Call} {log es : List Entry} {s s' : Registry × Task} {r : Registry} {t : Task}
  {dir literal : String}

/-- What was imported stays imported. -/
theorem Imported.mono (h : c.Imported log dir literal) (es : List Entry) :
    c.Imported (log ++ es) dir literal := by
  refine h.imp_right fun ⟨l, hl, hm⟩ => ⟨l, ?_, hm⟩
  rw [ended_append]
  exact List.mem_append_left _ hl

/-! ### The reads of a call -/

/-- All reads that were issued: those that have ended and those in flight. -/
def reads (log : List Entry) (t : Task) : List Load := ended log ++ t.inFlight

/-- A read that ends was in flight. -/
theorem reads_of_head (log : List Entry) {l : Load} {queue : List Load}
    (head : t.queue = l :: queue) : reads (log ++ [.ended l]) { t with queue } = reads log t := by
  simp [reads, Task.inFlight_of_head head]

/-- A read was there before a step, but for its gate and its place, or it is the read that
an import asked for in that step. -/
theorem reads_of_step (hs : c.Step log s es s') {l : Load} (hl : l ∈ reads (log ++ es) s'.2) :
    (∃ l' ∈ reads log s.2, l'.free = l.free) ∨
      ∃ dir literal path waiting, c.Imported log dir literal ∧
        (Inquiry.mk s.1 dir literal).read? c.sources = some path ∧
          l = ⟨ImportPath.identity path, path, c.sources.library.read path, waiting⟩ := by
  cases hs with
  | skip imported unread =>
      rw [reads, ended_append, ended_followed, List.append_nil] at hl
      exact .inl ⟨l, hl, rfl⟩
  | miss imported unread nowhere =>
      rw [reads, ended_append, ended_followed, List.append_nil] at hl
      exact .inl ⟨l, hl, rfl⟩
  | read imported waiting first =>
      rw [reads, ended_append, ended_followed, List.append_nil] at hl
      rcases List.mem_append.1 hl with hl | hl
      · exact .inl ⟨l, List.mem_append_left _ hl, rfl⟩
      · rcases List.mem_cons.1 ((Task.inFlight_issue _ _).mem_iff.1 hl) with rfl | hl
        · exact .inr ⟨_, _, _, _, imported, first, rfl⟩
        · exact .inl ⟨l, List.mem_append_right _ hl, rfl⟩
  | shift same =>
      rw [List.append_nil] at hl
      rcases List.mem_append.1 hl with hl | hl
      · exact .inl ⟨l, List.mem_append_left _ hl, rfl⟩
      · obtain ⟨l', hl', he⟩ := List.mem_map.1 (same.mem_iff.1 (List.mem_map_of_mem hl))
        exact .inl ⟨l', List.mem_append_right _ hl', he⟩
  | fail head bad =>
      exact .inl ⟨l, reads_of_head log head ▸ hl, rfl⟩
  | register head good =>
      exact .inl ⟨l, reads_of_head log head ▸ hl, rfl⟩

/-! ### The registry of a call -/

/-- What holds between the registry of a call and its reads in flight. -/
structure Alone (c : Call) (s : Registry × Task) : Prop where
  /-- No identity is read twice at a time. -/
  distinct : (s.2.inFlight.map Load.identity).Nodup
  /-- What was not pending at the start is pending while it is read. -/
  pending : ∀ i, i ∈ s.1.pending ↔
    i ∈ c.registry.pending ∨ i ∈ s.2.inFlight.map Load.identity
  fresh : ∀ i ∈ s.2.inFlight.map Load.identity, i ∉ c.registry.pending ∧ i ∉ s.1.identities
  /-- What was not ready at the start was loaded. -/
  ready : ∀ i, i ∈ s.1.identities ↔ i ∈ c.registry.identities ∨ i ∈ s.2.loaded
  loaded : s.2.loaded.Nodup ∧ ∀ i ∈ s.2.loaded, i ∉ c.registry.identities
  kept : ∀ i ∈ c.registry.identities, s.1.get? i = c.registry.get? i

namespace Alone

variable {l : Load} {queue : List Load}

/-- A call starts with nothing in flight. -/
theorem init (c : Call) : c.Alone (c.registry, { scope := c.scope }) where
  distinct := List.nodup_nil
  pending _ := (or_iff_left List.not_mem_nil).symm
  fresh _ h := absurd h List.not_mem_nil
  ready _ := (or_iff_left List.not_mem_nil).symm
  loaded := ⟨List.nodup_nil, fun _ h => absurd h List.not_mem_nil⟩
  kept _ _ := rfl

/-- The reads in flight may change in all but their identities. -/
theorem same (h : c.Alone (r, t)) {t' : Task} (hl : t'.loaded = t.loaded)
    (hp : (t'.inFlight.map Load.identity).Perm (t.inFlight.map Load.identity)) :
    c.Alone (r, t') where
  distinct := hp.nodup_iff.2 h.distinct
  pending i := by rw [h.pending i, ← hp.mem_iff]
  fresh i hi := h.fresh i (hp.mem_iff.1 hi)
  ready i := by rw [h.ready i, ← hl]
  loaded := by rw [hl]; exact h.loaded
  kept := h.kept

/-- A read that starts is pending, and no other read has its identity. -/
theorem read (h : c.Alone (r, t)) (absent : r.state l.identity = .absent) :
    c.Alone (r.await l.identity, t.issue l) := by
  obtain ⟨hpend, hready⟩ := Registry.state_eq_absent_iff.1 absent
  have hold : l.identity ∉ c.registry.pending ∧ l.identity ∉ t.inFlight.map Load.identity :=
    not_or.1 fun ho => hpend ((h.pending _).2 ho)
  have hperm : ((t.issue l).inFlight.map Load.identity).Perm
      (l.identity :: t.inFlight.map Load.identity) :=
    (Task.inFlight_issue t l).map Load.identity
  refine ⟨hperm.nodup_iff.2 (List.nodup_cons.2 ⟨hold.2, h.distinct⟩), fun i => ?_,
    fun i hi => ?_, h.ready, h.loaded, h.kept⟩
  · rw [Registry.mem_pending_await, hperm.mem_iff, List.mem_cons, h.pending i]
    exact or_assoc.trans (or_congr_right or_comm)
  · rcases List.mem_cons.1 (hperm.mem_iff.1 hi) with rfl | hi
    · exact ⟨hold.1, hready⟩
    · exact h.fresh i hi

/-- The read at the head is still awaited. -/
theorem head_pending (h : c.Alone (r, t)) (head : t.queue = l :: queue) :
    l.identity ∈ r.pending := by
  rw [h.pending, Task.inFlight_of_head head]
  exact .inr List.mem_cons_self

/-- What is pending once the load of the head has ended. -/
theorem pending_of_head (h : c.Alone (r, t)) (head : t.queue = l :: queue) (i : String) :
    i ∈ r.pending ∧ i ≠ l.identity ↔ i ∈ c.registry.pending ∨
      i ∈ ({ t with queue } : Task).inFlight.map Load.identity := by
  have hdis := h.distinct
  have hfresh := h.fresh l.identity
  rw [Task.inFlight_of_head head, List.map_cons] at hdis hfresh
  obtain ⟨hnot, -⟩ := List.nodup_cons.1 hdis
  rw [h.pending i, Task.inFlight_of_head head, List.map_cons, List.mem_cons]
  constructor
  · rintro ⟨hi | he | hi, hne⟩
    · exact .inl hi
    · exact absurd he hne
    · exact .inr hi
  · rintro (hi | hi)
    · exact ⟨.inl hi, fun he => (hfresh List.mem_cons_self).1 (he ▸ hi)⟩
    · exact ⟨.inr (.inr hi), fun he => hnot (he ▸ hi)⟩

/-- A read that fails ends alone. -/
theorem fail (h : c.Alone (r, t)) (head : t.queue = l :: queue) (w : Warning) :
    c.Alone (r.release l.identity, ({ t with queue }.unclaim l.identity).warn w) := by
  have hdis := h.distinct
  have hfresh := h.fresh
  rw [Task.inFlight_of_head head, List.map_cons] at hdis hfresh
  refine ⟨(List.nodup_cons.1 hdis).2, fun i => ?_,
    fun i hi => hfresh i (List.mem_cons_of_mem _ hi), h.ready, h.loaded, h.kept⟩
  rw [Registry.mem_pending_release]
  exact h.pending_of_head head i

/-- A read that is registered ends alone. -/
theorem register (h : c.Alone (r, t)) (head : t.queue = l :: queue) (m : Module) :
    c.Alone (r.insert l.identity m,
      ({ t with queue }.unclaim l.identity).record l.identity) := by
  have hdis := h.distinct
  have hfresh := h.fresh
  rw [Task.inFlight_of_head head, List.map_cons] at hdis hfresh
  obtain ⟨hnot, hdis⟩ := List.nodup_cons.1 hdis
  obtain ⟨-, hunready⟩ := hfresh l.identity List.mem_cons_self
  have hnew := not_or.1 fun ho => hunready ((h.ready _).2 ho)
  refine ⟨hdis, fun i => ?_, fun i hi => ?_, fun i => ?_, ⟨?_, fun i hi => ?_⟩, fun i hi => ?_⟩
  · rw [Registry.mem_pending_insert]
    exact h.pending_of_head head i
  · obtain ⟨hold, hi'⟩ := hfresh i (List.mem_cons_of_mem _ hi)
    rw [Registry.mem_identities_insert]
    exact ⟨hold, not_or.2 ⟨fun he => hnot (he ▸ hi), hi'⟩⟩
  · rw [Registry.mem_identities_insert, h.ready i]
    simp only [Task.record, Task.unclaim, List.mem_append, List.mem_singleton]
    exact or_comm.trans or_assoc
  · exact List.nodup_append'.2 ⟨h.loaded.1, List.nodup_singleton _,
      List.disjoint_singleton.2 hnew.2⟩
  · rcases List.mem_append.1 hi with hi | hi
    · exact h.loaded.2 i hi
    · rw [List.mem_singleton.1 hi]
      exact hnew.1
  · have hne : i ≠ l.identity := fun he => hnew.1 (he ▸ hi)
    rw [Registry.get?_insert, if_neg hne]
    exact h.kept i hi

/-- Every step leaves the call alone with its registry. -/
theorem step (h : c.Alone s) (hs : c.Step log s es s') : c.Alone s' := by
  cases hs with
  | skip imported unread => exact h
  | miss imported unread nowhere => exact h.same rfl (.refl _)
  | @read r t dir literal path imported waiting first =>
      have habsent := Inquiry.absent_of_read? first
      generalize ImportPath.identity path = i at habsent ⊢
      exact h.read (l := ⟨i, path, c.sources.library.read path, waiting⟩) habsent
  | shift same => exact h.same rfl (perm_of_free (fun _ => rfl) same)
  | fail head bad => exact h.fail head _
  | register head good => exact h.register head _

end Alone

/-! ### What every state of a call has -/

/-- An import that is followed makes one step. -/
theorem step_of_follow (imported : c.Imported log dir literal) (gates : List String)
    (s : Registry × Task) :
    c.Step log s [.followed ⟨s.1, dir, literal⟩]
      (Task.follow { c.sources with gates } dir s literal) := by
  have hf := Task.follow_followed { c.sources with gates } dir literal s
  generalize Task.follow { c.sources with gates } dir s literal = s' at hf ⊢
  cases hf with
  | skipped unread reason => exact .skip imported unread
  | missing unread nowhere => exact .miss imported unread nowhere
  | read first => exact .read imported _ first

section Preserves

variable {P : List Entry → Registry × Task → Prop}
  (keep : ∀ {log es : List Entry} {s s' : Registry × Task},
    c.Step log s es s' → c.Alone s → P log s → P (log ++ es) s')
include keep

/-- What the steps keep is kept while imports are followed. -/
theorem keeps_followAll (gates : List String) {literals : List String} {log : List Entry}
    {s : Registry × Task} (imported : ∀ literal ∈ literals, c.Imported log dir literal)
    (ha : c.Alone s) (hP : P log s) :
    c.Alone (literals.foldl (Task.follow { c.sources with gates } dir) s) ∧
      P (log ++ (Task.inquiries { c.sources with gates } dir literals s).map .followed)
        (literals.foldl (Task.follow { c.sources with gates } dir) s) := by
  induction literals generalizing log s with
  | nil => exact ⟨ha, (List.append_nil log).symm ▸ hP⟩
  | cons literal literals ih =>
      obtain ⟨hlit, hlits⟩ := List.forall_mem_cons.1 imported
      have hs := step_of_follow hlit gates s
      have hrest := ih (fun other ho => (hlits other ho).mono [.followed ⟨s.1, dir, literal⟩])
        (ha.step hs) (keep hs ha hP)
      rwa [List.append_assoc] at hrest

/-- **What each step of a call keeps, every state of the call has.** -/
theorem Reaches.preserves (init : P [] (c.registry, { scope := c.scope }))
    (h : c.Reaches log s) : c.Alone s ∧ P log s := by
  induction h with
  | start => exact keeps_followAll keep _ (fun _ hl => .inl ⟨rfl, hl⟩) (.init c) init
  | @shift log r t queue parked h same ih =>
      have hs : c.Step log (r, t) [] (r, { t with queue, parked }) := .shift same
      have hP := keep hs ih.1 ih.2
      rw [List.append_nil] at hP
      exact ⟨ih.1.step hs, hP⟩
  | @take log r t l queue h gates head ih =>
      obtain ⟨ha, hP⟩ := ih
      have hpend := ha.head_pending head
      rw [List.append_cons]
      cases hp : l.parse with
      | error w =>
          have hs : c.Step log (r, t) [.ended l] _ := .fail head hp
          rw [Task.consume_of_error hp, Task.inquiriesOf, hp, List.map_nil, List.append_nil]
          exact ⟨ha.step hs, keep hs ha hP⟩
      | ok m =>
          have hs : c.Step log (r, t) [.ended l] _ := .register head hp
          have hl : l ∈ ended (log ++ [.ended l]) := by simp
          rw [Task.consume_of_pending hp hpend]
          simp only [Task.inquiriesOf, hp, if_pos hpend]
          exact keeps_followAll keep gates (fun _ hlit => .inr ⟨l, hl, m, hp, rfl, hlit⟩)
            (ha.step hs) (keep hs ha hP)

end Preserves

/-- In all states of a call its reads are pending, and nobody else has ended them. -/
theorem Reaches.alone (h : c.Reaches log s) : c.Alone s :=
  (h.preserves (P := fun _ _ => True) (fun _ _ _ => trivial) trivial).1

end Call
end WrenAnalysis
