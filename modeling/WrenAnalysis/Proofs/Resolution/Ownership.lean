/-
# Who owns a pending identity

The identities that a task has marked pending (`Task.claimed`), the reads it has in
flight, and the pending identities of the registry say the same thing three times,
and are brought up to date at different moments.  `Activity.Owned` is what holds
between them at all times: the claims of all tasks taken together are distinct, each
is pending unless a text was registered in its place, every pending identity is
claimed, and the claims of a task are the identities of its reads in flight.

An identity that is claimed is never absent, and only an absent identity is claimed,
so no claim can come back to a task that lost it.
-/

import Mathlib.Data.List.Nodup
import WrenAnalysis.Proofs.Resolution.Course

namespace WrenAnalysis

/-- What holds between a registry and all claims on it, after a history. -/
structure Held (history : List Event) (r : Registry) (claims : List String) : Prop where
  /-- A pending identity has no module. -/
  exclusive : ∀ identity ∈ r.pending, identity ∉ r.identities
  /-- No identity is claimed twice. -/
  distinct : claims.Nodup
  /-- A claimed identity is pending, or a text was registered in its place. -/
  standing : ∀ identity ∈ claims, identity ∈ r.pending ∨
    identity ∈ r.identities ∧ ∃ m, Event.edited identity m ∈ history
  /-- A pending identity is claimed. -/
  owned : ∀ identity ∈ r.pending, identity ∈ claims

namespace Held

variable {history : List Event} {r r' : Registry} {claims claims' : List String}
  {identity : String}

/-- At the start nothing is pending and nothing is claimed. -/
theorem empty : Held [] {} [] :=
  ⟨fun _ h => absurd h List.not_mem_nil, List.nodup_nil, fun _ h => absurd h List.not_mem_nil,
    fun _ h => absurd h List.not_mem_nil⟩

/-- What holds after a history holds after a longer one. -/
theorem mono (h : Held history r claims) (es : List Event) : Held (history ++ es) r claims := by
  refine ⟨h.exclusive, h.distinct, fun i hi => ?_, h.owned⟩
  rcases h.standing i hi with hp | ⟨hr, m, hm⟩
  · exact .inl hp
  · exact .inr ⟨hr, m, List.mem_append_left _ hm⟩

/-- The order of the claims does not matter. -/
theorem perm (h : Held history r claims) (hc : claims.Perm claims') : Held history r claims' :=
  ⟨h.exclusive, hc.nodup_iff.1 h.distinct, fun i hi => h.standing i (hc.mem_iff.2 hi),
    fun i hi => hc.mem_iff.1 (h.owned i hi)⟩

/-- Registering a text leaves all claims standing, that on its own identity included. -/
theorem edit (h : Held history r claims) (identity : String) (m : Module) :
    Held (history ++ [.edited identity m]) (r.insert identity m) claims := by
  refine ⟨fun i hi => ?_, h.distinct, fun i hi => ?_, fun i hi => ?_⟩
  · obtain ⟨hp, hne⟩ := Registry.mem_pending_insert.1 hi
    rw [Registry.mem_identities_insert]
    rintro (he | hr)
    · exact hne he
    · exact h.exclusive i hp hr
  · rw [Registry.mem_pending_insert, Registry.mem_identities_insert]
    by_cases hne : i = identity
    · subst hne
      exact .inr ⟨.inl rfl, m, List.mem_append_right _ List.mem_cons_self⟩
    · rcases (h.mono [.edited identity m]).standing i hi with hp | ⟨hr, hm⟩
      · exact .inl ⟨hp, hne⟩
      · exact .inr ⟨.inr hr, hm⟩
  · exact h.owned i (Registry.mem_pending_insert.1 hi).1

/-- A claimed identity is not absent. -/
theorem notMem_of_absent (h : Held history r claims) (absent : r.state identity = .absent) :
    identity ∉ claims := by
  obtain ⟨hp, hr⟩ := Registry.state_eq_absent_iff.1 absent
  intro hi
  rcases h.standing identity hi with hp' | ⟨hr', -⟩
  · exact hp hp'
  · exact hr hr'

/-- An absent identity that is marked pending is claimed once. -/
theorem await (h : Held history r claims) (absent : r.state identity = .absent) :
    Held history (r.await identity) (identity :: claims) := by
  obtain ⟨-, hr⟩ := Registry.state_eq_absent_iff.1 absent
  refine ⟨fun i hi => ?_, List.nodup_cons.2 ⟨h.notMem_of_absent absent, h.distinct⟩,
    fun i hi => ?_, fun i hi => ?_⟩
  · rcases Registry.mem_pending_await.1 hi with hp | rfl
    · exact h.exclusive i hp
    · exact hr
  · rw [Registry.mem_pending_await]
    rcases List.mem_cons.1 hi with rfl | hi
    · exact .inl (.inr rfl)
    · exact (h.standing i hi).imp_left .inl
  · rcases Registry.mem_pending_await.1 hi with hp | rfl
    · exact List.mem_cons_of_mem _ (h.owned i hp)
    · exact List.mem_cons_self

/-- **Claims end together with the loads behind them.**  Whether the identities that
are let go end up ready, absent or as they were does not matter to the others. -/
theorem letGo {gone : List String} (h : Held history r (gone ++ claims))
    (hp : ∀ i, i ∈ r'.pending ↔ i ∈ r.pending ∧ i ∉ gone)
    (hr : ∀ i, i ∉ gone → (i ∈ r'.identities ↔ i ∈ r.identities)) : Held history r' claims := by
  obtain ⟨-, hnd, hdis⟩ := List.nodup_append'.1 h.distinct
  refine ⟨fun i hi => ?_, hnd, fun i hi => ?_, fun i hi => ?_⟩
  · obtain ⟨hip, hig⟩ := (hp i).1 hi
    exact fun hi' => h.exclusive i hip ((hr i hig).1 hi')
  · have hig : i ∉ gone := fun hg => hdis hg hi
    rw [hp, hr i hig]
    exact (h.standing i (List.mem_append_right _ hi)).imp_left fun hip => ⟨hip, hig⟩
  · obtain ⟨hip, hig⟩ := (hp i).1 hi
    exact (List.mem_append.1 (h.owned i hip)).resolve_left hig

end Held

namespace Task

variable {t : Task} {l : Load} {queue : List Load}

/-- The claims of a task are the identities of its reads in flight. -/
def Tallied (t : Task) : Prop := t.claimed.Perm (t.inFlight.map Load.identity)

/-- A task claims the identities of its reads in flight. -/
theorem Tallied.mem_claimed_iff (h : t.Tallied) {identity : String} :
    identity ∈ t.claimed ↔ ∃ l ∈ t.inFlight, l.identity = identity := by
  rw [h.mem_iff, List.mem_map]

/-- A task that is done claims nothing. -/
theorem Tallied.claimed_eq_nil (h : t.Tallied) (done : t.isDone = true) : t.claimed = [] := by
  have hf : t.inFlight = [] := List.isEmpty_iff.1 done
  rw [Tallied, hf] at h
  exact h.eq_nil

/-- The reads in flight may change their order. -/
theorem Tallied.of_perm (h : t.Tallied) {t' : Task} (hc : t'.claimed = t.claimed)
    (hf : (t'.inFlight.map Load.identity).Perm (t.inFlight.map Load.identity)) : t'.Tallied := by
  rw [Tallied, hc]
  exact h.trans hf.symm

/-- A read of an identity that is not claimed adds one claim. -/
theorem claimed_issue (hl : l.identity ∉ t.claimed) :
    (t.issue l).claimed = t.claimed ++ [l.identity] :=
  if_neg hl

/-- A read of an identity that is not claimed is tallied. -/
theorem Tallied.issue (h : t.Tallied) (hl : l.identity ∉ t.claimed) : (t.issue l).Tallied := by
  have hf := (inFlight_issue t l).map Load.identity
  rw [Tallied, claimed_issue hl]
  exact (List.perm_append_singleton ..).trans ((h.cons _).trans hf.symm)

/-- Taking the head of the queue takes back one claim, and only one. -/
theorem Tallied.take (h : t.Tallied) (hnd : t.claimed.Nodup) (head : t.queue = l :: queue) :
    t.claimed.Perm (l.identity :: ({ t with queue }.unclaim l.identity).claimed) ∧
      ({ t with queue }.unclaim l.identity).Tallied := by
  have hc : t.claimed.Perm (l.identity :: (queue ++ t.parked).map Load.identity) := by
    rw [Tallied, inFlight_of_head head] at h
    exact h
  obtain ⟨hl, -⟩ := List.nodup_cons.1 (hc.nodup_iff.1 hnd)
  have hrest : (t.claimed.filter (· ≠ l.identity)).Perm
      ((queue ++ t.parked).map Load.identity) := by
    have hp := hc.filter (· ≠ l.identity)
    have hself : ∀ i ∈ (queue ++ t.parked).map Load.identity, decide (i ≠ l.identity) = true :=
      fun i hi => decide_eq_true fun he => hl (he ▸ hi)
    rwa [List.filter_cons_of_neg (by simp), List.filter_eq_self.2 hself] at hp
  exact ⟨hc.trans (hrest.symm.cons _), hrest⟩

/-- Letting reads go changes no claim. -/
theorem Tallied.release (h : t.Tallied) (path : String) : (t.release path).Tallied := by
  refine h.of_perm rfl ?_
  have hfree : ∀ ls : List Load, (ls.map fun l =>
      if waitsAt path l then { l with waiting := false } else l).map Load.identity =
        ls.map Load.identity := by
    intro ls
    rw [List.map_map]
    refine List.map_congr_left fun l _ => ?_
    simp only [Function.comp_apply]
    split_ifs <;> rfl
  simp only [inFlight, Task.release, List.map_append, hfree]
  rw [List.append_assoc, ← List.map_append]
  exact ((List.filter_append_perm _ _).map _).append_left _

/-- As long as no text is registered, what a task claims is pending. -/
theorem claimed_pending_of_course {s s' : Registry × Task} {es : List Event}
    (h : Course Move s es s') (hs : ∀ i ∈ s.2.claimed, i ∈ s.1.pending) :
    ∀ i ∈ s'.2.claimed, i ∈ s'.1.pending := by
  induction h with
  | refl => exact hs
  | cons hm _ ih =>
      refine ih ?_
      cases hm with
      | warn w => exact hs
      | issue l absent =>
          intro i hi
          rw [Registry.mem_pending_await]
          simp only [issue] at hi
          split_ifs at hi
          · exact .inl (hs i hi)
          · exact (List.mem_append.1 hi).imp (hs i) List.mem_singleton.1
      | park head => exact hs
      | fail src head bad =>
          intro i hi
          obtain ⟨hc, hne⟩ := List.mem_filter.1 hi
          exact Registry.mem_pending_release.2 ⟨hs i hc, of_decide_eq_true hne⟩
      | discard src head good late =>
          intro i hi
          exact hs i (List.mem_filter.1 hi).1
      | register src head good pending =>
          intro i hi
          obtain ⟨hc, hne⟩ := List.mem_filter.1 hi
          exact Registry.mem_pending_insert.2 ⟨hs i hc, of_decide_eq_true hne⟩

/-- Giving up a task takes back the loads behind its claims and does nothing else. -/
theorem abandon_eq (t : Task) (r : Registry) :
    t.abandon r = { r with pending := r.pending.filter (· ∉ t.claimed) } := by
  have hfold : ∀ (ids : List String) (r : Registry),
      ids.foldl (fun r i => r.complete i none) r =
        { r with pending := r.pending.filter (· ∉ ids) } := by
    intro ids
    induction ids with
    | nil => simp
    | cons i ids ih =>
        intro r
        rw [List.foldl_cons, Registry.complete_none, ih]
        simp only [Registry.release, Registry.without, List.filter_filter, List.mem_cons, not_or,
          Bool.decide_and, Bool.and_comm]
  exact hfold t.claimed r

end Task

namespace Activity

/-- What holds between the registry and the tasks that are alive, after a history. -/
structure Owned (history : List Event) (a : Activity) : Prop where
  held : Held history a.registry (a.tasks.flatMap Task.claimed)
  tallied : ∀ t ∈ a.tasks, t.Tallied

namespace Owned

variable {before es : List Event} {a b : Activity} {r r' : Registry} {t t' : Task}
  {ts ts' : List Task} {l : Load} {queue : List Load}

/-- The task at the head claims no identity twice. -/
theorem head_nodup (h : Owned before ⟨r, t :: ts⟩) : t.claimed.Nodup :=
  (List.nodup_append.1 h.held.distinct).1

/-- The claims of the task at the head are its reads in flight. -/
theorem head_tallied (h : Owned before ⟨r, t :: ts⟩) : t.Tallied := h.tallied t List.mem_cons_self

/-- The claims of the other tasks are their reads in flight. -/
theorem tail_tallied (h : Owned before ⟨r, t :: ts⟩) : ∀ t' ∈ ts, t'.Tallied :=
  fun t' ht => h.tallied t' (List.mem_cons_of_mem _ ht)

/-- What holds after a history holds after a longer one. -/
theorem mono (h : Owned before a) (es : List Event) : Owned (before ++ es) a :=
  ⟨h.held.mono es, h.tallied⟩

/-- A task may change in all but its claims. -/
theorem same (h : Owned before ⟨r, t :: ts⟩) (hc : t'.claimed = t.claimed) (ht : t'.Tallied) :
    Owned before ⟨r, t' :: ts⟩ := by
  refine ⟨?_, List.forall_mem_cons.2 ⟨ht, h.tail_tallied⟩⟩
  have hheld := h.held
  rw [List.flatMap_cons] at hheld ⊢
  rwa [hc]

/-- The task at the head claims what it starts to read. -/
theorem issue (h : Owned before ⟨r, t :: ts⟩) (absent : r.state l.identity = .absent) :
    Owned before ⟨r.await l.identity, t.issue l :: ts⟩ := by
  have hl : l.identity ∉ t.claimed := fun hl =>
    h.held.notMem_of_absent absent (List.mem_append_left _ hl)
  refine ⟨(h.held.await absent).perm ?_,
    List.forall_mem_cons.2 ⟨h.head_tallied.issue hl, h.tail_tallied⟩⟩
  rw [List.flatMap_cons, List.flatMap_cons, Task.claimed_issue hl, List.append_assoc]
  exact List.perm_middle.symm

/-- The head of the queue holds one claim, which no other read holds. -/
theorem take (h : Owned before ⟨r, t :: ts⟩) (head : t.queue = l :: queue) :
    ((t :: ts).flatMap Task.claimed).Perm
        (l.identity :: ({ t with queue }.unclaim l.identity :: ts).flatMap Task.claimed) ∧
      ({ t with queue }.unclaim l.identity).Tallied := by
  obtain ⟨hperm, htake⟩ := h.head_tallied.take h.head_nodup head
  refine ⟨?_, htake⟩
  rw [List.flatMap_cons, List.flatMap_cons]
  exact hperm.append_right _

/-- Consuming the head of the queue takes back its claim and no other. -/
theorem claims_of_take (h : Owned before ⟨r, t :: ts⟩) (head : t.queue = l :: queue) :
    l.identity ∈ (t :: ts).flatMap Task.claimed ∧
      ∀ i ∈ ({ t with queue }.unclaim l.identity :: ts).flatMap Task.claimed,
        i ∈ (t :: ts).flatMap Task.claimed ∧ i ≠ l.identity := by
  obtain ⟨hperm, -⟩ := h.take head
  obtain ⟨hnot, -⟩ := List.nodup_cons.1 (hperm.nodup_iff.1 h.held.distinct)
  refine ⟨hperm.mem_iff.2 List.mem_cons_self, fun i hi => ⟨?_, fun he => hnot (he ▸ hi)⟩⟩
  exact hperm.mem_iff.2 (List.mem_cons_of_mem _ hi)

/-- A read that is consumed takes its claim with it, whatever comes of it. -/
theorem consume (h : Owned before ⟨r, t :: ts⟩) (head : t.queue = l :: queue)
    (hc : t'.claimed = ({ t with queue }.unclaim l.identity).claimed)
    (hf : t'.inFlight = ({ t with queue }.unclaim l.identity).inFlight)
    (hp : ∀ i, i ∈ r'.pending ↔ i ∈ r.pending ∧ i ≠ l.identity)
    (hr : ∀ i, i ≠ l.identity → (i ∈ r'.identities ↔ i ∈ r.identities)) :
    Owned before ⟨r', t' :: ts⟩ := by
  obtain ⟨hperm, htallied⟩ := h.take head
  have hheld : Held before r ([l.identity] ++ (t' :: ts).flatMap Task.claimed) := by
    rw [List.flatMap_cons, hc]
    exact h.held.perm hperm
  refine ⟨hheld.letGo (by simpa using hp) (by simpa using hr),
    List.forall_mem_cons.2 ⟨?_, h.tail_tallied⟩⟩
  rw [Task.Tallied, hc, hf]
  exact htallied

/-- **No move of a task loses or doubles a claim.** -/
theorem move (h : Owned before ⟨r, t :: ts⟩) (hm : Task.Move (r, t) es (r', t')) :
    Owned (before ++ es) ⟨r', t' :: ts⟩ := by
  refine mono ?_ es
  cases hm with
  | warn w => exact h.same rfl h.head_tallied
  | issue l absent => exact h.issue absent
  | @park _ _ l queue head =>
      refine h.same rfl (h.head_tallied.of_perm rfl (List.Perm.map _ ?_))
      simp only [Task.inFlight, head]
      rw [← List.append_assoc]
      exact List.perm_append_singleton ..
  | fail src head bad =>
      exact h.consume head rfl rfl (fun i => Registry.mem_pending_release) fun i _ => Iff.rfl
  | discard src head good late =>
      refine h.consume head rfl rfl (fun i => ⟨fun hi => ⟨hi, ?_⟩, And.left⟩) fun i _ => Iff.rfl
      rintro rfl
      exact late hi
  | register src head good pending =>
      refine h.consume head rfl rfl (fun i => Registry.mem_pending_insert) fun i hi => ?_
      rw [Registry.mem_identities_insert, or_iff_right hi]

/-- Nothing is pending without a task. -/
theorem pending_eq_nil (h : Owned before a) (ha : a.tasks = []) : a.registry.pending = [] := by
  refine List.eq_nil_iff_forall_not_mem.2 fun identity hi => ?_
  have hmem := h.held.owned identity hi
  rw [ha] at hmem
  exact absurd hmem List.not_mem_nil

/-- A new task claims nothing yet. -/
theorem start (h : Owned before ⟨r, ts⟩) (scope : Scope) : Owned before ⟨r, { scope } :: ts⟩ :=
  ⟨h.held, List.forall_mem_cons.2 ⟨List.Perm.nil, h.tallied⟩⟩

/-- A task that is given up takes its claims with it. -/
theorem abandon (h : Owned before ⟨r, t :: ts⟩) : Owned before ⟨t.abandon r, ts⟩ := by
  rw [Task.abandon_eq]
  exact ⟨h.held.letGo (by simp) fun _ _ => Iff.rfl, h.tail_tallied⟩

/-- A task that is done leaves without any claims. -/
theorem finish (h : Owned before ⟨r, t :: ts⟩) (done : t.isDone = true) :
    Owned before ⟨r, ts⟩ := by
  have hheld := h.held
  rw [List.flatMap_cons, h.head_tallied.claimed_eq_nil done, List.nil_append] at hheld
  exact ⟨hheld, h.tail_tallied⟩

/-- Letting reads go changes no claim of any task. -/
theorem release (h : Owned before ⟨r, ts⟩) (path : String) :
    Owned before ⟨r, ts.map (Task.release path)⟩ := by
  refine ⟨?_, fun t ht => ?_⟩
  · rw [List.flatMap_map]
    exact h.held
  · obtain ⟨t', ht', rfl⟩ := List.mem_map.1 ht
    exact (h.tallied t' ht').release path

/-- The order of the tasks does not matter. -/
theorem yield (h : Owned before ⟨r, ts⟩) (hp : ts.Perm ts') : Owned before ⟨r, ts'⟩ :=
  ⟨h.held.perm (hp.flatMap_right _), fun t ht => h.tallied t (hp.mem_iff.2 ht)⟩

/-- **Ownership is kept by every step.** -/
theorem step (h : Step a es b) (ho : Owned before a) : Owned (before ++ es) b := by
  cases h with
  | edit identity m => exact ⟨ho.held.edit identity m, ho.tallied⟩
  | start scope => exact (ho.start scope).mono _
  | move hm => exact ho.move hm
  | finish done => exact (ho.finish done).mono _
  | abandon => exact ho.abandon.mono _
  | release path => exact (ho.release path).mono _
  | yield hp => exact (ho.yield hp).mono _

/-- What each step keeps, a course keeps. -/
theorem course (h : Course Step a es b) (ho : Owned before a) : Owned (before ++ es) b :=
  h.preserves step ho

end Owned
end Activity
end WrenAnalysis
