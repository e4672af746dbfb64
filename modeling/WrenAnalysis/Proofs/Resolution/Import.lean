/-
# What comes of an import

An import that is followed is skipped, warned about, or read (`Task.Followed`).  It is
read if none of its candidates is ready or pending and one of them exists
(`Inquiry.read?`), and it is skipped if it needs no file or has a candidate that somebody
has loaded or is loading.

A skipped import rests on a load that has not ended.  That is safe as long as the load
ends: an identity that is not absent stays so until a warning tells that its file failed
(`Task.answered_of_course`).  Hence every import of a module is accounted for from the
moment it is followed (`Task.followAll_accounts`), whatever the task does later.
-/

import Mathlib.Data.List.Nodup
import WrenAnalysis.Proofs.Resolution.Course

namespace WrenAnalysis

/-- The identity of the file that a warning is about. -/
def Warning.failed? : Warning → Option String
  | importNotFound _ _ => none
  | readFailure identity _ => some identity
  | badSyntax identity _ => some identity

/-- A read that fails leaves a warning about its own identity. -/
theorem Load.failed?_of_error {l : Load} {w : Warning} (bad : l.parse = .error w) :
    w.failed? = some l.identity := by
  unfold Load.parse at bad
  split at bad
  · obtain rfl := Except.error.inj bad
    rfl
  · split at bad
    · obtain rfl := Except.error.inj bad
      rfl
    · cases bad

/-- What is not absent is pending or ready. -/
theorem Registry.state_ne_absent_iff {r : Registry} {identity : String} :
    r.state identity ≠ .absent ↔ identity ∈ r.pending ∨ identity ∈ r.identities := by
  rw [Ne, state_eq_absent_iff, not_and_or, not_not, not_not]

namespace Sources

/-- Where the file of an import is looked for. -/
def candidates (src : Sources) (dir literal : String) : List String :=
  ImportPath.candidates dir (ImportPath.file literal) src.searchPaths

/-- A read of a path, issued now. -/
def load (src : Sources) (path : String) : Load :=
  ⟨ImportPath.identity path, path, src.library.read path, Path.normalize path ∈ src.gates⟩

end Sources

/-- An import about to be followed, and the registry that it meets. -/
structure Inquiry where
  registry : Registry
  /-- The directory of the importing file. -/
  dir : String
  literal : String

namespace Inquiry

/-- The path that is read for an import: the first candidate that exists, unless one of
them is ready or pending. -/
def read? (src : Sources) (q : Inquiry) : Option String :=
  if ImportPath.isBuiltin q.literal then none
  else if (src.candidates q.dir q.literal).any fun path =>
      q.registry.state (ImportPath.identity path) ≠ .absent then none
  else (src.candidates q.dir q.literal).find? src.library.contains

variable {src : Sources} {q : Inquiry} {path : String}

/-- A file is read for an import if all its candidates are absent and it is the first of them
that exists. -/
theorem read?_eq_some_iff :
    q.read? src = some path ↔ ImportPath.isBuiltin q.literal = false ∧
      (∀ other ∈ src.candidates q.dir q.literal,
        q.registry.state (ImportPath.identity other) = .absent) ∧
      (src.candidates q.dir q.literal).find? src.library.contains = some path := by
  unfold read?
  split_ifs with hb hk
  · simp [hb]
  · obtain ⟨other, hmem, hother⟩ := List.any_eq_true.1 hk
    refine ⟨False.elim, fun h => ?_⟩
    exact absurd (h.2.1 other hmem) (of_decide_eq_true hother)
  · rw [List.any_eq_true] at hk
    have hall : ∀ other ∈ src.candidates q.dir q.literal,
        q.registry.state (ImportPath.identity other) = .absent := fun other hmem => by
      by_contra hother
      exact hk ⟨other, hmem, decide_eq_true hother⟩
    rw [Bool.not_eq_true] at hb
    exact ⟨fun h => ⟨hb, hall, h⟩, fun h => h.2.2⟩

/-- The file read for an import is one of its candidates. -/
theorem mem_candidates_of_read? (h : q.read? src = some path) :
    path ∈ src.candidates q.dir q.literal :=
  List.mem_of_find?_eq_some (read?_eq_some_iff.1 h).2.2

/-- The file read for an import is absent before. -/
theorem absent_of_read? (h : q.read? src = some path) :
    q.registry.state (ImportPath.identity path) = .absent :=
  (read?_eq_some_iff.1 h).2.1 path (mem_candidates_of_read? h)

end Inquiry

namespace Task

variable {src : Sources} {dir literal : String} {r : Registry} {t : Task}

/-- What can come of an import that is followed. -/
inductive Followed (src : Sources) (dir literal : String) :
    Registry × Task → Registry × Task → Prop
  /-- No file is needed, or a candidate is ready or pending. -/
  | skipped {r : Registry} {t : Task} (unread : (Inquiry.mk r dir literal).read? src = none)
      (reason : ImportPath.isBuiltin literal = true ∨ ∃ path ∈ src.candidates dir literal,
        r.state (ImportPath.identity path) ≠ .absent) :
      Followed src dir literal (r, t) (r, t)
  | missing {r : Registry} {t : Task} (unread : (Inquiry.mk r dir literal).read? src = none)
      (nowhere : ∀ path ∈ src.candidates dir literal, src.library.contains path = false) :
      Followed src dir literal (r, t) (r, t.warn (.importNotFound (ImportPath.file literal) dir))
  | read {r : Registry} {t : Task} {path : String}
      (first : (Inquiry.mk r dir literal).read? src = some path) :
      Followed src dir literal (r, t) (r.await (ImportPath.identity path), t.issue (src.load path))

/-- **What an import comes to.**  All that is shown of single imports rests on this. -/
theorem follow_followed (src : Sources) (dir literal : String) (s : Registry × Task) :
    Followed src dir literal s (follow src dir s literal) := by
  obtain ⟨r, t⟩ := s
  simp only [follow]
  split_ifs with hb hk
  · exact .skipped (if_pos hb) (.inl hb)
  · obtain ⟨path, hmem, hpath⟩ := List.any_eq_true.1 hk
    have hread : (Inquiry.mk r dir literal).read? src = none := by
      unfold Inquiry.read?
      rw [if_neg hb]
      exact if_pos hk
    exact .skipped hread (.inr ⟨path, hmem, of_decide_eq_true hpath⟩)
  · have hread : (Inquiry.mk r dir literal).read? src =
        (src.candidates dir literal).find? src.library.contains := by
      unfold Inquiry.read?
      rw [if_neg hb]
      exact if_neg hk
    split
    · rename_i hnone
      refine .missing (hread.trans hnone) fun path hmem => ?_
      exact Bool.eq_false_iff.2 (List.find?_eq_none.1 hnone path hmem)
    · rename_i path hsome
      have first := hread.trans hsome
      have hbegin : r.begin? (ImportPath.identity path) =
          some (r.await (ImportPath.identity path)) :=
        if_pos (Inquiry.absent_of_read? first)
      rw [hbegin]
      exact .read first

/-! ### Answers -/

/-- A warning tells that the file of an identity failed. -/
def failed (t : Task) (identity : String) : Prop :=
  ∃ w ∈ t.warnings, w.failed? = some identity

/-- An identity is ready or pending, or its file failed. -/
def Answered (s : Registry × Task) (identity : String) : Prop :=
  s.1.state identity ≠ .absent ∨ s.2.failed identity

/-- A warning is added to those before. -/
theorem mem_warnings_warn {t : Task} {w w' : Warning} :
    w' ∈ (t.warn w).warnings ↔ w' ∈ t.warnings ∨ w' = w := by
  rw [warn, List.mem_append, List.mem_singleton]

/-- A task forgets no warning. -/
theorem warnings_of_move {s s' : Registry × Task} {es : List Event} (h : Move s es s') :
    s.2.warnings ⊆ s'.2.warnings := by
  cases h with
  | warn w => exact List.subset_append_left _ _
  | fail => exact List.subset_append_left _ _
  | _ => exact List.Subset.refl _

/-- No warning is taken back. -/
theorem warnings_of_course {s s' : Registry × Task} {es : List Event} (h : Course Move s es s') :
    s.2.warnings ⊆ s'.2.warnings := by
  induction h with
  | refl => exact List.Subset.refl _
  | cons hm _ ih => exact List.Subset.trans (warnings_of_move hm) ih

/-- An identity stays answered for with every move. -/
theorem answered_of_move {s s' : Registry × Task} {es : List Event} {identity : String}
    (h : Move s es s') (hi : Answered s identity) : Answered s' identity := by
  rcases hi with hi | ⟨w, hw, hf⟩
  · rw [Registry.state_ne_absent_iff] at hi
    unfold Answered
    rw [Registry.state_ne_absent_iff]
    cases h with
    | warn w => exact .inl hi
    | issue l absent => exact .inl (hi.imp_left fun hp => Registry.mem_pending_await.2 (.inl hp))
    | park head => exact .inl hi
    | @fail r t l queue src head w bad =>
        rcases hi with hp | hr
        · by_cases he : identity = l.identity
          · refine .inr ⟨w, mem_warnings_warn.2 (.inr rfl), ?_⟩
            rw [he, Load.failed?_of_error bad]
          · exact .inl (.inl (Registry.mem_pending_release.2 ⟨hp, he⟩))
        · exact .inl (.inr hr)
    | discard src head good late => exact .inl hi
    | @register r t l queue src head m good pending =>
        rw [Registry.mem_pending_insert, Registry.mem_identities_insert]
        rcases hi with hp | hr
        · by_cases he : identity = l.identity
          · exact .inl (.inr (.inl he))
          · exact .inl (.inl ⟨hp, he⟩)
        · exact .inl (.inr (.inr hr))
  · exact .inr ⟨w, warnings_of_move h hw, hf⟩

/-- **An identity that is not absent stays so until its file fails.** -/
theorem answered_of_course {s s' : Registry × Task} {es : List Event} {identity : String}
    (h : Course Move s es s') (hi : Answered s identity) : Answered s' identity := by
  induction h with
  | refl => exact hi
  | cons hm _ ih => exact ih (answered_of_move hm hi)

end Task

/-! ### Accounts -/

/-- Why nothing more is to be done for an import: it needs no file, its task has warned
that it has none, or one of its candidates has an answer. -/
inductive Accounted (searchPaths : List String) (own : List Warning) (answered : String → Prop)
    (dir literal : String) : Prop
  | builtin (h : ImportPath.isBuiltin literal = true)
  | missing (h : Warning.importNotFound (ImportPath.file literal) dir ∈ own)
  | answered {path : String}
      (mem : path ∈ ImportPath.candidates dir (ImportPath.file literal) searchPaths)
      (h : answered (ImportPath.identity path))

/-- More warnings and more answers account for as much. -/
theorem Accounted.mono {searchPaths : List String} {own own' : List Warning}
    {answered answered' : String → Prop} {dir literal : String}
    (h : Accounted searchPaths own answered dir literal) (hown : own ⊆ own')
    (hans : ∀ identity, answered identity → answered' identity) :
    Accounted searchPaths own' answered' dir literal := by
  cases h with
  | builtin hb => exact .builtin hb
  | missing hw => exact .missing (hown hw)
  | answered mem ha => exact .answered mem (hans _ ha)

namespace Task

variable {src : Sources} {dir literal : String}

/-- A task accounts for an import. -/
def Accounts (src : Sources) (s : Registry × Task) (dir literal : String) : Prop :=
  Accounted src.searchPaths s.2.warnings (Answered s) dir literal

/-- An import stays accounted for with every move. -/
theorem Accounts.course {s s' : Registry × Task} {es : List Event}
    (h : Accounts src s dir literal) (hc : Course Move s es s') : Accounts src s' dir literal :=
  h.mono (warnings_of_course hc) fun _ => answered_of_course hc

/-- An import is accounted for once it is followed. -/
theorem follow_accounts (src : Sources) (dir literal : String) (s : Registry × Task) :
    Accounts src (follow src dir s literal) dir literal := by
  have hf := follow_followed src dir literal s
  generalize follow src dir s literal = s' at hf ⊢
  cases hf with
  | skipped unread reason =>
      rcases reason with hb | ⟨path, hmem, hpath⟩
      · exact .builtin hb
      · exact .answered hmem (.inl hpath)
  | missing unread nowhere => exact .missing (mem_warnings_warn.2 (.inr rfl))
  | read first =>
      have hmem := Inquiry.mem_candidates_of_read? first
      refine .answered hmem (.inl ?_)
      rw [Registry.state_ne_absent_iff, Registry.mem_pending_await]
      exact .inl (.inr rfl)

/-- **Every import of a module is accounted for once they are followed.** -/
theorem followAll_accounts (src : Sources) (dir : String) (m : Module) (s : Registry × Task) :
    ∀ literal ∈ m.importLiterals, Accounts src (followAll src dir m s) dir literal := by
  unfold followAll
  induction m.importLiterals generalizing s with
  | nil => exact fun _ h => absurd h List.not_mem_nil
  | cons first literals ih =>
      intro literal hmem
      rcases List.mem_cons.1 hmem with rfl | hmem
      · exact (follow_accounts src dir literal s).course (foldl_follow_course src dir literals _)
      · exact ih _ literal hmem

end Task
end WrenAnalysis
