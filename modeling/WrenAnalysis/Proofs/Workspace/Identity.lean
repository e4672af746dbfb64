/-
# One file, one identity

A file has many spellings and one identity, its normal path.  Whatever a workspace keeps
about a file it keeps under the identity: `Registry.Normal` says so of a registry, and every
way into the registry keeps it, those of documents and of imports because they normalize,
and that of seeds if what is seeded is an identity.

So it does not matter by which spelling a document is opened, changed or asked about
(`Workspace.perform_one_identity`).
-/

import WrenAnalysis.Proofs.Index.Listing
import WrenAnalysis.Proofs.Resolution.Import
import WrenAnalysis.Proofs.Workspace.Publication

namespace WrenAnalysis

/-! ### Registries of identities -/

namespace Registry

/-- What is pending or ready is an identity: normalizing it changes nothing. -/
def Normal (r : Registry) : Prop :=
  ∀ identity, r.state identity ≠ .absent → ImportPath.identity identity = identity

namespace Normal

variable {r r' : Registry} {identity : String}

/-- A registry with less in it stays normal. -/
theorem of_subset (h : r.Normal) (hp : ∀ i ∈ r'.pending, i ∈ r.pending)
    (hi : ∀ i ∈ r'.identities, i ∈ r.identities) : r'.Normal := by
  intro i hs
  refine h i (state_ne_absent_iff.2 ?_)
  exact (state_ne_absent_iff.1 hs).imp (hp i) (hi i)

/-- Registering a module under an identity keeps the registry normal. -/
theorem insert (h : r.Normal) (hi : ImportPath.identity identity = identity) (m : Module) :
    (r.insert identity m).Normal := by
  intro i hs
  by_cases he : i = identity
  · rw [he, hi]
  · refine h i (state_ne_absent_iff.2 ?_)
    rw [state_ne_absent_iff, mem_pending_insert, mem_identities_insert] at hs
    exact hs.imp And.left fun hs => hs.resolve_left he

/-- Marking an identity pending keeps the registry normal. -/
theorem await (h : r.Normal) (hi : ImportPath.identity identity = identity) :
    (r.await identity).Normal := by
  intro i hs
  by_cases he : i = identity
  · rw [he, hi]
  · refine h i (state_ne_absent_iff.2 ?_)
    rw [state_ne_absent_iff, mem_pending_await] at hs
    exact hs.imp_left fun hs => hs.resolve_right he

/-- Taking back a mark keeps the registry normal. -/
theorem release (h : r.Normal) (identity : String) : (r.release identity).Normal :=
  h.of_subset (fun _ hi => (mem_pending_release.1 hi).1) fun _ hi => hi

/-- Giving up a task keeps the registry normal. -/
theorem abandon (h : r.Normal) (t : Task) : (t.abandon r).Normal := by
  rw [Task.abandon_eq]
  exact h.of_subset (fun _ hi => List.mem_of_mem_filter hi) fun _ hi => hi

/-! ### What tasks do to them -/

variable {src : Sources} {s s' : Registry × Task}

/-- An import is looked for under normal paths. -/
theorem follow (h : s.1.Normal) (src : Sources) (dir literal : String) :
    (Task.follow src dir s literal).1.Normal := by
  have hf := Task.follow_followed src dir literal s
  generalize Task.follow src dir s literal = s' at hf ⊢
  cases hf with
  | skipped => exact h
  | missing => exact h
  | read first => exact h.await (Path.normalize_normalize _)

/-- Following the imports of a module keeps the registry normal. -/
theorem followAll (h : s.1.Normal) (src : Sources) (dir : String) (m : Module) :
    (Task.followAll src dir m s).1.Normal := by
  unfold Task.followAll
  induction m.importLiterals generalizing s with
  | nil => exact h
  | cons literal literals ih => exact ih (h.follow src dir literal)

/-- A read is only registered while it is pending, so its identity is not new. -/
theorem consume {t : Task} (h : r.Normal) (src : Sources) (l : Load) :
    (Task.consume src (r, t) l).1.Normal := by
  cases hp : l.parse with
  | error w =>
      rw [Task.consume_of_error hp]
      exact h.release l.identity
  | ok m =>
      by_cases hm : l.identity ∈ r.pending
      · rw [Task.consume_of_pending hp hm]
        have hi := h l.identity (state_ne_absent_iff.2 (.inl hm))
        exact followAll (s := (_, _)) (h.insert hi m) src l.directory m
      · rw [Task.consume_of_late hp hm]
        exact h

/-- A turn of a task keeps the registry normal. -/
theorem turn (h : s.1.Normal) (turned : Task.turn? src s = some s') : s'.1.Normal := by
  unfold Task.turn? at turned
  split at turned
  · cases turned
  · dsimp only at turned
    split_ifs at turned
    · obtain rfl := Option.some.inj turned
      exact h
    · obtain rfl := Option.some.inj turned
      exact h.consume src _

/-- A task keeps the registry normal while it runs. -/
theorem drain (h : s.1.Normal) (src : Sources) : (Task.drain src s).1.Normal := by
  unfold Task.drain
  induction Task.turnBound src.library s.2 generalizing s with
  | zero => exact h
  | succ turns ih =>
      unfold Task.drainUpTo
      cases ht : Task.turn? src s with
      | none => exact h
      | some s' => exact ih (h.turn ht)

end Normal
end Registry

/-! ### Workspaces -/

namespace Workspace

variable {w : Workspace} {a : Action} {l : Launch}

/-- Starting a task keeps the registry normal. -/
theorem normal_of_launch? (h : w.registry.Normal) (launched : w.launch? a = some l) :
    l.workspace.registry.Normal := by
  rcases launch?_cases launched with ⟨path, m, name, -, rfl⟩ | ⟨_, _, _, _, _, -, rfl⟩ |
    ⟨name, t, -, -, rfl⟩
  · have hi : ImportPath.identity (ImportPath.identity path) = ImportPath.identity path :=
      Path.normalize_normalize path
    exact Registry.Normal.followAll (s := (_, _)) (h.insert hi m) _ _ m
  · exact Registry.Normal.followAll (s := (_, _)) h _ _ _
  · exact h

/-- Dropping a task keeps the registry normal. -/
theorem normal_dropTask (h : w.registry.Normal) (name : String) :
    (w.dropTask name).registry.Normal := by
  unfold dropTask
  cases w.tasks.lookup name with
  | none => exact h
  | some t => exact h.abandon t

/-- **Every action keeps to identities**, if a seed is one. -/
theorem normal_act (h : w.registry.Normal)
    (seeds : ∀ identity text, a = .seed identity text → ImportPath.identity identity = identity) :
    (w.act a).1.registry.Normal := by
  have hdrained : ∀ {l : Launch}, w.launch? a = some l → l.drained.1.Normal :=
    fun launched => Registry.Normal.drain (s := (_, _)) (normal_of_launch? h launched) _
  have hc := act_comesTo w a
  generalize w.act a = r at hc ⊢
  cases hc with
  | finished reads launched =>
      dsimp only
      split_ifs <;> exact hdrained launched
  | @blocked _ l name reads launched =>
      exact normal_dropTask (w := l.around) (hdrained launched) name
  | dropped reads launched => exact (hdrained launched).abandon _
  | @seeded identity text m good =>
      have hseed := h.insert (seeds identity text rfl) m
      unfold publishIfSettled
      dsimp only
      split_ifs <;> exact hseed
  | gaveUp name held => exact normal_dropTask h name
  | released path count => exact h
  | rested => exact h

/-- **All that is ever pending or ready is an identity**, if what is seeded is. -/
theorem normal_perform (h : w.registry.Normal) {actions : List Action}
    (seeds : ∀ identity text, Action.seed identity text ∈ actions →
      ImportPath.identity identity = identity) : (w.perform actions).registry.Normal := by
  induction actions generalizing w with
  | nil => exact h
  | cons a actions ih =>
      refine ih (normal_act h fun identity text ha => ?_) fun identity text ha => ?_
      · exact seeds identity text (ha ▸ List.mem_cons_self)
      · exact seeds identity text (List.mem_cons_of_mem _ ha)

/-! ### What is published -/

/-- The index published last is that of some registry. -/
def Published (w : Workspace) : Prop := ∃ r budget, w.index = Index.build r budget

/-- A published index is one of the registry as it is. -/
theorem published_publish (w : Workspace) : w.publish.Published := ⟨w.registry, w.walkBudget, rfl⟩

/-- Only the index matters. -/
theorem Published.of_index {w' : Workspace} (h : w.Published) (same : w'.index = w.index) :
    w'.Published := by
  rwa [Published, same]

/-- After any action the index is one that was published. -/
theorem Published.act (h : w.Published) (a : Action) : (w.act a).1.Published := by
  have hc := act_comesTo w a
  generalize w.act a = r at hc ⊢
  cases hc with
  | finished reads launched =>
      dsimp only
      split_ifs
      · exact published_publish _
      · exact h.of_index (index_of_launch? launched)
  | @blocked _ l name reads launched =>
      exact h.of_index ((index_dropTask l.around name).trans (index_of_launch? launched))
  | dropped reads launched => exact h.of_index (index_of_launch? launched)
  | seeded good =>
      unfold publishIfSettled
      dsimp only
      split_ifs
      · exact published_publish _
      · exact h
  | gaveUp name held => exact h.of_index (index_dropTask w name)
  | released path count => exact h
  | rested => exact h

/-- After any run the index is one that was published. -/
theorem Published.perform (h : w.Published) (actions : List Action) :
    (w.perform actions).Published := by
  induction actions generalizing w with
  | nil => exact h
  | cons a actions ih => exact ih (h.act a)

/-! ### Spellings -/

/-- Two spellings of a path change the same document. -/
theorem change_congr {p q : String} (w : Workspace)
    (same : ImportPath.identity p = ImportPath.identity q) (text : String)
    (name : Option String) : w.change p text name = w.change q text name := by
  rw [← change_identity, same, change_identity]

/-- Two spellings of a path open the same document. -/
theorem openDocument_congr {p q : String} (w : Workspace)
    (same : ImportPath.identity p = ImportPath.identity q) (text : String)
    (name : Option String) : w.openDocument p text name = w.openDocument q text name := by
  simp only [openDocument, same]

/-- **One file, one identity.**  After any run in which what is seeded is an identity, all
that is pending or ready is an identity; a document that is changed or opened by another
spelling of its path comes to the same, in all that the workspace holds and in all that is
reported; and what a document binds, asked for by any spelling, is what the one file with
its identity has in the index published last, or nothing if there is none. -/
theorem perform_one_identity (files : List (String × Option String))
    (gated searchPaths : List String) (walkBudget : Nat) (actions : List Action)
    (seeds : ∀ identity text, Action.seed identity text ∈ actions →
      ImportPath.identity identity = identity) :
    let w := (fresh files gated searchPaths walkBudget).perform actions
    (∀ identity, w.registry.state identity ≠ .absent →
        ImportPath.identity identity = identity) ∧
      (∀ p q, ImportPath.identity p = ImportPath.identity q → ∀ text name,
        w.act (.change p text name) = w.act (.change q text name) ∧
          w.act (.openDocument p text name) = w.act (.openDocument q text name)) ∧
      (w.index.files.map (·.identity)).Nodup ∧
      ∀ p, w.boundIn p =
        ((w.index.files.find? (·.identity = ImportPath.identity p)).map (·.bound)).getD [] := by
  intro w
  have hempty : (fresh files gated searchPaths walkBudget).registry.Normal :=
    fun identity hs => absurd rfl hs
  have hnormal : w.registry.Normal := normal_perform hempty seeds
  have hstart : (fresh files gated searchPaths walkBudget).Published := ⟨{}, walkBudget, rfl⟩
  obtain ⟨r, budget, hindex⟩ : w.Published := hstart.perform actions
  refine ⟨hnormal, fun p q same text name => ?_, ?_, fun p => ?_⟩
  · exact ⟨change_congr w same text name, openDocument_congr w same text name⟩
  · rw [hindex, Index.identities_build]
    exact r.distinct
  · rw [boundIn, hindex, Index.variablesIn_build]

/-- A library is seeded, and a document is opened by a path that is not normal. -/
theorem perform_one_identity_of_core :
    let files := [("/p/b.wren", some "class B \x7b\x7d")]
    let actions : List Action := [.seed "<core>" "class Object \x7b\x7d",
      .openDocument "/p/x/../a.wren" "import \"b\"\nvar a = 1" none]
    let w := (fresh files [] [] 100).perform actions
    (∀ identity text, Action.seed identity text ∈ actions →
        ImportPath.identity identity = identity) ∧
      (∀ identity, w.registry.state identity ≠ .absent →
        ImportPath.identity identity = identity) ∧
      w.registry.identities = ["<core>", "/p/a.wren", "/p/b.wren"] ∧
      w.boundIn "/p/./a.wren" = [⟨"a", .variable_⟩] := by
  intro files actions w
  have seeds : ∀ identity text, Action.seed identity text ∈ actions →
      ImportPath.identity identity = identity := by
    intro identity text h
    obtain ⟨rfl, -⟩ : identity = "<core>" ∧ text = "class Object \x7b\x7d" := by
      simpa [actions] using h
    decide +kernel
  have hall := perform_one_identity files [] [] 100 actions seeds
  refine ⟨seeds, hall.1, by decide +kernel, ?_⟩
  refine (hall.2.2.2 "/p/./a.wren").trans ?_
  decide +kernel

end Workspace
end WrenAnalysis
