/-
# Layers of search paths

Search paths come from a settings text, from lists, one by one, and later from the actions on
a workspace.  Whatever the order, the list holds the first of each path that was added, told
apart by their steps (`Settings.Gathered.searchPaths_eq`, `Workspace.searchPaths_perform`),
and it grows at its end only.

Paths with the same steps lead to the same candidates of an import, so what is left out of
the list is never missed (`addedOnce_sameLookup`).

Nothing depends on the format of a settings text: every reader of such texts will do.
-/

import WrenAnalysis.Command.Run
import WrenAnalysis.Proofs.Distinct
import WrenAnalysis.Proofs.Path.NormalForm
import WrenAnalysis.Proofs.Workspace.Run

namespace WrenAnalysis

/-! ### Adding search paths -/

/-- Adding search paths keeps the first of those with the same steps. -/
theorem foldl_addSearchPath (paths : List String) :
    paths.foldl addSearchPath [] = paths.eraseDupsBy Path.same := by
  have h : paths.foldl addSearchPath [] = _ := foldl_addNew Path.same paths []
  rw [h]
  simp

/-- Adding a search path keeps those before it. -/
theorem addSearchPath_extends (paths : List String) (path : String) :
    paths <+: addSearchPath paths path := by
  unfold addSearchPath
  split_ifs
  · exact List.prefix_rfl
  · exact List.prefix_append paths [path]

/-- Adding search paths keeps those before them. -/
theorem foldl_addSearchPath_extends (added paths : List String) :
    paths <+: added.foldl addSearchPath paths := by
  induction added generalizing paths with
  | nil => exact List.prefix_rfl
  | cons path added ih => exact (addSearchPath_extends paths path).trans (ih _)

/-! ### What an import finds -/

/-- Every import comes to the same with either list of search paths. -/
structure SameLookup (paths paths' : List String) : Prop where
  /-- Some candidate is ready or pending. -/
  known : ∀ (r : Registry) (origin literal : String),
    ((ImportPath.candidates origin (ImportPath.file literal) paths).any fun c =>
        r.state (ImportPath.identity c) ≠ .absent) =
      (ImportPath.candidates origin (ImportPath.file literal) paths').any fun c =>
        r.state (ImportPath.identity c) ≠ .absent
  /-- The first candidate that exists. -/
  first : ∀ (l : Library) (origin literal : String),
    (ImportPath.candidates origin (ImportPath.file literal) paths).find? l.contains =
      (ImportPath.candidates origin (ImportPath.file literal) paths').find? l.contains
  follow : ∀ (l : Library) (gates : List String) (origin literal : String) (s : Registry × Task),
    Task.follow ⟨l, gates, paths⟩ origin s literal =
      Task.follow ⟨l, gates, paths'⟩ origin s literal

/-- The first candidate of an import is found without the repeated search paths too. -/
theorem find?_candidates_eraseDupsBy (origin file : String) (paths : List String)
    (p : String → Bool) :
    (ImportPath.candidates origin file (paths.eraseDupsBy Path.same)).find? p =
      (ImportPath.candidates origin file paths).find? p := by
  have hsame : ∀ a b, Path.same a b = true →
      Path.normalize (Path.join a file) = Path.normalize (Path.join b file) := by
    intro a b hab
    have hsteps : Path.components a = Path.components b := of_decide_eq_true hab
    exact Path.normalize_join_congr file (Path.normalize_congr (congrArg _ hsteps))
  rw [ImportPath.candidates, ImportPath.candidates, List.map_cons, List.map_cons,
    List.find?_cons, List.find?_cons, find?_map_eraseDupsBy hsame]

/-- **No import misses a search path that was left out.** -/
theorem addedOnce_sameLookup (paths : List String) :
    SameLookup (paths.eraseDupsBy Path.same) paths := by
  have hfind := fun origin literal => find?_candidates_eraseDupsBy origin
    (ImportPath.file literal) paths
  have hknown : ∀ (r : Registry) (origin literal : String),
      ((ImportPath.candidates origin (ImportPath.file literal)
          (paths.eraseDupsBy Path.same)).any fun c =>
            r.state (ImportPath.identity c) ≠ .absent) =
        (ImportPath.candidates origin (ImportPath.file literal) paths).any fun c =>
          r.state (ImportPath.identity c) ≠ .absent := by
    intro r origin literal
    rw [← List.isSome_find?, ← List.isSome_find?, hfind]
  refine ⟨hknown, fun l origin literal => hfind origin literal _, ?_⟩
  intro l gates origin literal s
  simp only [Task.follow, hknown, hfind]

/-! ### Settings -/

namespace Settings

/-- The search paths of an entry of a settings text. -/
def listed : String × Value → List String
  | ("search-paths", .strings paths) => paths
  | _ => []

/-- The search paths of a settings text, taken from `base`. -/
def written (read : Reader) (text base : String) : List String :=
  (((read text).getD []).flatMap listed).map (Path.join base)

/-- Settings to which search paths were added: the paths, in order, as often as they came. -/
inductive Gathered (read : Reader) : Settings → List String → Prop
  | default : Gathered read {} []
  | text {s : Settings} {text base : String} (h : parseWith read text base = .ok s) :
      Gathered read s (written read text base)
  | list {s : Settings} {added : List String} (h : Gathered read s added) (list : String) :
      Gathered read (s.addList list) (added ++ splitPaths list)
  | path {s : Settings} {added : List String} (h : Gathered read s added) (path : String) :
      Gathered read (s.add path) (added ++ [path])

variable {read : Reader} {s s' : Settings} {added : List String} {base : String}

/-- Paths are added to settings one by one. -/
theorem searchPaths_foldl_add (s : Settings) (paths : List String) :
    (paths.foldl add s).searchPaths = paths.foldl addSearchPath s.searchPaths := by
  induction paths generalizing s with
  | nil => rfl
  | cons path paths ih => exact ih (s.add path)

/-- The paths of a list are added to settings one by one. -/
theorem searchPaths_addList (s : Settings) (list : String) :
    (s.addList list).searchPaths = (splitPaths list).foldl addSearchPath s.searchPaths :=
  searchPaths_foldl_add s _

/-- An entry of a settings text adds the search paths that it lists. -/
theorem searchPaths_adopt? {e : String × Value} (h : adopt? base s e = some s') :
    s'.searchPaths = ((listed e).map (Path.join base)).foldl addSearchPath s.searchPaths := by
  unfold adopt? at h
  split at h
  · next paths =>
    obtain rfl := Option.some.inj h
    have hfold : paths.foldl (fun s path => s.add (Path.join base path)) s =
        (paths.map (Path.join base)).foldl add s := by rw [List.foldl_map]
    rw [hfold, searchPaths_foldl_add]
    rfl
  · split_ifs at h <;> obtain rfl := Option.some.inj h <;> rfl
  · cases h

/-- The entries of a settings text add the search paths that they list. -/
theorem searchPaths_foldlM_adopt? {entries : List (String × Value)}
    (h : entries.foldlM (adopt? base) s = some s') :
    s'.searchPaths =
      ((entries.flatMap listed).map (Path.join base)).foldl addSearchPath s.searchPaths := by
  induction entries generalizing s with
  | nil =>
    obtain rfl := Option.some.inj h
    rfl
  | cons e entries ih =>
    rw [List.foldlM_cons] at h
    obtain ⟨next, hnext, hrest⟩ := Option.bind_eq_some_iff.1 h
    rw [ih hrest, searchPaths_adopt? hnext, List.flatMap_cons, List.map_append, List.foldl_append]

/-- The settings of a text have the search paths that the text lists. -/
theorem searchPaths_parseWith {text : String} (h : parseWith read text base = .ok s) :
    s.searchPaths = (written read text base).foldl addSearchPath [] := by
  unfold parseWith at h
  split at h
  · next s' hs' =>
    obtain rfl := Except.ok.inj h
    obtain ⟨entries, hentries, hfold⟩ := Option.bind_eq_some_iff.1 hs'
    rw [written, hentries]
    exact searchPaths_foldlM_adopt? hfold
  · cases h

/-- **The search paths of settings are those that were added, each once.** -/
theorem Gathered.searchPaths_eq (h : s.Gathered read added) :
    s.searchPaths = added.foldl addSearchPath [] := by
  induction h with
  | default => rfl
  | text h => exact searchPaths_parseWith h
  | list _ list ih => rw [searchPaths_addList, ih, List.foldl_append]
  | path _ path ih =>
    rw [List.foldl_append, ← ih]
    rfl

end Settings

/-! ### Workspaces -/

/-- The search path that an action adds. -/
def Action.added : Action → List String
  | .addSearchPath path => [path]
  | _ => []

namespace Workspace

/-- Dropping a task adds no search path. -/
theorem searchPaths_dropTask (w : Workspace) (name : String) :
    (w.dropTask name).searchPaths = w.searchPaths := by
  unfold dropTask
  split <;> rfl

/-- Publishing adds no search path. -/
theorem searchPaths_publishIfSettled (w : Workspace) :
    w.publishIfSettled.searchPaths = w.searchPaths := by
  unfold publishIfSettled
  split_ifs <;> rfl

/-- A task that runs adds no search path. -/
theorem searchPaths_run (w : Workspace) (name : Option String) (seen : Nat) (t : Task) :
    (w.run name seen t).1.searchPaths = w.searchPaths := by
  unfold run
  dsimp only
  split_ifs
  · rfl
  · rfl
  · cases name with
    | none => rfl
    | some name => exact searchPaths_dropTask _ name

/-- A changed document adds no search path. -/
theorem searchPaths_change (w : Workspace) (path text : String) (name : Option String) :
    (w.change path text name).1.searchPaths = w.searchPaths := by
  unfold change
  split
  · rfl
  · exact searchPaths_run ..

/-- An action adds the search path that it names. -/
theorem searchPaths_act (w : Workspace) (a : Action) :
    (w.act a).1.searchPaths = a.added.foldl WrenAnalysis.addSearchPath w.searchPaths := by
  cases a with
  | seed identity text =>
    simp only [act, seed]
    split
    · rfl
    · exact searchPaths_publishIfSettled _
  | change path text name => exact searchPaths_change w path text name
  | openDocument path text name =>
    simp only [act, openDocument]
    split_ifs
    · rfl
    · exact searchPaths_change ..
  | resolve text origin searchPaths name =>
    simp only [act, resolve]
    split
    · rfl
    · exact searchPaths_run ..
  | poll name =>
    simp only [act, poll]
    split
    · rfl
    · exact searchPaths_run ..
  | drop name => exact searchPaths_dropTask w name
  | gate path =>
    simp only [act, gate]
    split_ifs <;> rfl
  | _ => rfl

/-- Only actions that say so add to the search paths of a workspace. -/
theorem searchPaths_perform (w : Workspace) (actions : List Action) :
    (w.perform actions).searchPaths =
      (actions.flatMap Action.added).foldl WrenAnalysis.addSearchPath w.searchPaths := by
  induction actions generalizing w with
  | nil => rfl
  | cons a actions ih =>
    rw [perform_cons, ih, searchPaths_act, List.flatMap_cons, List.foldl_append]

end Workspace

/-! ### The command line -/

namespace Command

/-- The search paths of the settings file of a command. -/
def filePaths (m : Machine) (c : Context) : List String :=
  match c.config.orElse fun _ => Settings.discover m.disk (Disk.absolute m.disk.cwd) with
  | none => []
  | some path =>
    match m.disk.read path with
    | .ok text => Settings.written m.reader text ((Path.parent? path).getD ".")
    | .error _ => []

/-- The search paths added for a command: those of its settings file, of the list in its
environment, and of its options. -/
def given (m : Machine) (c : Context) : List String :=
  filePaths m c ++ (m.searchList.map Settings.splitPaths).getD [] ++ c.includes

/-- Settings to which more paths are added have gathered them. -/
theorem gathered_foldl_add {read : Settings.Reader} {s : Settings} {added : List String}
    (h : s.Gathered read added) (paths : List String) :
    (paths.foldl Settings.add s).Gathered read (added ++ paths) := by
  induction paths generalizing s added with
  | nil => rwa [List.append_nil]
  | cons path paths ih =>
    have hrest := ih (h.path path)
    rwa [List.append_assoc, List.singleton_append] at hrest

/-- A settings file that is read is a settings text. -/
theorem gathered_loadWith {read : Settings.Reader} {d : Disk} {path : String} {s : Settings}
    (h : Settings.loadWith read d path = .ok s) : ∃ text, d.read path = .ok text ∧
      s.Gathered read (Settings.written read text ((Path.parent? path).getD ".")) := by
  unfold Settings.loadWith at h
  split at h
  · cases h
  · next text htext =>
    split at h
    · cases h
    · next s' hs' =>
      obtain rfl := Except.ok.inj h
      exact ⟨text, htext, .text hs'⟩

/-- The settings of a command have gathered the search paths given for it. -/
theorem gathered_settings {m : Machine} {c : Context} {s : Settings}
    (h : settings m c = .ok s) : s.Gathered m.reader (given m c) := by
  -- The list and the options come on top of the settings file, whatever that is.
  have hlayers : ∀ {base : Settings}, base.Gathered m.reader (filePaths m c) →
      s = c.includes.foldl Settings.add (m.searchList.elim base base.addList) →
        s.Gathered m.reader (given m c) := by
    rintro base hbase rfl
    refine gathered_foldl_add ?_ c.includes
    cases m.searchList with
    | none => exact (List.append_nil _).symm ▸ hbase
    | some list => exact hbase.list list
  unfold settings at h
  unfold filePaths at hlayers
  cases hfile : c.config.orElse fun _ => Settings.discover m.disk (Disk.absolute m.disk.cwd) with
  | none =>
    rw [hfile] at h hlayers
    refine hlayers .default ?_
    rw [← Except.ok.inj h]
    cases m.searchList <;> rfl
  | some path =>
    rw [hfile] at h hlayers
    cases hload : Settings.loadWith m.reader m.disk path with
    | error e =>
      simp only [hload] at h
      cases h
    | ok base =>
      simp only [hload] at h
      obtain ⟨text, htext, hbase⟩ := gathered_loadWith hload
      simp only [htext] at hlayers
      refine hlayers hbase ?_
      rw [← Except.ok.inj h]
      cases m.searchList <;> rfl

end Command

/-! ### All layers -/

/-- A list of search paths holds the first of each path that was added, and none is missed. -/
structure Layered (paths added : List String) : Prop where
  distinct : paths.Pairwise fun p q => Path.components p ≠ Path.components q
  firsts : paths = added.eraseDupsBy Path.same
  inOrder : paths.Sublist added
  lookup : SameLookup paths added

/-- Search paths that are added one by one come in layers. -/
theorem layered_foldl_addSearchPath (added : List String) :
    Layered (added.foldl addSearchPath []) added := by
  rw [foldl_addSearchPath]
  refine ⟨(pairwise_eraseDupsBy added).imp fun h he => ?_, rfl, eraseDupsBy_sublist added,
    addedOnce_sameLookup added⟩
  exact of_decide_eq_false h he.symm

/-- **Search paths come in layers.**  A workspace begins with the search paths of its settings
and is given more by its actions.  Its list has no two paths with the same steps and is what
is left of all that were added, in order, if the first of those with the same steps is kept;
an import finds with it what it would find with all of them.  Lists, single paths and actions
add at the end only.  The settings of a command are given the paths of its settings file, then
those of the list in its environment, then those of its options. -/
theorem searchPaths_layered :
    (∀ (read : Settings.Reader) (s : Settings) (added : List String), s.Gathered read added →
      ∀ w : Workspace, w.searchPaths = s.searchPaths → ∀ actions : List Action,
        Layered (w.perform actions).searchPaths (added ++ actions.flatMap Action.added)) ∧
    ((∀ (s : Settings) (list : String), s.searchPaths <+: (s.addList list).searchPaths) ∧
      (∀ (s : Settings) (path : String), s.searchPaths <+: (s.add path).searchPaths) ∧
      ∀ (w : Workspace) (actions : List Action),
        w.searchPaths <+: (w.perform actions).searchPaths) ∧
    ∀ (m : Command.Machine) (c : Command.Context) (s : Settings),
      Command.settings m c = .ok s → s.Gathered m.reader (Command.given m c) := by
  refine ⟨fun read s added h w hw actions => ?_, ⟨fun s list => ?_, fun s path => ?_,
    fun w actions => ?_⟩, fun m c s => Command.gathered_settings⟩
  · rw [Workspace.searchPaths_perform, hw, h.searchPaths_eq, ← List.foldl_append]
    exact layered_foldl_addSearchPath _
  · rw [Settings.searchPaths_addList]
    exact foldl_addSearchPath_extends _ _
  · exact addSearchPath_extends _ path
  · rw [Workspace.searchPaths_perform]
    exact foldl_addSearchPath_extends _ _

/-- A settings text, two paths and two actions name three directories in six ways. -/
theorem searchPaths_layered_of_spellings :
    ∃ s : Settings, s.searchPaths = ["a", "o"] ∧ s.Gathered Toml.parse? ["a", "a/", "o", "o/."] ∧
      ∀ w : Workspace, w.searchPaths = s.searchPaths →
        Layered (w.perform [.addSearchPath "q", .addSearchPath "q//."]).searchPaths
          ["a", "a/", "o", "o/.", "q", "q//."] := by
  have hparse : Settings.parse "search-paths = [\"a\", \"a/\"]" "" =
      .ok { searchPaths := ["a"] } := by decide +kernel
  have hwritten : Settings.written Toml.parse? "search-paths = [\"a\", \"a/\"]" "" = ["a", "a/"] := by
    decide +kernel
  have hgathered := ((Settings.Gathered.text hparse).path "o").path "o/."
  rw [hwritten] at hgathered
  refine ⟨_, ?_, hgathered, fun w hw => searchPaths_layered.1 Toml.parse? _ _ hgathered w hw _⟩
  rw [hgathered.searchPaths_eq]
  decide +kernel

end WrenAnalysis
