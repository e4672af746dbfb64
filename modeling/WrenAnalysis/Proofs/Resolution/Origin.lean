/-
# The directory that imports are taken from

The imports of a file are taken from the directory that the file is in.  For a file that was
read this is its path without the last step (`Load.directory`), and for a document it is that
of its identity, with a dot where no step is left (`ImportPath.originDir`).  The two are
spelled differently just for a file that stands without a directory
(`Load.directory_eq_originDir_iff`).

Followed from one or the other, the imports have the same candidates and come to the same
reads.  Only a warning about an import without a file names the directory, so there the
spelling shows (`Load.followAll_originDir`).
-/

import WrenAnalysis.Proofs.Path.NormalForm
import WrenAnalysis.Proofs.Resolution.Import
import WrenAnalysis.Workspace

namespace WrenAnalysis
namespace Path

/-! ### The path without its last step -/

/-- Nothing is trimmed from steps that all count. -/
theorem trimEnd_eq_self {parts : List (List Char)} (h : ∀ s ∈ parts, isSkipped s = false) :
    trimEnd parts = parts := by
  rcases List.eq_nil_or_concat parts with rfl | ⟨front, s, rfl⟩
  · rfl
  · simp [trimEnd, h s (by simp)]

/-- The text of an inner step counts. -/
theorem Component.Inner.isSkipped_text {c : Component} (h : c.Inner) :
    isSkipped c.text.toList = false := by
  obtain ⟨s, -, hskip, -, ht⟩ := h.text
  rwa [ht, String.toList_ofList]

/-- A path that is written with steps is read with nothing in front of them but the root. -/
theorem split_ofParts_text (rooted : Bool) {cs : List Component} (h : ∀ c ∈ cs, c.Inner)
    (hne : cs ≠ []) : split (ofParts rooted (cs.map Component.text)).toList =
      (if rooted then ['/'] else [], cs.map fun c => c.text.toList) := by
  have hsegments : segments ("/".intercalate (cs.map Component.text)).toList =
      cs.map fun c => c.text.toList := by
    rw [segments_eq_splitOn, toList_intercalate_slash, List.map_map, List.splitOn_intercalate]
    · rfl
    · intro s hs
      obtain ⟨c, hc, rfl⟩ := List.mem_map.1 hs
      exact (h c hc).text_part.1
    · simpa using hne
  rw [← hsegments]
  cases rooted with
  | true => simp [ofParts, split]
  | false =>
    have hhead := head?_of_parted (parted_text h)
    rw [ofParts, String.toList_append]
    generalize ("/".intercalate (cs.map Component.text)).toList = text at hsegments hhead
    -- A dot in front would be a part of its own, and no step is written so.
    have hdot : ['.'] ∉ segments text := by
      rw [hsegments]
      intro hmem
      obtain ⟨c, hc, he⟩ := List.mem_map.1 hmem
      have hskip := (h c hc).isSkipped_text
      rw [he] at hskip
      cases hskip
    change split text = _
    fun_cases split text with
    | case1 cs => exact absurd rfl hhead
    | case2 => simp [segments] at hdot
    | case3 cs => simp [segments] at hdot
    | case4 => rfl

/-- Without its last step, a path is written with the others. -/
theorem parent?_ofParts_text (rooted : Bool) {cs : List Component} {c : Component}
    (h : ∀ d ∈ cs ++ [c], d.Inner) :
    parent? (ofParts rooted ((cs ++ [c]).map Component.text)) =
      some (ofParts rooted (cs.map Component.text)) := by
  have hkept : ∀ ds : List Component, (∀ d ∈ ds, d.Inner) →
      trimEnd (ds.map fun d => d.text.toList) = ds.map fun d => d.text.toList := by
    intro ds hds
    refine trimEnd_eq_self fun s hs => ?_
    obtain ⟨d, hd, rfl⟩ := List.mem_map.1 hs
    exact (hds d hd).isSkipped_text
  have hfront := hkept cs fun d hd => h d (List.mem_append_left _ hd)
  have htext : String.ofList ((if rooted then ['/'] else []) ++
      ['/'].intercalate (cs.map fun d => d.text.toList)) =
        ofParts rooted (cs.map Component.text) := by
    rw [← String.toList_inj, String.toList_ofList, ofParts, String.toList_append,
      toList_intercalate_slash, List.map_map]
    cases rooted <;> rfl
  have hlast : ((cs ++ [c]).map fun d => d.text.toList).dropLast =
      cs.map fun d => d.text.toList := by
    rw [List.map_append, List.map_singleton, List.dropLast_concat]
  have hne : (cs ++ [c]).map (fun d => d.text.toList) ≠ [] := by simp
  rw [parent?, split_ofParts_text rooted h (by simp)]
  simp only [hkept _ h]
  generalize (cs ++ [c]).map (fun d => d.text.toList) = parts at hlast hne
  cases parts with
  | nil => exact absurd rfl hne
  | cons p ps => simp only [hlast, hfront, htext]

/-- A normal path without its last step is empty if there is no slash in it. -/
theorem parent?_eq_some_empty_iff {path : String} (h : IsNormal path) :
    parent? path = some "" ↔ '/' ∉ path.toList := by
  cases h with
  | current => decide +kernel
  | @path rooted ups names h hnames =>
    have hinner := inner_of_formed ups hnames
    have hne := rooted_or_ne_nil h
    rw [← text_formed]
    generalize List.replicate ups .parent ++ names.map Component.normal = cs at hinner hne
    rcases List.eq_nil_or_concat cs with rfl | ⟨front, c, rfl⟩
    · obtain rfl := hne.resolve_right (· rfl)
      decide +kernel
    · rw [List.concat_eq_append] at hinner ⊢
      obtain ⟨hfront, hc⟩ := List.forall_mem_append.1 hinner
      rw [parent?_ofParts_text rooted hinner, Option.some_inj]
      by_cases hlong : rooted = true ∨ front ≠ []
      · refine iff_of_false (ofParts_text_ne_empty hfront hlong) (not_not.2 ?_)
        rcases hlong with rfl | hlong
        · simp [ofParts]
        · rw [List.map_append, List.map_singleton, ofParts_concat (by simpa using hlong)]
          simp
      · rw [not_or, Bool.not_eq_true, not_not] at hlong
        obtain ⟨rfl, rfl⟩ := hlong
        refine iff_of_true rfl ?_
        simpa [ofParts] using (hc c List.mem_cons_self).text_part.1

end Path

/-! ### Two spellings of a directory -/

namespace Load

/-- The two directories of a file differ just where one of them is nothing and the other a
dot. -/
theorem directory_cases (l : Load) :
    (Path.parent? l.path ≠ some "" ∧ l.directory = ImportPath.originDir l.path) ∨
      (Path.parent? l.path = some "" ∧ l.directory = "" ∧
        ImportPath.originDir l.path = ".") := by
  rw [directory, ImportPath.originDir]
  cases Path.parent? l.path with
  | none => exact .inl ⟨nofun, rfl⟩
  | some dir =>
    dsimp only [Option.getD_some]
    split_ifs with hempty
    · obtain rfl := String.isEmpty_iff.1 hempty
      exact .inr ⟨rfl, rfl, rfl⟩
    · exact .inl ⟨by simpa using hempty, rfl⟩

/-- **The two directories of a file are spelled alike unless the file stands without one.** -/
theorem directory_eq_originDir_iff {l : Load} (h : Path.IsNormal l.path) :
    l.directory = ImportPath.originDir l.path ↔ '/' ∈ l.path.toList := by
  rw [← not_iff_not, ← Path.parent?_eq_some_empty_iff h]
  rcases l.directory_cases with ⟨hparent, he⟩ | ⟨hparent, hread, hopen⟩
  · exact iff_of_false (not_not.2 he) hparent
  · rw [hread, hopen]
    exact iff_of_true (by decide) hparent

/-- The two directories of a file are the same place. -/
theorem normalize_originDir (l : Load) :
    Path.normalize (ImportPath.originDir l.path) = Path.normalize l.directory := by
  rcases l.directory_cases with ⟨-, he⟩ | ⟨-, hread, hopen⟩
  · rw [he]
  · rw [hread, hopen]
    rfl

end Load

/-- The directory shows in the message of a missing import. -/
theorem Warning.message_importNotFound_inj {file dir dir' : String} :
    (importNotFound file dir).message = (importNotFound file dir').message ↔
      dir = dir' := by
  change "couldn't find " ++ file ++ " in any path (imported from " ++ dir ++ ")" =
    "couldn't find " ++ file ++ " in any path (imported from " ++ dir' ++ ")" ↔ dir = dir'
  simp

namespace Task

/-- The task with a warning for each of these files, which imports in a directory name. -/
def noted (t : Task) (dir : String) (missing : List String) : Task :=
  { t with warnings := t.warnings ++ missing.map (.importNotFound · dir) }

/-- A warning of one more missing file is noted after the others. -/
theorem noted_warn (t : Task) (dir : String) (missing : List String) (file : String) :
    (t.noted dir missing).warn (.importNotFound file dir) = t.noted dir (missing ++ [file]) := by
  simp [noted, warn]

/-- Noting missing files and issuing a read do not disturb each other. -/
theorem noted_issue (t : Task) (dir : String) (missing : List String) (l : Load) :
    (t.noted dir missing).issue l = (t.issue l).noted dir missing := rfl

/-- Without missing files there is nothing to note. -/
theorem noted_nil (t : Task) (dir : String) : t.noted dir [] = t := by
  simp [noted]

/-- What shows of the directory in a warning shows in the task, if it has such warnings. -/
theorem map_warnings_noted_eq_iff {α : Type} {f : Warning → α} {dir dir' : String}
    (shows : ∀ file, f (.importNotFound file dir) = f (.importNotFound file dir') → dir = dir')
    (t : Task) (missing : List String) :
    (t.noted dir missing).warnings.map f = (t.noted dir' missing).warnings.map f ↔
      dir = dir' ∨ missing = [] := by
  constructor
  · intro h
    cases missing with
    | nil => exact .inr rfl
    | cons file files =>
      simp only [noted, List.map_append, List.append_cancel_left_eq, List.map_cons] at h
      exact .inl (shows file (List.cons.inj h).1)
  · rintro (rfl | rfl)
    · rfl
    · simp only [noted, List.map_nil, List.append_nil]

/-- An import whose file is read. -/
theorem follow_of_read? {src : Sources} {dir literal path : String} {r : Registry}
    (h : (Inquiry.mk r dir literal).read? src = some path) (t : Task) :
    follow src dir (r, t) literal =
      (r.await (ImportPath.identity path), t.issue (src.load path)) := by
  have hf := follow_followed src dir literal (r, t)
  generalize follow src dir (r, t) literal = s' at hf ⊢
  cases hf with
  | skipped unread => cases h.symm.trans unread
  | missing unread => cases h.symm.trans unread
  | read first => rw [Option.some.inj (h.symm.trans first)]

/-- What comes of an import depends on the spelling of the directory in a warning only. -/
theorem follow_noted (src : Sources) (dir literal : String) (r : Registry) (t : Task)
    (missing : List String) :
    ∃ (r' : Registry) (t' : Task) (missing' : List String), t'.warnings = t.warnings ∧
      ∀ dir', Path.normalize dir' = Path.normalize dir →
        follow src dir' (r, t.noted dir' missing) literal = (r', t'.noted dir' missing') := by
  have hsame : ∀ dir', Path.normalize dir' = Path.normalize dir →
      src.candidates dir' literal = src.candidates dir literal :=
    fun dir' h => ImportPath.candidates_congr _ h rfl
  by_cases hb : ImportPath.isBuiltin literal = true
  · exact ⟨r, t, missing, rfl, fun dir' _ => if_pos hb⟩
  by_cases hk : (src.candidates dir literal).any (fun path =>
      r.state (ImportPath.identity path) ≠ .absent) = true
  · refine ⟨r, t, missing, rfl, fun dir' h => (if_neg hb).trans (if_pos ?_)⟩
    rwa [← hsame dir' h] at hk
  cases hf : (src.candidates dir literal).find? src.library.contains with
  | none =>
    refine ⟨r, t, missing ++ [ImportPath.file literal], rfl, fun dir' h => ?_⟩
    rw [← hsame dir' h, Sources.candidates] at hk hf
    simp only [follow]
    rw [if_neg hb, if_neg hk, hf, noted_warn]
  | some path =>
    refine ⟨r.await (ImportPath.identity path), t.issue (src.load path), missing, rfl,
      fun dir' h => ?_⟩
    rw [← hsame dir' h] at hk hf
    have hread : (Inquiry.mk r dir' literal).read? src = some path := by
      rw [← hf]
      exact (if_neg hb).trans (if_neg hk)
    rw [follow_of_read? hread, noted_issue]

/-- The same of imports that are followed one after the other. -/
theorem foldl_follow_noted (src : Sources) (dir : String) (literals : List String) (r : Registry)
    (t : Task) (missing : List String) :
    ∃ (r' : Registry) (t' : Task) (missing' : List String), t'.warnings = t.warnings ∧
      ∀ dir', Path.normalize dir' = Path.normalize dir →
        literals.foldl (follow src dir') (r, t.noted dir' missing) =
          (r', t'.noted dir' missing') := by
  induction literals generalizing r t missing with
  | nil => exact ⟨r, t, missing, rfl, fun _ _ => rfl⟩
  | cons literal literals ih =>
    obtain ⟨r₁, t₁, missing₁, hw₁, hfollow⟩ := follow_noted src dir literal r t missing
    obtain ⟨r₂, t₂, missing₂, hw₂, hfold⟩ := ih r₁ t₁ missing₁
    refine ⟨r₂, t₂, missing₂, hw₂.trans hw₁, fun dir' h => ?_⟩
    rw [List.foldl_cons, hfollow dir' h, hfold dir' h]

end Task

/-- **The imports of a file come to the same whether the file was read or opened.**  Taken from
its path as it was read and from its identity, the imports have the same candidates and end in
the same registry and the same task, but for the directory in the warnings about imports
without a file: if the file stands without a directory, that is nothing in one case and a dot
in the other.  So the warnings and their wording are the same if and only if the file is in a
directory or has no such import. -/
theorem Load.followAll_originDir {l : Load} (found : ImportPath.identity l.path = l.path)
    (src : Sources) (m : Module) (s : Registry × Task) :
    let opened := ImportPath.originDir (ImportPath.identity l.path)
    (∀ literal, src.candidates l.directory literal = src.candidates opened literal) ∧
    (l.directory = opened ∨ l.directory = "" ∧ opened = ".") ∧
    ∃ (r : Registry) (t : Task) (missing : List String), t.warnings = s.2.warnings ∧
      Task.followAll src l.directory m s = (r, t.noted l.directory missing) ∧
      Task.followAll src opened m s = (r, t.noted opened missing) ∧
      ((t.noted l.directory missing).warnings = (t.noted opened missing).warnings ↔
        '/' ∈ l.path.toList ∨ missing = []) ∧
      ((t.noted l.directory missing).warnings.map Warning.message =
          (t.noted opened missing).warnings.map Warning.message ↔
        '/' ∈ l.path.toList ∨ missing = []) := by
  intro opened
  have hopened : opened = ImportPath.originDir l.path := congrArg ImportPath.originDir found
  have hsame : Path.normalize opened = Path.normalize l.directory := by
    rw [hopened]
    exact l.normalize_originDir
  have hspelled : l.directory = opened ↔ '/' ∈ l.path.toList := by
    rw [hopened]
    exact directory_eq_originDir_iff (Path.isNormal_iff.2 found)
  refine ⟨fun literal => ImportPath.candidates_congr _ hsame.symm rfl, ?_, ?_⟩
  · rw [hopened]
    exact l.directory_cases.imp And.right And.right
  · obtain ⟨r, t, missing, hw, hrun⟩ :=
      Task.foldl_follow_noted src l.directory m.importLiterals s.1 s.2 []
    simp only [Task.noted_nil] at hrun
    rw [← hspelled]
    refine ⟨r, t, missing, hw, hrun _ rfl, hrun _ hsame, ?_, ?_⟩
    · rw [← List.map_id (t.noted l.directory missing).warnings,
        ← List.map_id (t.noted opened missing).warnings]
      exact Task.map_warnings_noted_eq_iff (fun _ h => (Warning.importNotFound.inj h).2) t missing
    · exact Task.map_warnings_noted_eq_iff (fun _ => Warning.message_importNotFound_inj.1) t missing

/-- A file in the directory above, which imports a file that does not exist. -/
theorem Load.followAll_originDir_of_above :
    let l : Load := ⟨"../y.wren", "../y.wren", .ok "import \"z\"", false⟩
    let m := (Module.parse "import \"z\"").toOption.getD ⟨[]⟩
    let s : Registry × Task := ({}, { scope := .workspace })
    let src : Sources := ⟨{}, [], []⟩
    let opened := ImportPath.originDir (ImportPath.identity l.path)
    ImportPath.identity l.path = l.path ∧
      (Task.followAll src l.directory m s).2.warnings =
        (Task.followAll src opened m s).2.warnings := by
  intro l m s src opened
  have found : ImportPath.identity l.path = l.path := by decide +kernel
  obtain ⟨-, -, r, t, missing, -, hread, hopen, hwarnings, -⟩ :=
    Load.followAll_originDir found src m s
  rw [hread, hopen]
  exact ⟨found, hwarnings.2 (.inl (by decide))⟩

namespace Workspace

/-- **The same file, imported and opened.**  It imports a file that does not exist, and the
warnings about this import are different. -/
theorem import_warning_spelled_apart :
    let w := fresh [("y.wren", some "import \"z\"")] [] [] 100
    (w.change "x.wren" "import \"y\"" none).2.outcome =
        .finished ⟨["y.wren"], [.importNotFound "./z.wren" ""], true⟩ ∧
      (w.change "y.wren" "import \"z\"" none).2.outcome =
        .finished ⟨[], [.importNotFound "./z.wren" "."], true⟩ := by
  decide +kernel

end Workspace
end WrenAnalysis
