/-
# The normal form of a path

A path is written as parts with slashes between them, behind the root or not
(`Path.ofParts`).  Normalizing it gives the one path that is `Path.IsNormal`: the root or
nothing, double dots, and names (`Path.isNormal_iff`).  Parts that lead nowhere do not show
in it (`Path.normalize_idle`), and where a relative path is taken from, only the normal form
of the directory matters (`Path.normalize_join_congr`).  Hence the candidates of an import do
not depend on how directories are spelled (`ImportPath.candidates_congr`).
-/

import Mathlib.Data.List.Induction
import WrenAnalysis.Proofs.Path

namespace WrenAnalysis
namespace Path

/-! ### Parts -/

/-- A name that a file or a directory can have. -/
def IsOrdinary (s : String) : Prop := '/' ∉ s.toList ∧ s ∉ ["", ".", ".."]

/-- The path with these parts, behind the root or not. -/
def ofParts (rooted : Bool) (parts : List String) : String :=
  (if rooted then "/" else "") ++ "/".intercalate parts

/-- The parts are what stands between the slashes: none has a slash, and without the root the
first of them is not empty, which would put a slash in front. -/
structure Parted (rooted : Bool) (parts : List String) : Prop where
  slashless : ∀ s ∈ parts, '/' ∉ s.toList
  front : rooted = false → parts.head? ≠ some ""

/-- Parts that lead nowhere: a dot, a name and the way back from it, or nothing at all between
two slashes. -/
inductive Idle : List String → Prop
  | dot : Idle ["."]
  | detour {name : String} : IsOrdinary name → Idle [name, ".."]
  | slash : Idle [""]

/-- A path in normal form: a dot, or the root or nothing, double dots, and names. -/
inductive IsNormal : String → Prop
  | current : IsNormal "."
  | path {rooted : Bool} {ups : Nat} {names : List String} :
      rooted = true ∨ 0 < ups + names.length → (∀ n ∈ names, IsOrdinary n) →
      IsNormal (ofParts rooted (List.replicate ups ".." ++ names))

/-! ### Reading parts -/

/-- The step in front of the parts. -/
def rootSteps (rooted : Bool) : List Component := if rooted then [.root] else []

/-- The steps that parts are. -/
def partSteps (parts : List String) : List Component :=
  ((parts.map String.toList).filter fun s => !isSkipped s).map .ofSegment

/-- Parts take their steps one after the other. -/
theorem partSteps_append (ps qs : List String) :
    partSteps (ps ++ qs) = partSteps ps ++ partSteps qs := by
  simp [partSteps]

/-- The segments of a path are what is left between its slashes. -/
theorem segments_eq_splitOn (cs : List Char) : segments cs = cs.splitOn '/' := by
  induction cs with
  | nil => rfl
  | cons c cs ih =>
    rw [segments, ih, List.splitOn_cons_eq_if_modifyHead]
    by_cases hc : c = '/'
    · simp [hc]
    · rw [if_neg hc, if_neg (by simpa using hc)]
      cases hs : cs.splitOn '/' with
      | nil => exact absurd hs (List.splitOn_ne_nil '/' cs)
      | cons s ss => rfl

/-- Joining parts with slashes is joining their characters. -/
theorem toList_intercalate_slash (parts : List String) :
    ("/".intercalate parts).toList = ['/'].intercalate (parts.map String.toList) :=
  String.toList_intercalate

/-- Parts joined with slashes take the steps of the parts. -/
theorem steps_intercalate {parts : List String} (h : ∀ s ∈ parts, '/' ∉ s.toList) :
    steps ("/".intercalate parts).toList = partSteps parts := by
  by_cases hne : parts = []
  · rw [hne]
    rfl
  · rw [steps, segments_eq_splitOn, toList_intercalate_slash, List.splitOn_intercalate]
    · rfl
    · intro cs hcs
      obtain ⟨s, hs, rfl⟩ := List.mem_map.1 hcs
      exact h s hs
    · simpa using hne

/-- Without a slash in front, a text has its steps and perhaps the dot that it starts with. -/
theorem components_relative {cs : List Char} (h : cs.head? ≠ some '/') :
    components (String.ofList cs) = steps cs ∨
      components (String.ofList cs) = .current :: steps cs := by
  simp only [components, String.toList_ofList]
  fun_cases split cs with
  | case1 cs => exact absurd rfl h
  | case2 => exact .inr rfl
  | case3 cs => exact .inr rfl
  | case4 => exact .inl rfl

/-- The dot in front makes no difference. -/
theorem normalSteps_relative {cs : List Char} (h : cs.head? ≠ some '/') :
    normalSteps (components (String.ofList cs)) = normalSteps (steps cs) := by
  rcases components_relative h with he | he <;> rw [he]
  rfl

/-- Parts of a path without a root do not make it begin with a slash. -/
theorem head?_of_parted {parts : List String} (h : Parted false parts) :
    ("/".intercalate parts).toList.head? ≠ some '/' := by
  cases parts with
  | nil => simp
  | cons s ss =>
    have hne : s.toList ≠ [] := by simpa using h.front rfl
    have hhead : ("/".intercalate (s :: ss)).toList.head? = s.toList.head? := by
      cases ss <;> simp [List.head?_append, List.head?_eq_some_head hne]
    rw [hhead]
    exact fun hc => h.slashless s List.mem_cons_self (List.mem_of_mem_head? hc)

/-- The steps of a path that is written with these parts. -/
theorem normalSteps_ofParts {rooted : Bool} {parts : List String} (h : Parted rooted parts) :
    normalSteps (components (ofParts rooted parts)) =
      normalSteps (rootSteps rooted ++ partSteps parts) := by
  rw [← steps_intercalate h.slashless]
  cases rooted with
  | false =>
    have hrelative := normalSteps_relative (head?_of_parted h)
    rwa [String.ofList_toList] at hrelative
  | true =>
    have htext : ofParts true parts = String.ofList ('/' :: ("/".intercalate parts).toList) := by
      rw [← String.toList_inj]
      simp [ofParts]
    rw [htext, components_root]
    rfl

/-- The segments of a text make it up again. -/
theorem intercalate_segments (cs : List Char) : ['/'].intercalate (segments cs) = cs := by
  rw [segments_eq_splitOn, List.intercalate_splitOn]

/-- Every path is written with parts. -/
theorem exists_parted (path : String) :
    ∃ rooted parts, Parted rooted parts ∧ path = ofParts rooted parts := by
  have hparts : ∀ cs : List Char, (∀ s ∈ (segments cs).map String.ofList, '/' ∉ s.toList) ∧
      ("/".intercalate ((segments cs).map String.ofList)).toList = cs := by
    intro cs
    constructor
    · intro s hs
      obtain ⟨t, ht, rfl⟩ := List.mem_map.1 hs
      rw [String.toList_ofList]
      exact notMem_of_mem_segments ht
    · rw [toList_intercalate_slash, List.map_map]
      simpa [Function.comp_def] using intercalate_segments cs
  have htext : ∀ (rooted : Bool) (cs : List Char),
      path.toList = (if rooted then ['/'] else []) ++ cs →
        path = ofParts rooted ((segments cs).map String.ofList) := by
    intro rooted cs hcs
    rw [← String.toList_inj, hcs, ofParts, String.toList_append, (hparts cs).2]
    cases rooted <;> rfl
  match hpath : path.toList with
  | [] => exact ⟨false, [], ⟨nofun, nofun⟩, String.toList_inj.1 (by simpa [ofParts] using hpath)⟩
  | c :: cs =>
    by_cases hc : c = '/'
    · subst hc
      exact ⟨true, _, ⟨(hparts cs).1, nofun⟩, htext true cs hpath⟩
    · refine ⟨false, _, ⟨(hparts (c :: cs)).1, fun _ => ?_⟩, htext false (c :: cs) hpath⟩
      rw [segments, if_neg hc]
      split <;> simp

/-! ### Writing steps -/

/-- One part more stands behind one slash more. -/
theorem ofParts_concat {rooted : Bool} {parts : List String} (h : parts ≠ []) (s : String) :
    ofParts rooted (parts ++ [s]) = ofParts rooted parts ++ "/" ++ s := by
  rw [ofParts, String.intercalate_append_of_ne_nil h (List.cons_ne_nil s []),
    String.intercalate_singleton, ofParts]
  simp only [String.append_assoc]

/-- A path that is written with parts ends with the last of them. -/
theorem getLast?_ofParts (rooted : Bool) (parts : List String) {s : String} (h : s ≠ "") :
    (ofParts rooted (parts ++ [s])).toList.getLast? = s.toList.getLast? := by
  have hne : s.toList ≠ [] := by simpa using h
  by_cases hparts : parts = []
  · simp [hparts, ofParts, List.getLast?_append, List.getLast?_eq_some_getLast hne]
  · simp [ofParts_concat hparts, List.getLast?_append, List.getLast?_cons,
      List.getLast?_eq_some_getLast hne]

/-- A part that is taken from a path is one part more. -/
theorem join_ofParts {rooted : Bool} {parts : List String} {s : String}
    (h : ∀ p ∈ parts, '/' ∉ p.toList ∧ p ≠ "") (hs : '/' ∉ s.toList) :
    join (ofParts rooted parts) s = ofParts rooted (parts ++ [s]) := by
  have habs : isAbsolute s = false :=
    decide_eq_false fun hc => hs (List.mem_of_mem_head? hc)
  rw [join, habs, if_neg Bool.false_ne_true]
  rcases List.eq_nil_or_concat parts with rfl | ⟨front, p, rfl⟩
  · cases rooted <;> simp [ofParts]
  · obtain ⟨hslash, hne⟩ := h p (by simp)
    rw [List.concat_eq_append, getLast?_ofParts rooted front hne, ← List.concat_eq_append,
      if_neg, ofParts_concat (by simp)]
    intro hlast
    cases hc : p.toList.getLast? with
    | none => exact hne (by simpa using hc)
    | some c =>
      rw [hc, Option.all_some, decide_eq_true_iff] at hlast
      exact hslash (hlast ▸ List.mem_of_getLast? hc)

/-- The text of a step is a part of a path: it is not empty and has no slash. -/
theorem Component.Inner.text_part {c : Component} (h : c.Inner) :
    '/' ∉ c.text.toList ∧ c.text ≠ "" := by
  obtain ⟨s, hslash, hskip, -, ht⟩ := h.text
  rw [ht, String.toList_ofList]
  refine ⟨hslash, fun hempty => ?_⟩
  obtain rfl : s = [] := by simpa using hempty
  cases hskip

/-- Inner steps are written as parts. -/
theorem render_rootSteps (rooted : Bool) {cs : List Component} (h : ∀ c ∈ cs, c.Inner) :
    render (rootSteps rooted ++ cs) = ofParts rooted (cs.map Component.text) := by
  induction cs using List.reverseRecOn with
  | nil => cases rooted <;> rfl
  | append_singleton cs c ih =>
    rw [List.forall_mem_append, List.forall_mem_singleton] at h
    have hlast : render (rootSteps rooted ++ (cs ++ [c])) =
        join (render (rootSteps rooted ++ cs)) c.text := by
      rw [render, ← List.append_assoc, List.foldl_append]
      rfl
    rw [hlast, ih h.1, join_ofParts, List.map_append]
    · rfl
    · intro p hp
      obtain ⟨d, hd, rfl⟩ := List.mem_map.1 hp
      exact (h.1 d hd).text_part
    · exact h.2.text_part.1

/-! ### Normal forms -/

/-- Normalizing goes step by step. -/
theorem normalSteps_append (cs : List Component) (c : Component) :
    normalSteps (cs ++ [c]) = step (normalSteps cs) c := by
  rw [normalSteps, List.foldl_append]
  rfl

/-- The root or nothing, double dots, and names. -/
def formed (rooted : Bool) (ups : Nat) (names : List String) : List Component :=
  rootSteps rooted ++ (List.replicate ups .parent ++ names.map .normal)

section Formed

variable {rooted : Bool} {ups : Nat} {names : List String}

/-- A name more is the last step of the normal form. -/
theorem formed_concat (name : String) :
    formed rooted ups (names ++ [name]) = formed rooted ups names ++ [.normal name] := by
  simp [formed]

/-- Without names, a double dot more is the last step of the normal form. -/
theorem formed_succ : formed rooted (ups + 1) [] = formed rooted ups [] ++ [.parent] := by
  simp [formed, List.replicate_succ']

/-- Where there is no name, there is nothing to go back from. -/
theorem step_formed_up : step (formed rooted ups []) .parent = formed rooted (ups + 1) [] := by
  rw [formed_succ]
  cases ups with
  | zero => cases rooted <;> rfl
  | succ ups => simp [step, formed_succ]

/-- A double dot takes back the last name. -/
theorem step_formed_back (name : String) :
    step (formed rooted ups (names ++ [name])) .parent = formed rooted ups names := by
  simp [step, formed_concat]

/-- A normal form is folded already. -/
theorem normalSteps_formed : normalSteps (formed rooted ups names) = formed rooted ups names := by
  induction names using List.reverseRecOn with
  | nil =>
    induction ups with
    | zero => cases rooted <;> rfl
    | succ ups ih => rw [formed_succ, normalSteps_append, ih, step_formed_up, formed_succ]
  | append_singleton names name ih =>
    rw [formed_concat, normalSteps_append, ih]
    rfl

/-- A step goes up or goes down by a name. -/
theorem Component.Inner.cases {c : Component} (h : c.Inner) :
    c = .parent ∨ ∃ name, IsOrdinary name ∧ c = .normal name := by
  obtain ⟨cs, hslash, hskip, rfl⟩ := h
  unfold ofSegment
  split_ifs with hdots
  · exact .inl rfl
  · refine .inr ⟨_, ⟨by rwa [String.toList_ofList], fun hmem => ?_⟩, rfl⟩
    simp only [isSkipped, Bool.or_eq_false_iff, decide_eq_false_iff_not] at hskip
    simp only [List.mem_cons, List.not_mem_nil, or_false, ← String.toList_inj,
      String.toList_ofList] at hmem
    rcases hmem with hmem | hmem | hmem
    · exact hskip.1 hmem
    · exact hskip.2 hmem
    · exact hdots hmem

/-- Each step goes from one normal form to another. -/
theorem exists_step_formed (rooted : Bool) (ups : Nat) (h : ∀ n ∈ names, IsOrdinary n)
    {c : Component} (hc : c.Inner) :
    ∃ ups' names', (∀ n ∈ names', IsOrdinary n) ∧
      step (formed rooted ups names) c = formed rooted ups' names' := by
  rcases hc.cases with rfl | ⟨name, hname, rfl⟩
  · rcases List.eq_nil_or_concat names with rfl | ⟨front, name, rfl⟩
    · exact ⟨_, _, h, step_formed_up⟩
    · rw [List.concat_eq_append] at h ⊢
      exact ⟨_, front, fun n hn => h n (List.mem_append_left _ hn), step_formed_back name⟩
  · exact ⟨ups, names ++ [name],
      List.forall_mem_append.2 ⟨h, List.forall_mem_singleton.2 hname⟩, (formed_concat name).symm⟩

/-- Normalizing leads from one normal form to another, whatever the steps. -/
theorem exists_foldl_formed (rooted : Bool) (ups : Nat) {cs : List Component}
    (hcs : ∀ c ∈ cs, c.Inner) (h : ∀ n ∈ names, IsOrdinary n) :
    ∃ ups' names', (∀ n ∈ names', IsOrdinary n) ∧
      cs.foldl step (formed rooted ups names) = formed rooted ups' names' := by
  induction cs generalizing ups names with
  | nil => exact ⟨ups, names, h, rfl⟩
  | cons c cs ih =>
    obtain ⟨hc, hcs⟩ := List.forall_mem_cons.1 hcs
    obtain ⟨ups', names', h', he⟩ := exists_step_formed rooted ups h hc
    rw [List.foldl_cons, he]
    exact ih ups' hcs h'

end Formed

/-- **The steps of every path come to a normal form.** -/
theorem exists_formed (path : String) :
    ∃ rooted ups names, (∀ n ∈ names, IsOrdinary n) ∧
      normalSteps (components path) = formed rooted ups names := by
  obtain ⟨rooted, parts, hparts, rfl⟩ := exists_parted path
  have hinner : ∀ c ∈ partSteps parts, c.Inner := by
    rw [← steps_intercalate hparts.slashless]
    exact fun c => inner_of_mem_steps
  obtain ⟨ups, names, hnames, he⟩ :=
    exists_foldl_formed rooted 0 hinner (List.forall_mem_nil _)
  refine ⟨rooted, ups, names, hnames, ?_⟩
  rw [normalSteps_ofParts hparts, normalSteps, List.foldl_append, ← he]
  cases rooted <;> rfl

/-- A name is read as a step. -/
theorem inner_of_isOrdinary {name : String} (h : IsOrdinary name) :
    (Component.normal name).Inner := by
  obtain ⟨hslash, hmem⟩ := h
  simp only [List.mem_cons, List.not_mem_nil, or_false, not_or, ← String.toList_inj] at hmem
  obtain ⟨hempty, hdot, hdots⟩ := hmem
  refine ⟨name.toList, hslash, ?_, ?_⟩
  · simpa [isSkipped] using ⟨by simpa using hempty, hdot⟩
  · exact ((if_neg hdots).trans (congrArg _ String.ofList_toList)).symm

/-- A double dot is a step inside of a path. -/
theorem inner_parent : Component.parent.Inner :=
  ⟨['.', '.'], by decide, rfl, rfl⟩

/-- The texts of some steps take these steps again. -/
theorem partSteps_text {cs : List Component} (h : ∀ c ∈ cs, c.Inner) :
    partSteps (cs.map Component.text) = cs := by
  induction cs with
  | nil => rfl
  | cons c cs ih =>
    obtain ⟨hc, hcs⟩ := List.forall_mem_cons.1 h
    obtain ⟨s, -, hskip, he, ht⟩ := hc.text
    rw [List.map_cons, ← List.singleton_append, partSteps_append, ih hcs, ht]
    simp [partSteps, hskip, ← he]

/-- The texts of some steps are parts of a path. -/
theorem parted_text {rooted : Bool} {cs : List Component} (h : ∀ c ∈ cs, c.Inner) :
    Parted rooted (cs.map Component.text) where
  slashless s hs := by
    obtain ⟨c, hc, rfl⟩ := List.mem_map.1 hs
    exact (h c hc).text_part.1
  front _ hhead := by
    obtain ⟨c, hc, he⟩ := List.mem_map.1 (List.mem_of_mem_head? hhead)
    exact (h c hc).text_part.2 he

/-- Without the root, it takes a step to have a text. -/
theorem ofParts_text_ne_empty {rooted : Bool} {cs : List Component} (h : ∀ c ∈ cs, c.Inner)
    (hne : rooted = true ∨ cs ≠ []) : ofParts rooted (cs.map Component.text) ≠ "" := by
  rcases List.eq_nil_or_concat cs with rfl | ⟨front, c, rfl⟩
  · obtain rfl := hne.resolve_right (· rfl)
    decide
  · have hc := (h c (by simp)).text_part.2
    have hlast := getLast?_ofParts rooted (front.map Component.text) hc
    intro hempty
    rw [List.concat_eq_append, List.map_append, List.map_singleton] at hempty
    rw [hempty, String.toList_empty, List.getLast?_nil, eq_comm,
      List.getLast?_eq_none_iff] at hlast
    exact hc (by simpa using hlast)

section Written

variable {rooted : Bool} {ups : Nat} {names : List String}

/-- The steps of a normal form behind the root. -/
theorem inner_of_formed (ups : Nat) (h : ∀ n ∈ names, IsOrdinary n) :
    ∀ c ∈ List.replicate ups Component.parent ++ names.map .normal, c.Inner := by
  refine List.forall_mem_append.2 ⟨fun c hc => ?_, fun c hc => ?_⟩
  · rw [List.eq_of_mem_replicate hc]
    exact inner_parent
  · obtain ⟨n, hn, rfl⟩ := List.mem_map.1 hc
    exact inner_of_isOrdinary (h n hn)

/-- A normal form is written with its double dots and then its names. -/
theorem text_formed :
    (List.replicate ups Component.parent ++ names.map Component.normal).map Component.text =
      List.replicate ups ".." ++ names := by
  rw [List.map_append, List.map_replicate, List.map_map]
  congr 1
  exact List.map_id names

/-- Where there is no root, a normal form that is not the dot has a step. -/
theorem rooted_or_ne_nil (h : rooted = true ∨ 0 < ups + names.length) :
    rooted = true ∨ List.replicate ups Component.parent ++ names.map Component.normal ≠ [] :=
  h.imp_right fun hlength => List.ne_nil_of_length_pos (by simpa using hlength)

/-- A path is normalized to the text of its normal form. -/
theorem normalize_of_formed {path : String} (h : rooted = true ∨ 0 < ups + names.length)
    (hnames : ∀ n ∈ names, IsOrdinary n)
    (he : normalSteps (components path) = formed rooted ups names) :
    normalize path = ofParts rooted (List.replicate ups ".." ++ names) := by
  have hinner := inner_of_formed ups hnames
  have hne := ofParts_text_ne_empty hinner (rooted_or_ne_nil h)
  rw [normalize, he, formed, render_rootSteps rooted hinner, if_neg (by simpa using hne),
    text_formed]

/-- A normal form that is written as parts is read back. -/
theorem normalSteps_written (h : ∀ n ∈ names, IsOrdinary n) :
    normalSteps (components (ofParts rooted (List.replicate ups ".." ++ names))) =
      formed rooted ups names := by
  have hinner := inner_of_formed ups h
  rw [← text_formed, normalSteps_ofParts (parted_text hinner), partSteps_text hinner]
  exact normalSteps_formed

end Written

/-- The normal path is the dot where no step is left, and else it has the steps that are. -/
theorem normalize_cases (path : String) :
    (normalSteps (components path) = [] ∧ normalize path = ".") ∨
    ∃ rooted ups names, (rooted = true ∨ 0 < ups + names.length) ∧
      (∀ n ∈ names, IsOrdinary n) ∧ normalSteps (components path) = formed rooted ups names ∧
      normalize path = ofParts rooted (List.replicate ups ".." ++ names) := by
  obtain ⟨rooted, ups, names, hnames, he⟩ := exists_formed path
  by_cases h : rooted = true ∨ 0 < ups + names.length
  · exact .inr ⟨rooted, ups, names, h, hnames, he, normalize_of_formed h hnames he⟩
  · rw [not_or, Bool.not_eq_true, Nat.not_lt, Nat.le_zero, Nat.add_eq_zero_iff,
      List.length_eq_zero_iff] at h
    obtain ⟨rfl, rfl, rfl⟩ := h
    refine .inl ⟨he, ?_⟩
    rw [normalize, he]
    rfl

/-- **Normalizing gives a path in normal form.** -/
theorem isNormal_normalize (path : String) : IsNormal (normalize path) := by
  obtain ⟨-, he⟩ | ⟨rooted, ups, names, h, hnames, -, he⟩ := normalize_cases path
  · rw [he]
    exact .current
  · rw [he]
    exact .path h hnames

/-- A path in normal form is its own normal path. -/
theorem IsNormal.normalize_eq {path : String} (h : IsNormal path) : normalize path = path := by
  cases h with
  | current => rfl
  | path h hnames => exact normalize_of_formed h hnames (normalSteps_written hnames)

/-- **The normal forms are the paths that normalizing leaves as they are.** -/
theorem isNormal_iff {path : String} : IsNormal path ↔ normalize path = path :=
  ⟨IsNormal.normalize_eq, fun h => h ▸ isNormal_normalize path⟩

/-- **Normalizing once is enough.** -/
theorem normalize_normalize (path : String) : normalize (normalize path) = normalize path :=
  (isNormal_normalize path).normalize_eq

/-! ### What does not show in the normal form -/

/-- Paths with one normal form are normalized to one text. -/
theorem normalize_congr {path path' : String}
    (h : normalSteps (components path) = normalSteps (components path')) :
    normalize path = normalize path' := by
  rw [normalize, h]
  rfl

/-- Parts that lead nowhere end where they start. -/
theorem Idle.foldl_step {idle : List String} (h : Idle idle) (done : List Component) :
    (partSteps idle).foldl step done = done := by
  cases h with
  | dot => rfl
  | slash => rfl
  | @detour name hname =>
    have hinner : ∀ c ∈ [Component.normal name, .parent], c.Inner := by
      simpa using ⟨inner_of_isOrdinary hname, inner_parent⟩
    have hparts : partSteps [name, ".."] = [.normal name, .parent] := partSteps_text hinner
    rw [hparts]
    simp [step]

/-- Parts that lead nowhere can be put in anywhere, and a slash where there is one to repeat. -/
theorem Parted.insert {rooted : Bool} {before idle behind : List String} (h : Idle idle)
    (hparts : Parted rooted (before ++ behind))
    (hslash : idle = [""] → rooted = true ∨ before ≠ []) :
    Parted rooted (before ++ (idle ++ behind)) where
  slashless := by
    obtain ⟨hbefore, hbehind⟩ := List.forall_mem_append.1 hparts.slashless
    refine List.forall_mem_append.2 ⟨hbefore, List.forall_mem_append.2 ⟨?_, hbehind⟩⟩
    cases h with
    | dot => decide
    | slash => decide
    | detour hname =>
      rw [List.forall_mem_cons, List.forall_mem_singleton]
      exact ⟨hname.1, by decide⟩
  front hrooted := by
    have hfront := hparts.front hrooted
    cases before with
    | cons p ps => exact hfront
    | nil =>
      cases h with
      | dot => simp
      | slash => simp [hrooted] at hslash
      | detour hname => simpa using fun he => hname.2 (by simp [he])

/-- **Parts that lead nowhere do not show.** -/
theorem normalize_idle {rooted : Bool} {before idle behind : List String} (h : Idle idle)
    (hparts : Parted rooted (before ++ behind))
    (hslash : idle = [""] → rooted = true ∨ before ≠ []) :
    normalize (ofParts rooted (before ++ (idle ++ behind))) =
      normalize (ofParts rooted (before ++ behind)) := by
  apply normalize_congr
  rw [normalSteps_ofParts (hparts.insert h hslash), normalSteps_ofParts hparts]
  simp only [partSteps_append, normalSteps, List.foldl_append, h.foldl_step]

/-- A path and its normalized text have the same normal form. -/
theorem normalSteps_normalize (path : String) :
    normalSteps (components (normalize path)) = normalSteps (components path) := by
  obtain ⟨hsteps, he⟩ | ⟨rooted, ups, names, -, hnames, hsteps, he⟩ := normalize_cases path
  · rw [he, hsteps]
    rfl
  · rw [he, hsteps, normalSteps_written hnames]

/-- The steps of a path that is taken from somewhere. -/
theorem normalSteps_join {base path : String} (h : isAbsolute path = false) :
    normalSteps (components (join base path)) =
      (steps path.toList).foldl step (normalSteps (components base)) := by
  by_cases hbase : base = ""
  · subst hbase
    have hrelative := normalSteps_relative (of_decide_eq_false h)
    rw [join, h, if_neg Bool.false_ne_true]
    rwa [String.ofList_toList] at hrelative
  · rw [components_join_relative hbase h, normalSteps, List.foldl_append]
    rfl

/-- **Where a path is taken from matters in its normal form only.** -/
theorem normalize_join_congr {base base' : String} (path : String)
    (h : normalize base = normalize base') :
    normalize (join base path) = normalize (join base' path) := by
  cases habs : isAbsolute path with
  | true => rw [join, join, if_pos habs, if_pos habs]
  | false =>
    apply normalize_congr
    rw [normalSteps_join habs, normalSteps_join habs, ← normalSteps_normalize base, h,
      normalSteps_normalize]

end Path

/-! ### Imports -/

namespace ImportPath

/-- A text that names a file as an import does is the file that it names. -/
theorem file_eq_self {path : String} (hquote : '"' ∉ path.toList)
    (hdot : "./".toList <+: path.toList) (hext : extension.toList <:+ path.toList) :
    file path = path := by
  have hunquote : unquote path = path := by
    rw [unquote, List.filter_eq_self.2, String.ofList_toList]
    rintro c hc
    exact decide_eq_true fun h => hquote (h ▸ hc)
  simp only [file, hunquote, List.isPrefixOf_iff_prefix.2 hdot, if_true,
    List.isSuffixOf_iff_suffix.2 hext]

/-- The file of an import has no quotes, starts with a dot and a slash, and ends as the files of
the language do. -/
theorem file_text (literal : String) :
    '"' ∉ (file literal).toList ∧ "./".toList <+: (file literal).toList ∧
      extension.toList <:+ (file literal).toList := by
  have hquote : '"' ∉ (unquote literal).toList := by
    simp [unquote]
  simp only [file]
  split_ifs with hdot hext hext
  · exact ⟨hquote, List.isPrefixOf_iff_prefix.1 hdot, List.isSuffixOf_iff_suffix.1 hext⟩
  · rw [String.toList_append]
    exact ⟨by simpa [extension] using hquote,
      (List.isPrefixOf_iff_prefix.1 hdot).trans (List.prefix_append ..), List.suffix_append ..⟩
  · rw [String.toList_append] at hext ⊢
    exact ⟨by simpa using hquote, List.prefix_append .., List.isSuffixOf_iff_suffix.1 hext⟩
  · rw [String.toList_append, String.toList_append]
    exact ⟨by simpa [extension] using hquote,
      (List.prefix_append ..).trans (List.prefix_append ..), List.suffix_append ..⟩

/-- Taking the file of an import twice is taking it once. -/
theorem file_file (literal : String) : file (file literal) = file literal :=
  let ⟨hquote, hdot, hext⟩ := file_text literal
  file_eq_self hquote hdot hext

/-- The file of an import is never named from the root on. -/
theorem isAbsolute_file (literal : String) : Path.isAbsolute (file literal) = false := by
  obtain ⟨rest, he⟩ := (file_text literal).2.1
  rw [Path.isAbsolute, ← he]
  rfl

/-- A candidate of an import is known by its own path. -/
theorem identity_candidate {dir file path : String} {searchPaths : List String}
    (h : path ∈ candidates dir file searchPaths) : identity path = path := by
  obtain ⟨base, -, rfl⟩ := List.mem_map.1 h
  exact Path.normalize_normalize _

/-- **The candidates of an import do not depend on how directories are spelled.** -/
theorem candidates_congr {origin origin' : String} {searchPaths searchPaths' : List String}
    (file : String) (horigin : Path.normalize origin = Path.normalize origin')
    (hpaths : searchPaths.map Path.normalize = searchPaths'.map Path.normalize) :
    candidates origin file searchPaths = candidates origin' file searchPaths' := by
  have hnormal : ∀ dirs : List String, dirs.map (fun dir => Path.normalize (Path.join dir file)) =
      (dirs.map Path.normalize).map fun dir => Path.normalize (Path.join dir file) := by
    intro dirs
    rw [List.map_map]
    refine List.map_congr_left fun dir _ => ?_
    rw [Function.comp_apply]
    exact Path.normalize_join_congr file (Path.normalize_normalize dir).symm
  rw [candidates, candidates, hnormal, hnormal (origin' :: searchPaths'), List.map_cons,
    List.map_cons (l := searchPaths'), horigin, hpaths]

/-- **Normalizing is a normal form and a congruence.**  A normal path is in normal form and
stays as it is; every path has parts, and parts that lead nowhere can be put in anywhere
without changing the normal path.  The file of an import is relative, a file of the language,
and the file of itself; where it is taken from, only the normal path of the directory matters.
So the candidates of an import, which are their own identities, do not depend on how the
directory of the document and the search paths are spelled. -/
theorem normalize_laws :
    (∀ path, Path.IsNormal (Path.normalize path) ∧
      Path.normalize (Path.normalize path) = Path.normalize path) ∧
    (∀ path, ∃ rooted parts, Path.Parted rooted parts ∧ path = Path.ofParts rooted parts) ∧
    (∀ rooted before idle behind, Path.Idle idle → Path.Parted rooted (before ++ behind) →
      (idle = [""] → rooted = true ∨ before ≠ []) →
      Path.normalize (Path.ofParts rooted (before ++ (idle ++ behind))) =
        Path.normalize (Path.ofParts rooted (before ++ behind))) ∧
    (∀ literal, file (file literal) = file literal ∧ Path.isAbsolute (file literal) = false ∧
      extension.toList <:+ (file literal).toList) ∧
    (∀ dir literal, Path.normalize (Path.join dir (file literal)) =
      Path.normalize (Path.join (Path.normalize dir) (file literal))) ∧
    (∀ origin origin' searchPaths searchPaths' literal,
      Path.normalize origin = Path.normalize origin' →
      searchPaths.map Path.normalize = searchPaths'.map Path.normalize →
      candidates origin (file literal) searchPaths =
          candidates origin' (file literal) searchPaths' ∧
        ∀ path ∈ candidates origin (file literal) searchPaths, identity path = path) := by
  refine ⟨fun path => ⟨Path.isNormal_normalize path, Path.normalize_normalize path⟩,
    Path.exists_parted, fun _ _ _ _ => Path.normalize_idle,
    fun literal => ⟨file_file literal, isAbsolute_file literal, (file_text literal).2.2⟩,
    fun dir literal => Path.normalize_join_congr _ (Path.normalize_normalize dir).symm, ?_⟩
  intro origin origin' searchPaths searchPaths' literal horigin hpaths
  exact ⟨candidates_congr _ horigin hpaths, fun _ => identity_candidate⟩

/-- A detour in the directory of the document, and a slash at the end of a search path. -/
theorem normalize_laws_of_detour :
    candidates (Path.ofParts false ["src", "lib", "..", "bin"]) (file "util")
        [Path.ofParts true ["wren", ""]] =
      candidates (Path.ofParts false ["src", "bin"]) (file "util")
        [Path.ofParts true ["wren"]] := by
  obtain ⟨-, -, hidle, -, -, hcandidates⟩ := normalize_laws
  have hlib : Path.Idle ["lib", ".."] := .detour ⟨by decide, by decide⟩
  have horigin := hidle false ["src"] ["lib", ".."] ["bin"] hlib ⟨by decide, by decide⟩ (by decide)
  have hpath := hidle true ["wren"] [""] [] .slash ⟨by decide, by decide⟩ (by decide)
  exact (hcandidates _ _ [Path.ofParts true ["wren", ""]] [Path.ofParts true ["wren"]] "util"
    horigin (congrArg (fun path => [path]) hpath)).1

end ImportPath
end WrenAnalysis
