/-
# Reading a path

The steps of a path are the parts of its text between the slashes.  What stands behind a
slash adds its steps to those in front (`Path.components_append`), and a relative path adds
its steps to those of the directory that it is taken from (`Path.components_join_relative`).
-/

import Mathlib.Tactic.SplitIfs
import WrenAnalysis.ImportPath

namespace WrenAnalysis
namespace Path

/-! ### The steps of a text -/

/-- The steps that the parts of a text are. -/
def steps (cs : List Char) : List Component :=
  ((segments cs).filter fun s => !isSkipped s).map .ofSegment

/-- Every text has a segment, if only an empty one. -/
theorem segments_ne_nil (cs : List Char) : segments cs ≠ [] := by
  cases cs with
  | nil => simp [segments]
  | cons c cs =>
      unfold segments
      split_ifs
      · exact List.cons_ne_nil _ _
      · split <;> exact List.cons_ne_nil _ _

/-- A slash parts the segments before it from those behind it. -/
theorem segments_append (xs ys : List Char) :
    segments (xs ++ '/' :: ys) = segments xs ++ segments ys := by
  induction xs with
  | nil => simp [segments]
  | cons c cs ih =>
      rw [List.cons_append, segments, segments]
      split_ifs
      · rw [ih, List.cons_append]
      · rw [ih]
        cases h : segments cs with
        | nil => exact absurd h (segments_ne_nil cs)
        | cons s ss => rfl

/-- No segment holds a slash. -/
theorem notMem_of_mem_segments {cs s : List Char} (h : s ∈ segments cs) : '/' ∉ s := by
  induction cs generalizing s with
  | nil => simp_all [segments]
  | cons c cs ih =>
      rw [segments] at h
      split_ifs at h with hc
      · rcases List.mem_cons.1 h with rfl | h
        · exact List.not_mem_nil
        · exact ih h
      · cases hs : segments cs with
        | nil => exact absurd hs (segments_ne_nil cs)
        | cons t ts =>
            rw [hs] at h ih
            rcases List.mem_cons.1 h with rfl | h
            · rw [List.mem_cons, not_or]
              exact ⟨Ne.symm hc, ih List.mem_cons_self⟩
            · exact ih (List.mem_cons_of_mem _ h)

/-- A slash parts the steps before it from those behind it. -/
theorem steps_append (xs ys : List Char) : steps (xs ++ '/' :: ys) = steps xs ++ steps ys := by
  rw [steps, segments_append, List.filter_append, List.map_append]
  rfl

/-- A path that begins with a slash begins at the root. -/
theorem components_root (ys : List Char) :
    components (String.ofList ('/' :: ys)) = .root :: steps ys := by
  rw [components, String.toList_ofList]
  rfl

/-- What stands behind a slash that is not the first character adds its steps. -/
theorem components_append {xs : List Char} (ys : List Char) (h : xs ≠ []) :
    components (String.ofList (xs ++ '/' :: ys)) = components (String.ofList xs) ++ steps ys := by
  simp only [components, String.toList_ofList]
  fun_cases split xs with
  | case1 cs =>
      change Component.root :: steps (cs ++ '/' :: ys) = (Component.root :: steps cs) ++ steps ys
      rw [steps_append, List.cons_append]
  | case2 => rfl
  | case3 cs =>
      change Component.current :: steps ('/' :: cs ++ '/' :: ys) =
        (Component.current :: steps ('/' :: cs)) ++ steps ys
      rw [steps_append, List.cons_append]
  | case4 _ hroot hdot hrel =>
      have hsplit : split (xs ++ '/' :: ys) = ([], segments (xs ++ '/' :: ys)) := by
        apply split.eq_4
        · intro cs he
          obtain ⟨c, xs, rfl⟩ := List.exists_cons_of_ne_nil h
          exact hroot xs (by rw [(List.cons.inj he).1])
        · intro he
          have hlen := congrArg List.length he
          have hpos := List.length_pos_iff.2 h
          simp only [List.length_append, List.length_cons, List.length_nil] at hlen
          omega
        · intro cs he
          match xs with
          | [] => exact h rfl
          | [c] => exact hdot (by rw [(List.cons.inj he).1])
          | c :: d :: xs => exact hrel xs (by simp_all)
      rw [hsplit]
      exact steps_append xs ys

/-- A relative path that is taken from somewhere adds its steps. -/
theorem components_join_relative {base path : String} (hbase : base ≠ "")
    (h : isAbsolute path = false) :
    components (join base path) = components base ++ steps path.toList := by
  obtain ⟨xs, rfl⟩ : ∃ xs, base = String.ofList xs := ⟨base.toList, String.ofList_toList.symm⟩
  obtain ⟨cs, rfl⟩ : ∃ cs, path = String.ofList cs := ⟨path.toList, String.ofList_toList.symm⟩
  have hne : xs ≠ [] := by
    rintro rfl
    exact hbase rfl
  obtain ⟨ys, c, rfl⟩ : ∃ ys c, xs = ys ++ [c] :=
    ⟨_, _, (List.dropLast_concat_getLast hne).symm⟩
  rw [join, h, if_neg Bool.false_ne_true, String.toList_ofList, String.toList_ofList,
    List.getLast?_concat, Option.all_some]
  by_cases hc : c = '/'
  · -- The slash is there, and the part behind it was empty.
    subst hc
    rw [if_pos (decide_eq_true rfl), ← String.ofList_append, List.append_assoc,
      List.singleton_append]
    by_cases hy : ys = []
    · subst hy
      exact components_root cs
    · have hnil : steps [] = [] := rfl
      rw [components_append cs hy, components_append [] hy, hnil, List.append_nil]
  · have hslash : "/" = String.ofList ['/'] := rfl
    rw [if_neg (by simpa using hc), hslash, ← String.ofList_append, ← String.ofList_append,
      List.append_assoc _ ['/'], List.singleton_append, components_append cs hne]

/-! ### Inner steps -/

/-- A step that can stand anywhere but in front: two dots, or a name. -/
def Component.Inner (c : Component) : Prop :=
  ∃ cs, '/' ∉ cs ∧ isSkipped cs = false ∧ c = .ofSegment cs

/-- The text of a step is the segment that it comes from. -/
theorem Component.Inner.text {c : Component} (h : c.Inner) :
    ∃ cs, '/' ∉ cs ∧ isSkipped cs = false ∧ c = .ofSegment cs ∧ c.text = String.ofList cs := by
  obtain ⟨cs, hslash, hskip, rfl⟩ := h
  refine ⟨cs, hslash, hskip, rfl, ?_⟩
  unfold ofSegment
  split_ifs with hdots
  · rw [hdots]
    rfl
  · rfl

/-- The steps of a path are steps inside of it, never its root. -/
theorem inner_of_mem_steps {cs : List Char} {c : Component} (h : c ∈ steps cs) : c.Inner := by
  obtain ⟨s, hs, rfl⟩ := List.mem_map.1 h
  obtain ⟨hmem, hskip⟩ := List.mem_filter.1 hs
  exact ⟨s, notMem_of_mem_segments hmem, by simpa using hskip, rfl⟩

end Path
end WrenAnalysis
