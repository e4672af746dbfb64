/-
# Lists without doubles

Adding elements one after the other, each unless its like is there, keeps the first of its
like (`foldl_addNew`), which is what `List.eraseDupsBy` keeps.  What is left out comes behind
its like, so a search that does not tell the two apart finds the same
(`find?_map_eraseDupsBy`).
-/

namespace WrenAnalysis

variable {α β : Type}

/-- Adding what is not there yet, one after the other, keeps the first of its like. -/
theorem foldl_addNew (alike : α → α → Bool) (new kept : List α) :
    new.foldl (fun kept a => if kept.any (alike a) then kept else kept ++ [a]) kept =
      kept ++ (new.filter fun a => !kept.any (alike a)).eraseDupsBy alike := by
  induction new generalizing kept with
  | nil => simp
  | cons a new ih =>
    rw [List.foldl_cons, ih]
    by_cases h : kept.any (alike a) = true
    · rw [if_pos h, List.filter_cons_of_neg (by rw [h]; exact Bool.false_ne_true)]
    · have hnew : (!kept.any (alike a)) = true := by rw [Bool.eq_false_iff.2 h]; rfl
      have hlater : (new.filter fun b => !(kept ++ [a]).any (alike b)) =
          (new.filter fun b => !kept.any (alike b)).filter fun b => decide (alike b a = false) := by
        rw [List.filter_filter]
        refine List.filter_congr fun b _ => ?_
        cases hb : alike b a <;> simp [hb]
      rw [if_neg h, hlater, List.filter_cons_of_pos (by exact hnew), List.eraseDupsBy_cons,
        List.append_assoc, List.singleton_append]

variable {alike : α → α → Bool}

/-- What holds of a list if it holds of its tail without what is like its head. -/
theorem eraseDupsBy_induction (alike : α → α → Bool) {motive : List α → Prop} (nil : motive [])
    (cons : ∀ a as, motive (as.filter fun b => alike b a = false) → motive (a :: as)) :
    ∀ as, motive as := by
  intro as
  induction hn : as.length using Nat.strongRecOn generalizing as with
  | ind n ih =>
    subst hn
    cases as with
    | nil => exact nil
    | cons a as =>
      exact cons a as (ih _ (Nat.lt_succ_of_le (List.length_filter_le _ _)) _ rfl)

/-- What is left without doubles keeps its order. -/
theorem eraseDupsBy_sublist (as : List α) : (as.eraseDupsBy alike).Sublist as := by
  induction as using eraseDupsBy_induction alike with
  | nil => exact List.Sublist.refl _
  | cons a as ih =>
    rw [List.eraseDupsBy_cons]
    exact (ih.trans List.filter_sublist).cons_cons a

/-- Nothing is like anything in front of it. -/
theorem pairwise_eraseDupsBy (as : List α) :
    (as.eraseDupsBy alike).Pairwise fun a b => alike b a = false := by
  induction as using eraseDupsBy_induction alike with
  | nil => exact List.Pairwise.nil
  | cons a as ih =>
    rw [List.eraseDupsBy_cons, List.pairwise_cons]
    refine ⟨fun b hb => ?_, ih⟩
    exact of_decide_eq_true (List.mem_filter.1 ((eraseDupsBy_sublist _).subset hb)).2

/-- **A search that does not tell like elements apart finds the same without doubles.** -/
theorem find?_map_eraseDupsBy {f : α → β} (hf : ∀ a b, alike a b = true → f a = f b)
    (p : β → Bool) (as : List α) :
    ((as.eraseDupsBy alike).map f).find? p = (as.map f).find? p := by
  induction as using eraseDupsBy_induction alike with
  | nil => rfl
  | cons a as ih =>
    rw [List.eraseDupsBy_cons, List.map_cons, List.map_cons, List.find?_cons, List.find?_cons, ih]
    cases ha : p (f a) with
    | true => rfl
    | false =>
      dsimp only
      rw [List.find?_map, List.find?_map, List.find?_filter]
      -- What is like the head is found no more than the head.
      congr 2
      funext b
      cases hb : alike b a with
      | false => simp
      | true => simp [hf b a hb, ha]

end WrenAnalysis
