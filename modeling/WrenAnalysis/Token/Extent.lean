/-
# A scan stays inside its text

The end of a construct is never behind the end of the text, and a token takes at
least one character (`scan_bounds`).  So cutting a text there loses nothing, and a
stream of tokens comes to an end.
-/

import WrenAnalysis.Token.Lexeme

namespace WrenAnalysis
namespace Lexeme

/-- A gap ends in the text. -/
theorem gapEnd_le {g : Gap} {n m : Nat} {cs : List Char} (h : gapEnd g n cs = .ok m) :
    m ≤ n + cs.length := by
  fun_induction gapEnd g n cs <;> simp_all <;> omega

/-- Blanks and comments end inside the text. -/
theorem triviaEnd_le {atStart : Bool} {n : Nat} {cs : List Char}
    (h : triviaEnd atStart cs = .ok n) : n ≤ cs.length := by
  fun_cases triviaEnd atStart cs with
  | case1 cs hs =>
    simp only [triviaEnd, hs, if_true] at h
    have := gapEnd_le h
    simp only [List.length_cons]; omega
  | case2 cs hs =>
    simp only [triviaEnd, hs] at h
    cases h; exact Nat.zero_le _
  | case3 =>
    simp only [triviaEnd] at h
    simpa using gapEnd_le h

/-- A run of characters ends in the text. -/
theorem runEnd_le (p : Char → Bool) (cs : List Char) : runEnd p cs ≤ cs.length :=
  (List.takeWhile_sublist p).length_le

/-- A run takes the first character if it is of the class. -/
theorem runEnd_pos {p : Char → Bool} {c : Char} (h : p c = true) (cs : List Char) :
    0 < runEnd p (c :: cs) := by
  simp [runEnd, h]

/-- The fraction of a number ends in the text. -/
theorem fractionEnd_le (cs : List Char) : fractionEnd cs ≤ cs.length := by
  fun_cases fractionEnd cs with
  | case1 c cs hc => simpa [fractionEnd, hc] using runEnd_le _ cs
  | case2 => exact Nat.zero_le _
  | case3 => exact Nat.zero_le _

/-- The digits of an exponent end in the text. -/
theorem exponentDigitsEnd_le (cs : List Char) : exponentDigitsEnd cs ≤ cs.length := by
  fun_cases exponentDigitsEnd cs with
  | case2 c cs hc => simpa [exponentDigitsEnd, hc] using runEnd_le _ cs
  | case4 c hc hs d ds hd => simpa [exponentDigitsEnd, hc, hs, hd] using runEnd_le _ ds
  | _ => exact Nat.zero_le _

/-- An exponent ends in the text. -/
theorem exponentEnd_le (cs : List Char) : exponentEnd cs ≤ cs.length := by
  fun_cases exponentEnd cs with
  | case3 e cs _ n hn =>
    have := exponentDigitsEnd_le cs
    simp only [List.length_cons]; omega
  | _ => exact Nat.zero_le _

/-- A decimal number ends in the text. -/
theorem decimalEnd_le (cs : List Char) : decimalEnd cs ≤ cs.length := by
  have whole := runEnd_le Char.isDigit cs
  have fraction := fractionEnd_le (cs.drop (runEnd Char.isDigit cs))
  have exponent := exponentEnd_le
    (cs.drop (runEnd Char.isDigit cs + fractionEnd (cs.drop (runEnd Char.isDigit cs))))
  rw [List.length_drop] at fraction exponent
  simp only [decimalEnd]
  omega

/-- A number of any base ends in the text. -/
theorem numberEnd_le (cs : List Char) : numberEnd cs ≤ cs.length := by
  unfold numberEnd
  split
  · next ds => simpa using runEnd_le isHexDigit ds
  · next ds => simpa using runEnd_le isHexDigit ds
  · exact decimalEnd_le cs

/-- A number has at least the digit that it starts with. -/
theorem numberEnd_pos {c : Char} (h : c.isDigit = true) (cs : List Char) :
    0 < numberEnd (c :: cs) := by
  unfold numberEnd
  split
  · omega
  · omega
  · have := runEnd_pos h cs
    simp only [decimalEnd]
    omega

/-- A raw string ends behind where it is looked at, and in the text. -/
theorem rawStringEnd?_bounds {n m : Nat} {cs : List Char} (h : rawStringEnd? n cs = some m) :
    n < m ∧ m ≤ n + cs.length := by
  fun_induction rawStringEnd? n cs <;> simp_all <;> omega

/-- A string ends behind where it is looked at, and in the text. -/
theorem stringEnd_bounds {depth start n m : Nat} {outer : List OpenString} {cs : List Char}
    (h : stringEnd depth start outer n cs = .ok m) : n < m ∧ m ≤ n + cs.length := by
  fun_induction stringEnd depth start outer n cs <;> simp_all <;> omega

/-- A string ends inside the text, behind its opening quote. -/
theorem anyStringEnd_bounds {n : Nat} {cs : List Char} (h : anyStringEnd cs = .ok n) :
    0 < n ∧ n ≤ cs.length + 1 := by
  unfold anyStringEnd at h
  split at h
  · split at h
    · next hr =>
      cases h
      have := rawStringEnd?_bounds hr
      simp only [List.length_cons]; omega
    · simp at h
  · have := stringEnd_bounds h
    omega

/-- The character that starts a name belongs to it. -/
theorem isNamePart_of_isNameStart {c : Char} (h : Text.isNameStart c = true) :
    Text.isNamePart c = true := by
  simp only [Text.isNameStart, Text.isNamePart, Text.isAlphanumeric, Bool.or_eq_true] at *
  rcases h with h | h
  · exact .inl (.inl h)
  · exact .inr h

/-- A token has at least one character and ends inside the text. -/
theorem scan_bounds {cs : List Char} {k : Kind} {n : Nat} (h : scan cs = .ok (some (k, n))) :
    0 < n ∧ n ≤ cs.length := by
  unfold scan at h
  split at h
  · simp at h
  · simp at h; obtain ⟨-, rfl⟩ := h; simp
  · next ds =>
    cases hs : anyStringEnd ds with
    | error e => simp [hs, Except.map] at h
    | ok r =>
      simp [hs, Except.map] at h
      obtain ⟨-, rfl⟩ := h
      exact anyStringEnd_bounds hs
  · next c ds _ _ =>
    split at h
    · next hd =>
      simp at h
      obtain ⟨-, rfl⟩ := h
      exact ⟨numberEnd_pos hd ds, numberEnd_le _⟩
    · split at h
      · next hn =>
        simp at h
        obtain ⟨-, rfl⟩ := h
        exact ⟨runEnd_pos (isNamePart_of_isNameStart hn) ds, runEnd_le _ _⟩
      · split at h
        · next s hs =>
          simp at h
          obtain ⟨-, rfl⟩ := h
          exact ⟨List.length_pos_iff.mpr s.spelling_ne_nil,
            (Symbol.spelling_prefix_of_read hs).length_le⟩
        · simp at h

end Lexeme
end WrenAnalysis
