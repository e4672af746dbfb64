/-
# One token and what follows it

`Lexeme.Scans` has one rule for each kind of token that `Lexeme.scan` can find.  Where a
token ends may hang on what follows it, but only on three characters and on none behind a
blank or a newline (`Lexeme.lookahead`): a text that shares the token's characters and
holds no more behind them gives the same token (`Lexeme.Scans.shares`).
-/

import Mathlib.Data.List.Infix
import Mathlib.Data.List.Nodup
import WrenAnalysis.Token.Extent

namespace WrenAnalysis
namespace Lexeme

/-- The token at the front of a text, by its first character. -/
inductive Scans : List Char → Kind → Nat → Prop
  | line {cs : List Char} : Scans ('\n' :: cs) .line 1
  | string {cs : List Char} {n : Nat} : anyStringEnd cs = .ok n → Scans ('"' :: cs) .string n
  | number {c : Char} {cs : List Char} : c ≠ '\n' → c ≠ '"' → c.isDigit = true →
      Scans (c :: cs) .number (numberEnd (c :: cs))
  | word {c : Char} {cs : List Char} : c ≠ '\n' → c ≠ '"' → c.isDigit = false →
      Text.isNameStart c = true →
      Scans (c :: cs) (.ofWord (.ofList ((c :: cs).take (nameEnd (c :: cs))))) (nameEnd (c :: cs))
  | symbol {c : Char} {cs : List Char} {s : Symbol} : c ≠ '\n' → c ≠ '"' → c.isDigit = false →
      Text.isNameStart c = false → Symbol.read (c :: cs) = some s →
      Scans (c :: cs) (.symbol s) s.spelling.length

variable {c : Char} {cs cs' u v : List Char} {k : Kind} {n m : Nat}

/-- The scan finds the token that the first character calls for. -/
theorem scan_eq_ok_iff : scan cs = .ok (some (k, n)) ↔ Scans cs k n := by
  constructor
  · intro h
    unfold scan at h
    split at h
    · cases h
    · cases h
      exact .line
    · next ds =>
      cases hs : anyStringEnd ds with
      | error e => simp [hs, Except.map] at h
      | ok m =>
        simp only [hs, Except.map, Except.ok.injEq, Option.some.injEq, Prod.mk.injEq] at h
        obtain ⟨rfl, rfl⟩ := h
        exact .string hs
    · next c ds hline hquote =>
      split at h
      · next hdigit => cases h; exact .number hline hquote hdigit
      · next hdigit =>
        have hdigit : c.isDigit = false := by simpa using hdigit
        split at h
        · next hname => cases h; exact .word hline hquote hdigit hname
        · next hname =>
          have hname : Text.isNameStart c = false := by simpa using hname
          split at h
          · next hread => cases h; exact .symbol hline hquote hdigit hname hread
          · cases h
  · intro h
    cases h with
    | line => rfl
    | string h => simp [scan, h, Except.map]
    | number hline hquote hdigit => simp [scan, hdigit]
    | word hline hquote hdigit hname => simp [scan, hdigit, hname]
    | symbol hline hquote hdigit hname hread =>
      simp [scan, hdigit, hname, hread]

/-- No scan finds the end of the text. -/
theorem Scans.kind_ne_eof (h : Scans cs k n) : k ≠ .eof := by
  cases h with
  | word =>
    unfold Kind.ofWord
    split <;> exact nofun
  | _ => exact nofun

/-! ### Looking ahead -/

/-- Characters that a scan never has to look at behind a token. -/
def unseen : List Char := [' ', '\n', ',', ')']

/-- A scan looks at three characters behind a token at most, and at none from an unseen
one on. -/
def lookahead (cs : List Char) : List Char := (cs.takeWhile (· ∉ unseen)).take 3

/-- Two texts have the first `n` characters in common, and behind them there is no more to
look at in `cs'` than in `cs`. -/
def Shares (n : Nat) (cs cs' : List Char) : Prop :=
  ∃ u v v', u.length = n ∧ cs = u ++ v ∧ cs' = u ++ v' ∧ lookahead v' <+: lookahead v

/-- What is looked at stands at the front. -/
theorem lookahead_isPrefix (cs : List Char) : lookahead cs <+: cs :=
  (List.take_prefix _ _).trans (List.takeWhile_prefix _)

/-- From an unseen character on nothing is seen. -/
theorem lookahead_unseen (cs : List Char) {c : Char} (hc : c ∈ unseen) (after : List Char) :
    lookahead (cs ++ c :: after) = lookahead cs := by
  unfold lookahead
  rw [List.takeWhile_append]
  split
  · next hlen =>
    rw [(List.takeWhile_prefix _).eq_of_length hlen, List.takeWhile_cons_of_neg (by simpa using hc),
      List.append_nil]
  · rfl

/-- A few characters at the front of a text are seen. -/
theorem prefix_lookahead (hlen : u.length ≤ 3) (hu : ∀ c ∈ u, c ∉ unseen)
    (h : u <+: cs) : u <+: lookahead cs := by
  obtain ⟨v, rfl⟩ := h
  rw [lookahead, List.takeWhile_append_of_pos (by simpa using hu), List.take_append]
  rw [List.take_of_length_le hlen]
  exact List.prefix_append _ _

section Shares

/-- Texts with the same front share it if there is no more to look at behind it. -/
theorem shares_append (u : List Char) {v v' : List Char} (h : lookahead v' <+: lookahead v) :
    Shares u.length (u ++ v) (u ++ v') :=
  ⟨u, v, v', rfl, rfl, rfl, h⟩

/-- What is shared is the same in both. -/
theorem Shares.unappend (h : Shares n (u ++ cs) cs') (hu : u.length ≤ n) :
    ∃ ds, cs' = u ++ ds ∧ Shares (n - u.length) cs ds := by
  obtain ⟨w, v, v', rfl, hcs, rfl, hv⟩ := h
  have hpre : u <+: w :=
    List.prefix_of_prefix_length_le ⟨cs, hcs⟩ (List.prefix_append w v) hu
  obtain ⟨r, rfl⟩ := hpre
  rw [List.append_assoc, List.append_cancel_left_eq] at hcs
  exact ⟨r ++ v', List.append_assoc .., r, v, v', by simp, hcs, rfl, hv⟩

/-- Texts that share a front share its first character. -/
theorem Shares.uncons (h : Shares (n + 1) (c :: cs) cs') :
    ∃ ds, cs' = c :: ds ∧ Shares n cs ds :=
  h.unappend (u := [c]) (Nat.le_add_left 1 n)

/-- The characters that texts share are the same. -/
theorem Shares.take_eq (h : Shares n cs cs') : cs.take n = cs'.take n := by
  obtain ⟨u, v, v', rfl, rfl, rfl, -⟩ := h
  rw [List.take_left, List.take_left]

/-- Behind some of the characters, texts share the others. -/
theorem Shares.drop (h : Shares n cs cs') (hm : m ≤ n) :
    Shares (n - m) (cs.drop m) (cs'.drop m) := by
  obtain ⟨u, v, v', rfl, rfl, rfl, hv⟩ := h
  refine ⟨u.drop m, v, v', by simp, ?_, ?_, hv⟩ <;> exact List.drop_append_of_le_length hm

/-- What starts one of two texts in the characters that they share starts the other. -/
theorem Shares.prefix_iff (h : Shares n cs cs') (hu : u.length = n) : u <+: cs ↔ u <+: cs' := by
  obtain ⟨w, v, v', rfl, rfl, rfl, -⟩ := h
  have hcut : ∀ r, u <+: w ++ r ↔ u = w := fun r =>
    ⟨fun hpre => (List.prefix_of_prefix_length_le hpre (List.prefix_append w r) hu.le).eq_of_length
      hu, fun he => he ▸ List.prefix_append w r⟩
  rw [hcut, hcut]

/-- What can be seen in the second text stands in the first. -/
theorem Shares.isPrefix (h : Shares n cs cs') (hlen : u.length ≤ 3)
    (hu : ∀ c ∈ u, c ∉ unseen) (hpre : u <+: cs') : u <+: cs := by
  obtain ⟨w, v, v', -, rfl, rfl, hv⟩ := h
  obtain ⟨t, ht⟩ := hpre
  rcases List.append_eq_append_iff.1 ht with ⟨r, rfl, -⟩ | ⟨r, rfl, rfl⟩
  · rw [List.append_assoc]
    exact List.prefix_append u _
  · -- The part behind the shared characters is seen in both.
    have hr : r <+: lookahead (r ++ t) :=
      prefix_lookahead (by rw [List.length_append] at hlen; omega)
        (fun c hc => hu c (List.mem_append_right w hc)) (List.prefix_append r t)
    exact (List.prefix_append_right_inj w).2 ((hr.trans hv).trans (lookahead_isPrefix v))

end Shares

/-! ### Runs and numbers -/

/-- A run among the characters that texts share ends at the same place in both. -/
theorem Shares.run {p : Char → Bool} (h : Shares n cs cs') (hunseen : ∀ c ∈ unseen, p c = false)
    (hn : runEnd p cs ≤ n) : runEnd p cs' = runEnd p cs := by
  induction n generalizing cs cs' with
  | zero =>
    have hstop : Lexeme.runEnd p cs = 0 := Nat.le_zero.1 hn
    rw [hstop]
    cases cs' with
    | nil => rfl
    | cons c ds =>
      by_contra hne
      -- A character of the class is seen, so it would stand in the first text as well.
      have hc : p c = true := by
        by_contra hc
        exact hne (by simp [Lexeme.runEnd, hc])
      have hpre := h.isPrefix (u := [c]) (by simp)
        (List.forall_mem_singleton.2 fun hmem => by simp [hunseen c hmem] at hc)
        (List.prefix_append [c] ds)
      obtain ⟨t, rfl⟩ := hpre
      exact absurd hstop (runEnd_pos hc t).ne'
  | succ n ih =>
    cases cs with
    | nil => obtain ⟨_ | _, v, v', hu, hcs, -, -⟩ := h <;> simp at hu hcs
    | cons c cs =>
      obtain ⟨ds, rfl, hds⟩ := h.uncons
      cases hc : p c with
      | false => simp [Lexeme.runEnd, hc]
      | true =>
        have hrun : ∀ es, Lexeme.runEnd p (c :: es) = Lexeme.runEnd p es + 1 := fun es => by
          simp [Lexeme.runEnd, hc]
        rw [hrun] at hn
        rw [hrun, hrun, ih hds (Nat.le_of_succ_le_succ hn)]

/-- A digit is always looked at. -/
theorem digit_of_unseen : ∀ c ∈ unseen, c.isDigit = false := by simp [unseen]

/-- A character of a name is always looked at. -/
theorem isNamePart_of_unseen : ∀ c ∈ unseen, Text.isNamePart c = false := by
  have hall : unseen.all (fun c => !Text.isNamePart c) = true := by decide +kernel
  simpa using List.all_eq_true.1 hall

/-- Digits are not among the characters that are not looked at. -/
theorem notMem_unseen_of_isDigit (h : c.isDigit = true) : c ∉ unseen := fun hc => by
  simp [digit_of_unseen c hc] at h

/-- Digits among the characters that texts share end at the same place in both. -/
theorem Shares.digits (h : Shares n cs cs') (hn : Lexeme.runEnd Char.isDigit cs ≤ n) :
    Lexeme.runEnd Char.isDigit cs' = Lexeme.runEnd Char.isDigit cs :=
  h.run digit_of_unseen hn

/-- A fraction goes on behind its first digit. -/
theorem fractionEnd_of_digit (hc : c.isDigit = true) :
    fractionEnd ('.' :: c :: cs) = runEnd Char.isDigit cs + 2 := by
  simp [fractionEnd, hc]

/-- There is a fraction only if a digit stands behind the dot. -/
theorem fractionEnd_cases (cs : List Char) : fractionEnd cs = 0 ∨
    ∃ c ds, c.isDigit = true ∧ cs = '.' :: c :: ds := by
  fun_cases fractionEnd cs with
  | case1 c ds hc => exact .inr ⟨c, ds, hc, rfl⟩
  | case2 | case3 => exact .inl rfl

/-- A fraction among the characters that texts share ends at the same place in both. -/
theorem Shares.fraction (h : Shares n cs cs') (hn : fractionEnd cs ≤ n) :
    fractionEnd cs' = fractionEnd cs := by
  rcases fractionEnd_cases cs with h0 | ⟨c, ds, hc, rfl⟩
  · rw [h0]
    rcases fractionEnd_cases cs' with h0' | ⟨c, ds, hc, rfl⟩
    · exact h0'
    · obtain ⟨t, rfl⟩ := h.isPrefix (u := ['.', c]) (by simp)
        (by simpa using ⟨by decide, notMem_unseen_of_isDigit hc⟩) (List.prefix_append ['.', c] ds)
      rw [List.cons_append, List.cons_append, fractionEnd_of_digit hc] at h0
      omega
  · rw [fractionEnd_of_digit hc] at hn ⊢
    obtain ⟨es, rfl, hes⟩ := h.unappend (u := ['.', c]) (by simp; omega)
    rw [List.cons_append, List.cons_append, fractionEnd_of_digit hc, List.nil_append,
      hes.digits (by simp; omega)]

/-- What comes before the digits of an exponent. -/
def IsExponentHead (u : List Char) : Prop :=
  u ∈ [['e'], ['E'], ['e', '+'], ['E', '+'], ['e', '-'], ['E', '-']]

/-- At most two characters stand in front of the digits of an exponent, and all are looked at. -/
theorem IsExponentHead.bounds (hu : IsExponentHead u) :
    u.length ≤ 2 ∧ ∀ c ∈ u, c ∉ unseen := by
  simp only [IsExponentHead, List.mem_cons, List.not_mem_nil, or_false] at hu
  rcases hu with rfl | rfl | rfl | rfl | rfl | rfl <;> simp [unseen]

/-- An exponent goes on behind its first digit. -/
theorem exponentEnd_of_digit (hu : IsExponentHead u) (hc : c.isDigit = true) :
    exponentEnd (u ++ c :: cs) = runEnd Char.isDigit cs + (u.length + 1) := by
  simp only [IsExponentHead, List.mem_cons, List.not_mem_nil, or_false] at hu
  rcases hu with rfl | rfl | rfl | rfl | rfl | rfl <;>
    simp [exponentEnd, exponentDigitsEnd, hc, show ('+' : Char).isDigit = false by decide,
      show ('-' : Char).isDigit = false by decide]

/-- There are digits of an exponent only if one stands there or behind a sign. -/
theorem exponentDigitsEnd_cases (cs : List Char) : exponentDigitsEnd cs = 0 ∨
    ∃ u c ds, u ∈ [[], ['+'], ['-']] ∧ c.isDigit = true ∧ cs = u ++ c :: ds := by
  fun_cases exponentDigitsEnd cs with
  | case2 c ds hc => exact .inr ⟨[], c, ds, by simp, hc, rfl⟩
  | case4 c hc hs d ds hd =>
    refine .inr ⟨[c], d, ds, ?_, hd, rfl⟩
    rcases hs with rfl | rfl <;> simp
  | _ => exact .inl rfl

/-- There is an exponent only if a digit stands behind its head. -/
theorem exponentEnd_cases (cs : List Char) : exponentEnd cs = 0 ∨
    ∃ u c ds, IsExponentHead u ∧ c.isDigit = true ∧ cs = u ++ c :: ds := by
  fun_cases exponentEnd cs with
  | case3 e cs he n hn =>
    rcases exponentDigitsEnd_cases cs with h0 | ⟨u, c, ds, hu, hc, rfl⟩
    · rw [hn] at h0
      cases h0
    · refine .inr ⟨e :: u, c, ds, ?_, hc, rfl⟩
      simp only [List.mem_cons, List.not_mem_nil, or_false] at hu
      rcases he with rfl | rfl <;> rcases hu with rfl | rfl | rfl <;> simp [IsExponentHead]
  | _ => exact .inl rfl

/-- An exponent among the characters that texts share ends at the same place in both. -/
theorem Shares.exponent (h : Shares n cs cs') (hn : exponentEnd cs ≤ n) :
    exponentEnd cs' = exponentEnd cs := by
  rcases exponentEnd_cases cs with h0 | ⟨u, c, ds, hu, hc, rfl⟩
  · rw [h0]
    rcases exponentEnd_cases cs' with h0' | ⟨u, c, ds, hu, hc, rfl⟩
    · exact h0'
    · have hseen : ∀ d ∈ u ++ [c], d ∉ unseen :=
        List.forall_mem_append.2 ⟨hu.bounds.2, by simpa using notMem_unseen_of_isDigit hc⟩
      obtain ⟨t, rfl⟩ := h.isPrefix (u := u ++ [c])
        (by have := hu.bounds.1; simp; omega) hseen ⟨ds, by simp⟩
      rw [List.append_assoc, List.singleton_append, exponentEnd_of_digit hu hc] at h0
      omega
  · rw [exponentEnd_of_digit hu hc] at hn ⊢
    rw [List.append_cons] at h
    obtain ⟨es, rfl, hes⟩ := h.unappend (by simp; omega)
    rw [List.append_assoc, List.singleton_append, exponentEnd_of_digit hu hc,
      hes.digits (by simp; omega)]

/-- A decimal number among the characters that texts share ends at the same place in both. -/
theorem Shares.decimal (h : Shares n cs cs') (hn : decimalEnd cs ≤ n) :
    decimalEnd cs' = decimalEnd cs := by
  simp only [decimalEnd] at hn ⊢
  have hwhole := h.digits (by omega)
  have hrest := h.drop (m := runEnd Char.isDigit cs) (by omega)
  have hfraction := hrest.fraction (by omega)
  rw [hwhole, hfraction]
  have hrest := h.drop (m := runEnd Char.isDigit cs +
    fractionEnd (cs.drop (runEnd Char.isDigit cs))) (by omega)
  rw [hrest.exponent (by omega)]

/-- What comes before the digits of a hexadecimal number. -/
def IsHexHead (u : List Char) : Prop := u ∈ [['0', 'x'], ['0', 'X']]

/-- A hexadecimal number goes on behind its two first characters. -/
theorem numberEnd_of_hex (hu : IsHexHead u) (cs : List Char) :
    numberEnd (u ++ cs) = runEnd isHexDigit cs + 2 ∧ u.length = 2 := by
  simp only [IsHexHead, List.mem_cons, List.not_mem_nil, or_false] at hu
  rcases hu with rfl | rfl <;> exact ⟨rfl, rfl⟩

/-- A number is decimal, or it starts as a hexadecimal one does. -/
theorem numberEnd_cases (cs : List Char) :
    (numberEnd cs = decimalEnd cs ∧ ∀ u, IsHexHead u → ¬ u <+: cs) ∨
      ∃ u ds, IsHexHead u ∧ cs = u ++ ds := by
  fun_cases numberEnd cs with
  | case1 ds => exact .inr ⟨['0', 'x'], ds, by simp [IsHexHead], rfl⟩
  | case2 ds => exact .inr ⟨['0', 'X'], ds, by simp [IsHexHead], rfl⟩
  | case3 _ hx hX =>
    refine .inl ⟨rfl, fun u hu => ?_⟩
    simp only [IsHexHead, List.mem_cons, List.not_mem_nil, or_false] at hu
    rcases hu with rfl | rfl <;> rintro ⟨t, rfl⟩
    · exact hx t rfl
    · exact hX t rfl

/-- A number that texts share ends at the same place in both. -/
theorem Shares.number (h : Shares (numberEnd cs) cs cs') : numberEnd cs' = numberEnd cs := by
  rcases numberEnd_cases cs with ⟨hdecimal, hno⟩ | ⟨u, ds, hu, rfl⟩
  · rw [hdecimal] at h ⊢
    rcases numberEnd_cases cs' with ⟨hdecimal', -⟩ | ⟨u, ds, hu, rfl⟩
    · rw [hdecimal', h.decimal le_rfl]
    · refine absurd (h.isPrefix ?_ ?_ (List.prefix_append u ds)) (hno u hu)
      · rw [(numberEnd_of_hex hu ds).2]
        decide
      · simp only [IsHexHead, List.mem_cons, List.not_mem_nil, or_false] at hu
        rcases hu with rfl | rfl <;> simp [unseen]
  · obtain ⟨hend, hlen⟩ := numberEnd_of_hex hu ds
    rw [hend] at h ⊢
    obtain ⟨es, rfl, hes⟩ := h.unappend (by omega)
    rw [(numberEnd_of_hex hu es).1, hes.run (by simp [unseen, isHexDigit]) (by omega)]

/-! ### Strings -/

/-- A raw string that texts share ends at the same place in both. -/
theorem Shares.rawString (h : rawStringEnd? m cs = some n) (hs : Shares (n - m) cs cs') :
    rawStringEnd? m cs' = some n := by
  fun_induction rawStringEnd? m cs generalizing cs' with
  | case1 => cases h
  | case2 m cs =>
    cases h
    obtain ⟨ds, rfl, -⟩ := hs.unappend (u := ['"', '"', '"']) (by simp)
    rfl
  | case3 m c cs hc ih =>
    have hlt := (rawStringEnd?_bounds h).1
    obtain ⟨ds, rfl, hds⟩ := hs.unappend (u := [c]) (by simp; omega)
    have hopen : ¬ ['"', '"', '"'] <+: c :: ds := fun hpre => by
      obtain ⟨t, ht⟩ := hs.isPrefix (by simp) (by simp [unseen]) hpre
      obtain ⟨rfl, rfl⟩ := List.cons.inj ht
      exact hc t rfl rfl
    have hnext : rawStringEnd? m (c :: ds) = rawStringEnd? (m + 1) ds := by
      rw [rawStringEnd?]
      rintro t rfl rfl
      exact hopen (List.prefix_append ['"', '"', '"'] t)
    rw [List.singleton_append, hnext]
    exact ih h (by rwa [List.length_singleton, Nat.sub_sub] at hds)

/-- A string is closed by its own characters. -/
theorem Shares.string {depth start : Nat} {outer : List OpenString}
    (h : stringEnd depth start outer m cs = .ok n) (hs : Shares (n - m) cs cs') :
    stringEnd depth start outer m cs' = .ok n := by
  fun_induction stringEnd depth start outer m cs generalizing cs' with
  | case1 | case4 | case8 => cases h
  | case2 start m cs =>
    cases h
    obtain ⟨ds, rfl, -⟩ := hs.unappend (u := ['"']) (by simp)
    rfl
  | case3 start o outer m cs ih =>
    have hlt := (stringEnd_bounds h).1
    obtain ⟨ds, rfl, hds⟩ := hs.unappend (u := ['"']) (by simp; omega)
    exact ih h (by rwa [List.length_singleton, Nat.sub_sub] at hds)
  | case5 start outer m c cs ih =>
    have hlt := (stringEnd_bounds h).1
    obtain ⟨ds, rfl, hds⟩ := hs.unappend (u := ['\\', c]) (by simp; omega)
    rw [List.cons_append, List.singleton_append, stringEnd]
    exact ih h (by rwa [Nat.sub_sub] at hds)
  | case6 start outer m cs ih =>
    have hlt := (stringEnd_bounds h).1
    obtain ⟨ds, rfl, hds⟩ := hs.unappend (u := ['%', '(']) (by simp; omega)
    rw [List.cons_append, List.singleton_append, stringEnd]
    exact ih h (by rwa [Nat.sub_sub] at hds)
  | case7 start outer m c cs hlast hquote hend hescape hopen ih =>
    have hlt := (stringEnd_bounds h).1
    obtain ⟨ds, rfl, hds⟩ := hs.unappend (u := [c]) (by simp; omega)
    have hbackslash : c ≠ '\\' := fun hc => by
      cases cs with
      | nil => exact hend hc rfl
      | cons d cs => exact hescape d cs hc rfl
    have hopen' : ∀ t, c = '%' → ds = '(' :: t → False := by
      rintro t rfl rfl
      obtain ⟨r, hr⟩ := hs.isPrefix (by simp) (by simp [unseen])
        (List.prefix_append ['%', '('] t)
      exact hopen r rfl (List.cons.inj hr).2.symm
    rw [List.singleton_append, stringEnd]
    · exact ih h (by rwa [List.length_singleton, Nat.sub_sub] at hds)
    · exact fun hc _ => hbackslash hc
    · exact fun _ _ hc _ => hbackslash hc
    · exact hopen'
    · exact hlast
    · exact hquote
  | case9 depth start outer m cs ih =>
    have hlt := (stringEnd_bounds h).1
    obtain ⟨ds, rfl, hds⟩ := hs.unappend (u := ['(']) (by simp; omega)
    rw [List.singleton_append, stringEnd]
    exact ih h (by rwa [List.length_singleton, Nat.sub_sub] at hds)
  | case10 depth start outer m cs ih =>
    have hlt := (stringEnd_bounds h).1
    obtain ⟨ds, rfl, hds⟩ := hs.unappend (u := [')']) (by simp; omega)
    rw [List.singleton_append, stringEnd]
    exact ih h (by rwa [List.length_singleton, Nat.sub_sub] at hds)
  | case11 depth start outer m cs ih =>
    have hlt := (stringEnd_bounds h).1
    obtain ⟨ds, rfl, hds⟩ := hs.unappend (u := ['"']) (by simp; omega)
    rw [List.singleton_append, stringEnd]
    exact ih h (by rwa [List.length_singleton, Nat.sub_sub] at hds)
  | case12 depth start outer m c cs hopen hclose hquote ih =>
    have hlt := (stringEnd_bounds h).1
    obtain ⟨ds, rfl, hds⟩ := hs.unappend (u := [c]) (by simp; omega)
    rw [List.singleton_append, stringEnd]
    · exact ih h (by rwa [List.length_singleton, Nat.sub_sub] at hds)
    all_goals assumption

/-- A string that texts share ends at the same place in both. -/
theorem Shares.anyString (h : anyStringEnd cs = .ok n) (hs : Shares (n - 1) cs cs') :
    anyStringEnd cs' = .ok n := by
  unfold anyStringEnd at h
  split at h
  · next ds =>
    split at h
    · next hraw =>
      cases h
      have hlt := (rawStringEnd?_bounds hraw).1
      obtain ⟨es, rfl, hes⟩ := hs.unappend (u := ['"', '"']) (by simp; omega)
      have hraw' := Shares.rawString hraw (by rwa [Nat.sub_sub] at hes)
      simp [anyStringEnd, hraw']
    · cases h
  · next hno =>
    have hraw : ∀ ds, cs' = '"' :: '"' :: ds → False := by
      rintro ds rfl
      obtain ⟨t, rfl⟩ := hs.isPrefix (by simp) (by simp [unseen])
        (List.prefix_append ['"', '"'] ds)
      exact hno t rfl
    rw [anyStringEnd]
    · exact Shares.string h hs
    · exact hraw

/-! ### Symbols and words -/

end Lexeme

/-- The symbols are listed from the longest to the shortest. -/
theorem Symbol.length_sorted :
    Symbol.longestFirst.Pairwise fun s t => t.spelling.length ≤ s.spelling.length := by
  decide +kernel

/-- No two symbols are spelled alike. -/
theorem Symbol.spelling_injective {s t : Symbol} (h : s.spelling = t.spelling) : s = t := by
  have hnodup : (Symbol.longestFirst.map Symbol.spelling).Nodup := by decide +kernel
  exact List.inj_on_of_nodup_map hnodup (mem_longestFirst s) (mem_longestFirst t) h

/-- A symbol is the longest that stands at the front of a text. -/
theorem Symbol.read_eq_some_iff {cs : List Char} {s : Symbol} : Symbol.read cs = some s ↔
    s.spelling <+: cs ∧
      ∀ t : Symbol, t.spelling <+: cs → t.spelling.length ≤ s.spelling.length := by
  have longest : ∀ s, Symbol.read cs = some s → ∀ t : Symbol, t.spelling <+: cs →
      t.spelling.length ≤ s.spelling.length := by
    intro s h t ht
    obtain ⟨-, before, behind, hlist, hbefore⟩ := List.find?_eq_some_iff_append.1 h
    have hmem := mem_longestFirst t
    have hsorted := length_sorted
    rw [hlist] at hmem hsorted
    rcases List.mem_append.1 hmem with hmem | hmem
    · have hno := hbefore t hmem
      rw [List.isPrefixOf_iff_prefix.2 ht] at hno
      cases hno
    · rcases List.mem_cons.1 hmem with rfl | hmem
      · exact le_rfl
      · exact (List.pairwise_cons.1 (List.pairwise_append.1 hsorted).2.1).1 t hmem
  refine ⟨fun h => ⟨spelling_prefix_of_read h, longest s h⟩, fun ⟨hs, hmax⟩ => ?_⟩
  cases h : Symbol.read cs with
  | none =>
    exact absurd (List.isPrefixOf_iff_prefix.2 hs) (List.find?_eq_none.1 h s (mem_longestFirst s))
  | some t =>
    have ht := spelling_prefix_of_read h
    have hlen := Nat.le_antisymm (hmax t ht) (longest t h s hs)
    have heq := (List.prefix_of_prefix_length_le ht hs hlen.le).eq_of_length hlen
    rw [spelling_injective heq]

namespace Lexeme

variable {c : Char} {cs cs' : List Char} {k : Kind} {n : Nat}

/-- A symbol that texts share is found in both. -/
theorem Shares.symbol {s : Symbol} (h : Symbol.read cs = some s)
    (hs : Shares s.spelling.length cs cs') : Symbol.read cs' = some s := by
  obtain ⟨hpre, hmax⟩ := Symbol.read_eq_some_iff.1 h
  refine Symbol.read_eq_some_iff.2 ⟨(hs.prefix_iff rfl).1 hpre, fun t ht => ?_⟩
  -- A symbol with an unseen character is no longer than that, and `s` is no shorter.
  have hchars : (∀ c ∈ t.spelling, c ∉ unseen) ∨ t.spelling.length ≤ 1 := by
    cases t <;> simp [Symbol.spelling, unseen]
  rcases hchars with hseen | hshort
  · exact hmax t (hs.isPrefix (by cases t <;> decide) hseen ht)
  · exact hshort.trans (List.length_pos_iff.2 s.spelling_ne_nil)

/-- **A token ends where it ends.**  A text with the characters of a token, and no more to
look at behind them, has the same token. -/
theorem Scans.shares (h : Scans cs k n) (hs : Shares n cs cs') : Scans cs' k n := by
  cases h with
  | line =>
    obtain ⟨ds, rfl, -⟩ := hs.uncons
    exact .line
  | @string cs n hstring =>
    have hpos := (anyStringEnd_bounds hstring).1
    obtain ⟨ds, rfl, hds⟩ := hs.unappend (u := ['"']) (by simp; omega)
    exact .string (hds.anyString hstring)
  | @number c cs hline hquote hdigit =>
    obtain ⟨ds, rfl, -⟩ := hs.unappend (u := [c]) (numberEnd_pos hdigit cs)
    rw [← hs.number]
    exact .number hline hquote hdigit
  | @word c cs hline hquote hdigit hname =>
    have hpart := isNamePart_of_isNameStart hname
    obtain ⟨ds, rfl, -⟩ := hs.unappend (u := [c]) (runEnd_pos hpart cs)
    have hend : nameEnd (c :: ds) = nameEnd (c :: cs) :=
      hs.run isNamePart_of_unseen le_rfl
    rw [hs.take_eq, ← hend]
    exact .word hline hquote hdigit hname
  | @symbol c cs s hline hquote hdigit hname hread =>
    obtain ⟨ds, rfl, -⟩ := hs.unappend (u := [c]) (List.length_pos_iff.2 s.spelling_ne_nil)
    exact .symbol hline hquote hdigit hname (hs.symbol hread)

end Lexeme
end WrenAnalysis
