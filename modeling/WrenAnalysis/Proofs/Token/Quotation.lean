/-
# Strings and what is nested in them

A string holds interpolations, an interpolation holds strings and parentheses, and so on
inwards.  `Lexeme.Encloses` is the grammar of what may stand between the quotes of a string
and between the parentheses of an interpolation; it knows nothing of the scan.

The scan counts parentheses and keeps a stack of open strings instead.  What is open makes
a list of enclosures (`Lexeme.levels`).  A scan that ends has read what closes all of them,
one behind the other; one that fails is at a string that was open before or that opens on
the way (`Lexeme.comesTo_stringEnd`).  Conversely, the scan passes all that the grammar
allows (`Lexeme.Encloses.stringEnd_append`), so the string at the front of a text is found
if there is one, and there is never a second one (`Lexeme.stringEnd_grammar`).
-/

import WrenAnalysis.Proofs.Token.Tiling

namespace WrenAnalysis
namespace Lexeme

/-! ### The grammar -/

/-- What stands around some characters of a string. -/
inductive Enclosure where
  /-- The quotes of a string. -/
  | quotes
  /-- The parentheses of an interpolation, or parentheses in one. -/
  | parentheses
  deriving DecidableEq, Repr

/-- The character behind what is enclosed. -/
def Enclosure.closer : Enclosure → Char
  | .quotes => '"'
  | .parentheses => ')'

/-- Inside the first enclosure the characters open the second one. -/
inductive Enters : Enclosure → List Char → Enclosure → Prop
  | interpolation : Enters .quotes ['%', '('] .parentheses
  | group : Enters .parentheses ['('] .parentheses
  | string : Enters .parentheses ['"'] .quotes

/-- The characters may be all that stands between the two ends of an enclosure. -/
inductive Encloses : Enclosure → List Char → Prop
  | nil {e : Enclosure} : Encloses e []
  /-- A backslash takes any character with it. -/
  | escape {c : Char} {us : List Char} : Encloses .quotes us → Encloses .quotes ('\\' :: c :: us)
  /-- A character of a string that starts no interpolation. -/
  | char {c : Char} {us : List Char} : c ≠ '"' → c ≠ '\\' → ¬ ['%', '('] <+: c :: us →
      Encloses .quotes us → Encloses .quotes (c :: us)
  /-- A character of an interpolation that neither opens nor closes anything. -/
  | code {c : Char} {us : List Char} : c ∉ ['(', ')', '"'] →
      Encloses .parentheses us → Encloses .parentheses (c :: us)
  /-- One enclosure in another. -/
  | nested {e e' : Enclosure} {opener is us : List Char} : Enters e opener e' →
      Encloses e' is → Encloses e us → Encloses e (opener ++ (is ++ e'.closer :: us))

/-- A string, from its first quote to its last. -/
def IsString (s : List Char) : Prop := ∃ us, s = '"' :: (us ++ ['"']) ∧ Encloses .quotes us

/-- A quote behind the characters, which are the first ones in an enclosure, opens a string
in an interpolation. -/
inductive Nests : Enclosure → List Char → Prop
  | here {us : List Char} : Encloses .parentheses us → Nests .parentheses us
  | inside {e e' : Enclosure} {opener us vs : List Char} : Enters e opener e' →
      Encloses e us → Nests e' vs → Nests e (us ++ (opener ++ vs))

variable {e e' : Enclosure} {es es' : List Enclosure} {opener w us vs cs rest : List Char}
  {c : Char} {starts starts' : List Nat} {depth start n : Nat} {outer : List OpenString}
  {r : Except Failure Nat}

/-- An inner enclosure may stand before what the outer one encloses. -/
theorem Encloses.before (h : Encloses e' vs) (henters : Enters e opener e') (hus : Encloses e us) :
    Encloses e (opener ++ (vs ++ [e'.closer]) ++ us) := by
  simpa using Encloses.nested henters h hus

/-- Characters that may stand before a part of what is enclosed may stand before a string
in it. -/
theorem Nests.append_left (h : Nests e vs)
    (hw : ∀ us, us <+: vs → Encloses e us → Encloses e (w ++ us)) : Nests e (w ++ vs) := by
  cases h with
  | here h => exact .here (hw _ (List.prefix_refl _) h)
  | inside henters hus hvs =>
    rw [← List.append_assoc]
    exact .inside henters (hw _ (List.prefix_append _ _) hus) hvs

/-! ### What is open -/

/-- The enclosures around a character, from the inside out. -/
def levels (depth : Nat) (outer : List OpenString) : List Enclosure :=
  .replicate depth .parentheses ++ .quotes ::
    outer.flatMap fun o => .replicate o.depth .parentheses ++ [.quotes]

/-- The innermost of some parentheses is around the others. -/
theorem levels_succ (depth : Nat) (outer : List OpenString) :
    levels (depth + 1) outer = .parentheses :: levels depth outer := rfl

/-- Outside of its parentheses, the quotes of a string are around a character. -/
theorem levels_zero_cons (o : OpenString) (outer : List OpenString) :
    levels 0 (o :: outer) = .quotes :: levels o.depth outer := by
  simp [levels]

/-- The characters end the enclosures, one behind the other. -/
def Finishes : List Enclosure → List Char → Prop
  | [], cs => cs = []
  | e :: es, cs => ∃ us vs, cs = us ++ e.closer :: vs ∧ Encloses e us ∧ Finishes es vs

/-- A quote behind the characters opens a string in an interpolation, of the innermost
enclosure or of one further out. -/
def OpensAhead : List Enclosure → List Char → Prop
  | [], _ => False
  | e :: es, cs =>
    Nests e cs ∨ ∃ us vs, cs = us ++ e.closer :: vs ∧ Encloses e us ∧ OpensAhead es vs

/-- Characters of the innermost enclosure may stand in front. -/
theorem Finishes.append_left (h : Finishes (e :: es) cs)
    (hw : ∀ us, us <+: cs → Encloses e us → Encloses e (w ++ us)) :
    Finishes (e :: es) (w ++ cs) := by
  obtain ⟨us, vs, rfl, hus, hvs⟩ := h
  exact ⟨w ++ us, vs, by simp, hw _ (List.prefix_append _ _) hus, hvs⟩

/-- Characters of the innermost enclosure may stand in front of those that lead to a string. -/
theorem OpensAhead.append_left (h : OpensAhead (e :: es) cs)
    (hw : ∀ us, us <+: cs → Encloses e us → Encloses e (w ++ us)) :
    OpensAhead (e :: es) (w ++ cs) := by
  rcases h with h | ⟨us, vs, rfl, hus, hvs⟩
  · exact .inl (h.append_left hw)
  · exact .inr ⟨w ++ us, vs, by simp, hw _ (List.prefix_append _ _) hus, hvs⟩

/-- What ends an inner enclosure is a part of the outer one. -/
theorem Finishes.nested (h : Finishes (e' :: e :: es) cs) (henters : Enters e opener e') :
    Finishes (e :: es) (opener ++ cs) := by
  obtain ⟨is, vs, rfl, his, hvs⟩ := h
  simpa using hvs.append_left fun us _ => his.before henters

/-- A string opened in an inner enclosure is opened in the ones around it. -/
theorem OpensAhead.nested (h : OpensAhead (e' :: e :: es) cs) (henters : Enters e opener e') :
    OpensAhead (e :: es) (opener ++ cs) := by
  rcases h with h | ⟨is, vs, rfl, his, hvs⟩
  · exact .inl (.inside henters .nil h)
  · simpa using hvs.append_left fun us _ => his.before henters

/-! ### Along the scan -/

/-- What a scan of `cs` comes to, with `n` characters before them, the enclosures `es` open
around them and open strings with `starts` characters before their quotes. -/
def ComesTo (es : List Enclosure) (starts : List Nat) (n : Nat) (cs : List Char) :
    Except Failure Nat → Prop
  | .ok m => ∃ used rest, cs = used ++ rest ∧ m = n + used.length ∧ Finishes es used
  | .error f => f.offset ∈ starts ∨ ∃ before behind, cs = before ++ '"' :: behind ∧
      f.offset = n + before.length ∧ OpensAhead es before

/-- Characters are passed that go with what ends the enclosures and with what leads to a
string in them. -/
theorem ComesTo.prepend (h : ComesTo es starts (n + w.length) cs r) (hstarts : starts ⊆ starts')
    (hfinish : ∀ us, us <+: cs → Finishes es us → Finishes es' (w ++ us))
    (hahead : ∀ us, us <+: cs → OpensAhead es us → OpensAhead es' (w ++ us)) :
    ComesTo es' starts' n (w ++ cs) r := by
  cases r with
  | ok m =>
    obtain ⟨used, rest, rfl, rfl, hused⟩ := h
    exact ⟨w ++ used, rest, by simp, by simp [Nat.add_assoc],
      hfinish used (List.prefix_append _ _) hused⟩
  | error f =>
    refine h.imp (hstarts ·) ?_
    rintro ⟨before, behind, rfl, hoffset, hbefore⟩
    exact ⟨w ++ before, behind, by simp, by simp [hoffset, Nat.add_assoc],
      hahead before (List.prefix_append _ _) hbefore⟩

/-- A part of the innermost enclosure is passed. -/
theorem ComesTo.part (h : ComesTo (e :: es) starts (n + w.length) cs r)
    (hw : ∀ us, us <+: cs → Encloses e us → Encloses e (w ++ us)) :
    ComesTo (e :: es) starts n (w ++ cs) r :=
  h.prepend (List.Subset.refl _)
    (fun _ hus hfinish => hfinish.append_left fun vs hvs => hw vs (hvs.trans hus))
    (fun _ hus hahead => hahead.append_left fun vs hvs => hw vs (hvs.trans hus))

/-- The innermost enclosure ends. -/
theorem ComesTo.close (h : ComesTo es starts (n + 1) cs r) (hstarts : starts ⊆ starts') :
    ComesTo (e :: es) starts' n (e.closer :: cs) r :=
  ComesTo.prepend (w := [e.closer]) h hstarts
    (fun us _ hfinish => ⟨[], us, rfl, .nil, hfinish⟩)
    (fun us _ hahead => .inr ⟨[], us, rfl, .nil, hahead⟩)

/-- An enclosure opens. -/
theorem ComesTo.nested (h : ComesTo (e' :: e :: es) starts (n + opener.length) cs r)
    (henters : Enters e opener e') : ComesTo (e :: es) starts n (opener ++ cs) r :=
  h.prepend (List.Subset.refl _) (fun _ _ hfinish => hfinish.nested henters)
    (fun _ _ hahead => hahead.nested henters)

/-- A string opens, which is one more that may be at fault. -/
theorem ComesTo.string
    (h : ComesTo (.quotes :: .parentheses :: es) (n :: starts) (n + 1) cs r) :
    ComesTo (.parentheses :: es) starts n ('"' :: cs) r := by
  have hnested : ComesTo (.parentheses :: es) (n :: starts) n ('"' :: cs) r := h.nested .string
  cases r with
  | ok m => exact hnested
  | error f =>
    rcases hnested with hstart | hahead
    · rcases List.mem_cons.1 hstart with hstart | hstart
      · exact .inr ⟨[], cs, rfl, hstart, .inl (.here .nil)⟩
      · exact .inl hstart
    · exact .inr hahead

/-- A scan reads what closes all that is open, or it fails at a string that is open or that
opens on the way. -/
theorem comesTo_stringEnd (depth start : Nat) (outer : List OpenString) (n : Nat)
    (cs : List Char) :
    ComesTo (levels depth outer) (start :: outer.map OpenString.start) n cs
      (stringEnd depth start outer n cs) := by
  fun_induction stringEnd depth start outer n cs with
  | case1 | case4 | case8 => exact .inl List.mem_cons_self
  | case2 start n cs =>
    have hend : ComesTo [] [] (n + 1) cs (.ok (n + 1)) := ⟨[], cs, rfl, rfl, rfl⟩
    exact hend.close (List.nil_subset _)
  | case3 start o outer n cs ih =>
    rw [levels_zero_cons]
    exact ih.close (List.subset_cons_self _ _)
  | case5 start outer n c cs ih => exact ih.part (w := ['\\', c]) fun _ _ h => .escape h
  | case6 start outer n cs ih =>
    rw [levels_succ] at ih
    exact ih.nested .interpolation
  | case7 start outer n c cs houter houter' hlast hescape hnested ih =>
    have hquote : c ≠ '"' := fun hc => by
      cases outer with
      | nil => exact houter rfl hc
      | cons o outer => exact houter' o outer rfl hc
    have hbackslash : c ≠ '\\' := fun hc => by
      cases cs with
      | nil => exact hlast hc rfl
      | cons d cs => exact hescape d cs hc rfl
    have hopener : ∀ us, us <+: cs → ¬ ['%', '('] <+: c :: us := by
      rintro us ⟨behind, rfl⟩ ⟨ds, hds⟩
      obtain ⟨rfl, rfl⟩ := List.cons.inj hds
      exact hnested (ds ++ behind) rfl rfl
    exact ih.part (w := [c]) fun us hus h => .char hquote hbackslash (hopener us hus) h
  | case9 depth start outer n cs ih =>
    rw [levels_succ, levels_succ] at ih
    exact ih.nested .group
  | case10 depth start outer n cs ih => exact ih.close (List.Subset.refl _)
  | case11 depth start outer n cs ih =>
    rw [levels_zero_cons] at ih
    exact ih.string
  | case12 depth start outer n c cs hopen hclose hquote ih =>
    have hc : c ∉ ['(', ')', '"'] := by
      simp only [List.mem_cons, List.not_mem_nil, or_false, not_or]
      exact ⟨hopen, hclose, hquote⟩
    exact ih.part (w := [c]) fun _ _ h => .code hc h

/-! ### What the scan passes -/

/-- A plain character of a string is passed. -/
theorem stringEnd_char (hquote : c ≠ '"') (hbackslash : c ≠ '\\')
    (hopener : ¬ ['%', '('] <+: c :: cs) :
    stringEnd 0 start outer n (c :: cs) = stringEnd 0 start outer (n + 1) cs := by
  rw [stringEnd]
  · exact fun h => absurd h hbackslash
  · exact fun _ _ h => absurd h hbackslash
  · rintro ds rfl rfl
    exact hopener (List.prefix_append ['%', '('] ds)
  · exact fun _ h => absurd h hquote
  · exact fun _ _ _ h => absurd h hquote

/-- A plain character of an interpolation is passed. -/
theorem stringEnd_code (hc : c ∉ ['(', ')', '"']) :
    stringEnd (depth + 1) start outer n (c :: cs) =
      stringEnd (depth + 1) start outer (n + 1) cs := by
  simp only [List.mem_cons, List.not_mem_nil, or_false, not_or] at hc
  rw [stringEnd]
  · exact hc.1
  · exact hc.2.1
  · exact hc.2.2

/-- With `depth` parentheses open in the innermost string, this is the innermost
enclosure. -/
inductive Enclosure.At : Enclosure → (depth : Nat) → Prop
  | quotes : At .quotes 0
  | parentheses {depth : Nat} : At .parentheses (depth + 1)

/-- The scan enters an enclosure with its opener and leaves it with its closer.  If a string
is open in it that was not before, it is the one that opens here. -/
theorem Enters.stringEnd (henters : Enters e opener e') (hat : e.At depth) (start n : Nat)
    (outer : List OpenString) :
    ∃ depth' start' outer', e'.At depth' ∧
      start' :: outer'.map OpenString.start ⊆ n :: start :: outer.map OpenString.start ∧
      (∀ cs, stringEnd depth start outer n (opener ++ cs) =
        stringEnd depth' start' outer' (n + opener.length) cs) ∧
      ∀ m cs, stringEnd depth' start' outer' m (e'.closer :: cs) =
        stringEnd depth start outer (m + 1) cs := by
  cases henters with
  | interpolation =>
    cases hat
    exact ⟨1, start, outer, .parentheses, List.subset_cons_self _ _, fun _ => rfl, fun _ _ => rfl⟩
  | group =>
    cases hat with
    | @parentheses depth =>
      exact ⟨depth + 2, start, outer, .parentheses, List.subset_cons_self _ _,
        fun _ => rfl, fun _ _ => rfl⟩
  | string =>
    cases hat with
    | @parentheses depth =>
      exact ⟨0, n, ⟨start, depth + 1⟩ :: outer, .quotes, List.Subset.refl _,
        fun _ => rfl, fun _ _ => rfl⟩

/-- No enclosure is closed by an opening parenthesis. -/
theorem Enclosure.closer_ne (e : Enclosure) : e.closer ≠ '(' := by cases e <;> decide

/-- The scan passes all that an enclosure may hold.  What follows must not make an
interpolation of a last `%`. -/
theorem Encloses.stringEnd_append (h : Encloses e us) (hat : e.At depth)
    (hrest : e = .quotes → rest.head? ≠ some '(') :
    stringEnd depth start outer n (us ++ rest) =
      stringEnd depth start outer (n + us.length) rest := by
  induction h generalizing depth start outer n rest with
  | nil => rfl
  | @escape c us _ ih =>
    cases hat
    have hlength : n + ('\\' :: c :: us).length = n + 2 + us.length := by
      simp only [List.length_cons]
      omega
    rw [hlength, List.cons_append, List.cons_append, Lexeme.stringEnd, ih .quotes hrest]
  | @char c us hquote hbackslash hopener _ ih =>
    cases hat
    have hopener' : ¬ ['%', '('] <+: c :: (us ++ rest) := by
      intro hpair
      cases us with
      | nil =>
        obtain ⟨-, ds, hds⟩ := List.cons_prefix_cons.1 hpair
        exact hrest rfl (by rw [← List.nil_append rest, ← hds]; rfl)
      | cons d us =>
        have hfront : c :: d :: us <+: c :: d :: us ++ rest := List.prefix_append _ rest
        exact hopener (List.prefix_of_prefix_length_le hpair hfront (by simp))
    rw [List.length_cons, List.cons_append, stringEnd_char hquote hbackslash hopener',
      ih .quotes hrest, Nat.add_assoc, Nat.add_comm 1]
  | @code c us hc _ ih =>
    cases hat
    rw [List.length_cons, List.cons_append, stringEnd_code hc, ih .parentheses hrest, Nat.add_assoc,
      Nat.add_comm 1]
  | @nested e e' opener is us henters _ _ ihis ihus =>
    obtain ⟨depth', start', outer', hat', -, henter, hleave⟩ := henters.stringEnd hat start n outer
    have hcloser : (e'.closer :: (us ++ rest)).head? ≠ some '(' := by
      simpa using e'.closer_ne
    have hlength : n + (opener ++ (is ++ e'.closer :: us)).length =
        n + opener.length + is.length + 1 + us.length := by
      simp only [List.length_append, List.length_cons]
      omega
    calc stringEnd depth start outer n (opener ++ (is ++ e'.closer :: us) ++ rest)
      _ = stringEnd depth start outer n (opener ++ (is ++ e'.closer :: (us ++ rest))) := by simp
      _ = stringEnd depth start outer (n + opener.length + is.length + 1) (us ++ rest) := by
        rw [henter, ihis hat' fun _ => hcloser, hleave]
      _ = _ := by rw [ihus hat hrest, hlength]

/-- The scan comes to a string that is nested in an enclosure, behind the strings around
it. -/
theorem Nests.stringEnd_append (h : Nests e vs) (hat : e.At depth)
    (hstarts : ∀ s ∈ start :: outer.map OpenString.start, s < n) (rest : List Char) :
    ∃ o outer', (∀ s ∈ o.start :: outer'.map OpenString.start, s < n + vs.length) ∧
      stringEnd depth start outer n (vs ++ '"' :: rest) =
        stringEnd 0 (n + vs.length) (o :: outer') (n + vs.length + 1) rest := by
  induction h generalizing depth start outer n with
  | @here us hus =>
    refine ⟨⟨start, depth⟩, outer, fun s hs => ?_, ?_⟩
    · exact Nat.lt_of_lt_of_le (hstarts s hs) (Nat.le_add_right _ _)
    · rw [hus.stringEnd_append hat nofun]
      cases hat
      rfl
  | @inside e e' opener us vs henters hus _ ih =>
    obtain ⟨depth', start', outer', hat', hsub, henter, -⟩ :=
      henters.stringEnd hat start (n + us.length) outer
    have hnotParen : e = .quotes → (opener ++ (vs ++ '"' :: rest)).head? ≠ some '(' := by
      rintro rfl
      cases henters
      simp
    have hopener : 0 < opener.length := by cases henters <;> decide
    have hlength : n + (us ++ (opener ++ vs)).length =
        n + us.length + opener.length + vs.length := by
      simp only [List.length_append]
      omega
    obtain ⟨o, outer'', hstarts'', hscan⟩ := ih hat' fun s hs => by
      rcases List.mem_cons.1 (hsub hs) with rfl | hs
      · exact Nat.lt_add_of_pos_right hopener
      · have := hstarts s hs
        omega
    refine ⟨o, outer'', by rwa [hlength], ?_⟩
    calc stringEnd depth start outer n (us ++ (opener ++ vs) ++ '"' :: rest)
      _ = stringEnd depth start outer n (us ++ (opener ++ (vs ++ '"' :: rest))) := by simp
      _ = stringEnd depth' start' outer' (n + us.length + opener.length) (vs ++ '"' :: rest) := by
        rw [hus.stringEnd_append hat hnotParen, henter]
      _ = _ := by rw [hscan, hlength]

/-! ### The string at the front of a text -/

/-- A string is scanned to its last quote. -/
theorem Encloses.stringEnd_quote (h : Encloses .quotes us) (rest : List Char) :
    stringEnd 0 0 [] 1 (us ++ '"' :: rest) = .ok (us.length + 2) := by
  rw [h.stringEnd_append .quotes (by simp), stringEnd]
  exact congrArg Except.ok (by omega)

/-- Where the scan of a string ends, a string ends. -/
theorem exists_isString_of_stringEnd (h : stringEnd 0 0 [] 1 cs = .ok n) :
    ∃ s, s <+: '"' :: cs ∧ IsString s ∧ s.length = n := by
  have hcomes := comesTo_stringEnd 0 0 [] 1 cs
  rw [h] at hcomes
  obtain ⟨_, rest, rfl, rfl, us, _, rfl, hus, rfl⟩ := hcomes
  exact ⟨'"' :: (us ++ ['"']), List.prefix_append ('"' :: (us ++ ['"'])) rest, ⟨us, rfl, hus⟩,
    Nat.add_comm _ 1⟩

/-- A string at the front of a text is what the scan finds there. -/
theorem isString_iff_of_isPrefix {s : List Char} (hs : s <+: '"' :: cs) :
    IsString s ↔ stringEnd 0 0 [] 1 cs = .ok s.length := by
  constructor
  · rintro ⟨us, rfl, hus⟩
    obtain ⟨rest, hrest⟩ := hs
    have hcs : cs = us ++ '"' :: rest := by simpa using hrest.symm
    rw [hcs, hus.stringEnd_quote]
    simp
  · intro h
    obtain ⟨s', hs', hstring, hlength⟩ := exists_isString_of_stringEnd h
    rwa [← (List.prefix_of_prefix_length_le hs' hs hlength.le).eq_of_length hlength]

instance : DecidablePred IsString
  | [] => isFalse fun ⟨_, h, _⟩ => nomatch h
  | c :: cs =>
    decidable_of_iff (c = '"' ∧ stringEnd 0 0 [] 1 cs = .ok (cs.length + 1)) <| by
      constructor
      · rintro ⟨rfl, h⟩
        exact (isString_iff_of_isPrefix (List.prefix_refl _)).2 h
      · intro h
        obtain rfl : c = '"' := (List.cons.inj h.choose_spec.1).1
        exact ⟨rfl, (isString_iff_of_isPrefix (List.prefix_refl _)).1 h⟩

/-- No string stands at the front of the characters. -/
def Unended (cs : List Char) : Prop := ∀ s, s <+: cs → ¬ IsString s

/-- A string has no end if the scan behind its first quote fails. -/
theorem unended_iff : Unended ('"' :: cs) ↔ ∃ f, stringEnd 0 0 [] 1 cs = .error f := by
  cases hscan : stringEnd 0 0 [] 1 cs with
  | ok n =>
    obtain ⟨s, hs, hstring, -⟩ := exists_isString_of_stringEnd hscan
    simpa using fun h : Unended _ => h s hs hstring
  | error f =>
    simp only [Except.error.injEq, exists_eq', iff_true]
    intro s hs hstring
    rw [isString_iff_of_isPrefix hs, hscan] at hstring
    cases hstring

/-- A quote with `o` characters before it opens the string at the front of `cs`, or one
that is nested in its interpolations. -/
def OpensString (cs : List Char) (o : Nat) : Prop :=
  ∃ behind, cs = '"' :: behind ∧ (o = 0 ∨ ∃ vs rest, behind = vs ++ '"' :: rest ∧
    Nests .quotes vs ∧ o = 1 + vs.length)

/-- A string that is scanned in vain is at fault itself, or one nested in it is. -/
theorem opensString_of_stringEnd {f : Failure} (h : stringEnd 0 0 [] 1 cs = .error f) :
    OpensString ('"' :: cs) f.offset := by
  have hcomes := comesTo_stringEnd 0 0 [] 1 cs
  rw [h] at hcomes
  rcases hcomes with hstart | ⟨vs, rest, hcs, hoffset, hvs | ⟨_, _, _, _, hvs⟩⟩
  · exact ⟨cs, rfl, .inl (List.mem_singleton.1 hstart)⟩
  · exact ⟨cs, rfl, .inr ⟨vs, rest, hcs, hvs, hoffset⟩⟩
  · exact hvs.elim

/-- The string that is at fault has no end. -/
theorem unended_of_nests {f : Failure} (hvs : Nests .quotes vs)
    (h : stringEnd 0 0 [] 1 (vs ++ '"' :: rest) = .error f) (hoffset : f.offset = 1 + vs.length) :
    Unended ('"' :: rest) := by
  refine unended_iff.2 ?_
  cases hend : stringEnd 0 0 [] 1 rest with
  | error f => exact ⟨f, rfl⟩
  | ok n =>
    obtain ⟨_, ⟨rest', hrest⟩, ⟨us, rfl, hus⟩, -⟩ := exists_isString_of_stringEnd hend
    obtain rfl : rest = us ++ '"' :: rest' := by simpa using hrest.symm
    have hfirst : ∀ s ∈ 0 :: ([] : List OpenString).map OpenString.start, s < 1 := by simp
    obtain ⟨o, outer, hstarts, hscan⟩ := hvs.stringEnd_append .quotes hfirst (us ++ '"' :: rest')
    -- Behind its end, the string is neither open nor ahead, so no error is at its quote.
    rw [hscan, hus.stringEnd_append .quotes (by simp), stringEnd] at h
    rcases (stringEnd_error h).2 with hopen | ⟨before, _, -, hahead⟩
    · have := hstarts _ hopen
      omega
    · omega

/-- **Strings.**  The scan of a string succeeds just if a string stands at the front of the
text; there is no second one, and the scan stops behind it.  If there is none, the error is
at the quote that opens the string or one nested in its interpolations, and no string
stands there either. -/
theorem stringEnd_grammar (cs : List Char) :
    match stringEnd 0 0 [] 1 cs with
    | .ok n => ∃ s, s.length = n ∧ ∀ s', s' <+: '"' :: cs ∧ IsString s' ↔ s' = s
    | .error f => Unended ('"' :: cs) ∧ OpensString ('"' :: cs) f.offset ∧
        Unended (('"' :: cs).drop f.offset) := by
  split
  · next n h =>
    obtain ⟨s, hs, hstring, rfl⟩ := exists_isString_of_stringEnd h
    refine ⟨s, rfl, fun s' => ⟨?_, ?_⟩⟩
    · rintro ⟨hs', hstring'⟩
      rw [isString_iff_of_isPrefix hs', h, Except.ok.injEq] at hstring'
      exact (List.prefix_of_prefix_length_le hs' hs hstring'.ge).eq_of_length hstring'.symm
    · rintro rfl
      exact ⟨hs, hstring⟩
  · next f h =>
    have henters := opensString_of_stringEnd h
    have hunended : Unended ('"' :: cs) := unended_iff.2 ⟨f, h⟩
    refine ⟨hunended, henters, ?_⟩
    obtain ⟨behind, hbehind, hzero | ⟨vs, rest, hnested, hvs, hoffset⟩⟩ := henters
    · rwa [hzero]
    · obtain rfl : cs = vs ++ '"' :: rest := (List.cons.inj hbehind).2.trans hnested
      rw [hoffset, Nat.add_comm, List.drop_succ_cons, List.drop_left]
      exact unended_of_nests hvs h hoffset

example : IsString "\"a %(f(\"b\")) c\"".toList := by decide

example : ¬ IsString "\"a %(f(\"b) c\"".toList := by decide

end Lexeme
end WrenAnalysis
