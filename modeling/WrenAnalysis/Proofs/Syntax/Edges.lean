/-
# The edges of constructs

Where a comma may stand before a closing bracket, the word before it is the last of an
expression; where `||` may stand behind an opening brace, the word behind it is the first of
a statement or the closing brace.  No construct has a comma or `||` at such an edge
(`Derives.edged`), so that leaving the one out never brings another one to the bracket.
-/

import WrenAnalysis.Proofs.Syntax.Derivation
import WrenAnalysis.Proofs.Token.Wording

namespace WrenAnalysis

/-! ### The words of tokens -/

/-- The words of the tokens but newlines, the end of the text and modifiers. -/
def wordsOf (us : List Token) : List Word := spoken (us.map Token.word)

variable {t : Token} {us vs ls : List Token}

/-- Tokens have their words one behind the other. -/
theorem wordsOf_append (us vs : List Token) : wordsOf (us ++ vs) = wordsOf us ++ wordsOf vs := by
  simp [wordsOf, spoken]

/-- A token with a word has it in front. -/
theorem wordsOf_cons_of_spoken (ht : t.kind.isSilent = false) (us : List Token) :
    wordsOf (t :: us) = t.word :: wordsOf us := by
  simp [wordsOf, spoken, Token.word, ht]

/-- A token without a word adds none. -/
theorem wordsOf_cons_of_silent (ht : t.kind.isSilent = true) (us : List Token) :
    wordsOf (t :: us) = wordsOf us := by
  simp [wordsOf, spoken, Token.word, ht]

/-- A symbol always has a word. -/
theorem wordsOf_cons_symbol {s : Symbol} (ht : t.kind = .symbol s) (us : List Token) :
    wordsOf (t :: us) = t.word :: wordsOf us :=
  wordsOf_cons_of_spoken (by simp [ht, Kind.isSilent]) us

/-- Newlines have no words. -/
theorem wordsOf_lines (h : Lines ls) : wordsOf ls = [] := by
  induction ls with
  | nil => rfl
  | cons t ls ih =>
    obtain ⟨ht, hls⟩ := List.forall_mem_cons.1 h
    rw [wordsOf_cons_of_silent (by simp [ht, Kind.isSilent]), ih hls]

/-- Words in front of a method are left out. -/
theorem wordsOf_modifiers {start found : Grammar.Modifiers} (h : Modifies start found us) :
    wordsOf us = [] := by
  induction h with
  | none => rfl
  | construct ht _ ih => rw [wordsOf_cons_of_silent (by simp [ht, Kind.isSilent]), ih]
  | foreign ht _ ih => rw [wordsOf_cons_of_silent (by simp [ht, Kind.isSilent]), ih]
  | static ht _ ih => rw [wordsOf_cons_of_silent (by simp [ht, Kind.isSilent]), ih]

/-! ### The first and the last word -/

/-- There is a first word, and it is no `||`. -/
def Begins (us : List Token) : Prop := ∃ w ws, wordsOf us = w :: ws ∧ w.1 ≠ .symbol .pipePipe

/-- There is a last word, and it is no comma. -/
def Ends (us : List Token) : Prop := ∃ ws w, wordsOf us = ws ++ [w] ∧ w.1 ≠ .symbol .comma

/-- Kinds of words that are no `||` and no comma. -/
def Kind.isFirm (k : Kind) : Bool :=
  !k.isSilent && k ≠ .symbol .pipePipe && k ≠ .symbol .comma

/-- A word that is neither bar nor comma may be the first. -/
theorem begins_cons {k : Kind} (ht : t.kind = k) (hk : k.isFirm = true) (us : List Token) :
    Begins (t :: us) := by
  subst ht
  simp only [Kind.isFirm, Bool.and_eq_true, Bool.not_eq_true', decide_eq_true_eq] at hk
  exact ⟨t.word, wordsOf us, wordsOf_cons_of_spoken hk.1.1 us, hk.1.2⟩

/-- What has a first word has it with others behind. -/
theorem Begins.append (h : Begins us) (vs : List Token) : Begins (us ++ vs) := by
  obtain ⟨w, ws, hw, hne⟩ := h
  exact ⟨w, ws ++ wordsOf vs, by rw [wordsOf_append, hw, List.cons_append], hne⟩

/-- What has a first word has it behind newlines. -/
theorem Begins.lines (h : Begins us) (hls : Lines ls) : Begins (ls ++ us) := by
  rwa [Begins, wordsOf_append, wordsOf_lines hls, List.nil_append]

/-- A word that is neither bar nor comma may be the last. -/
theorem ends_singleton {k : Kind} (ht : t.kind = k) (hk : k.isFirm = true) : Ends [t] := by
  subst ht
  simp only [Kind.isFirm, Bool.and_eq_true, Bool.not_eq_true', decide_eq_true_eq] at hk
  exact ⟨[], t.word, wordsOf_cons_of_spoken hk.1.1 [], hk.2⟩

/-- What has a last word has it with others in front. -/
theorem Ends.append (h : Ends vs) (us : List Token) : Ends (us ++ vs) := by
  obtain ⟨ws, w, hw, hne⟩ := h
  exact ⟨wordsOf us ++ ws, w, by rw [wordsOf_append, hw, List.append_assoc], hne⟩

/-- What has a last word has it with another in front. -/
theorem Ends.cons (h : Ends us) (t : Token) : Ends (t :: us) := h.append [t]

/-- What has a last word has it in front of newlines. -/
theorem Ends.lines (h : Ends us) (hls : Lines ls) : Ends (us ++ ls) := by
  rwa [Ends, wordsOf_append, wordsOf_lines hls, List.append_nil]

/-- What the edges of a construct are like where commas and bars may hang on them. -/
def Phrase.Edged : Phrase → List Token → Prop
  | .expr _, us => Begins us ∧ Ends us
  | .arguments _ _, us => Ends us
  | .entries _, us => Ends us
  | .tail _ _, us => us = [] ∨ Ends us
  | .stmt _, us => Begins us
  | .body _, us => Begins us ∧ Ends us
  | _, _ => True

/-- A class starts with a word. -/
theorem ClassHead.begins {isForeign : Bool} (h : ClassHead isForeign us) : Begins us := by
  cases h with
  | plain hk => exact begins_cons hk rfl []
  | @foreign f k hf hk =>
    rw [Begins, wordsOf_cons_of_silent (by simp [hf, Kind.isSilent])]
    exact begins_cons hk rfl []

/-- What closes a bracket is neither bar nor comma. -/
theorem Bracket.isFirm_close (r : Bracket) : (Kind.symbol r.close).isFirm = true := by
  cases r <;> rfl

/-- A word with what it is called with behind it. -/
theorem ends_cons_of_tail {k : Kind} (ht : t.kind = k) (hk : k.isFirm = true)
    (h : us = [] ∨ Ends us) : Ends (t :: us) := by
  rcases h with rfl | hends
  · exact ends_singleton ht hk
  · exact hends.cons t

/-- No construct begins with `||` or ends with a comma. -/
theorem Derives.edged {p : Phrase} (h : Derives p us) : p.Edged us := by
  induction h with
  | null ht | num ht | str ht | thisValue ht | field ht _ | staticField ht _ =>
    exact ⟨begins_cons ht rfl [], ends_singleton ht rfl⟩
  | @bool t ht =>
    have hfirm : t.kind.isFirm = true := by
      simp only [List.mem_cons, List.not_mem_nil, or_false] at ht
      rcases ht with ht | ht <;> rw [ht] <;> rfl
    exact ⟨begins_cons rfl hfirm [], ends_singleton rfl hfirm⟩
  | name ht _ _ ih => exact ⟨begins_cons ht rfl _, ends_cons_of_tail ht rfl ih⟩
  | superCall ht hn _ ih =>
    refine ⟨begins_cons ht rfl _, ?_⟩
    cases hn with
    | none => exact ends_cons_of_tail ht rfl ih
    | some _ hn => exact ((ends_cons_of_tail hn rfl ih).cons _).cons _
  | group ho _ _ _ hc _ =>
    have hends := ends_singleton hc rfl
    exact ⟨begins_cons ho rfl _, by apply_rules [hends, Ends.append, Ends.cons]⟩
  | list hb _ ih | map hb _ ih => exact ⟨begins_cons hb rfl _, ih.cons _⟩
  | continued _ hls ih => exact ⟨ih.1.append _, ih.2.lines hls⟩
  | call _ _ _ hn _ ih ihtail =>
    have hends := ends_cons_of_tail hn rfl ihtail
    exact ⟨ih.1.append _, by apply_rules [hends, Ends.append, Ends.cons]⟩
  | subscript _ _ _ ih ihs => exact ⟨ih.1.append _, (ihs.cons _).append _⟩
  | @unary o e us ho _ ih =>
    have hfirm : o.kind.isFirm = true := by
      simp only [List.mem_cons, List.not_mem_nil, or_false] at ho
      rcases ho with ho | ho | ho <;> rw [ho] <;> rfl
    exact ⟨begins_cons rfl hfirm _, ih.2.cons _⟩
  | binary _ _ _ _ ih ihlast | assign _ _ _ _ _ ih ihlast =>
    exact ⟨ih.1.append _, ((ihlast.2.append _).cons _).append _⟩
  | conditional _ _ _ _ _ _ _ _ ih _ ihlast =>
    exact ⟨ih.1.append _, by apply_rules [ihlast.2, Ends.append, Ends.cons]⟩
  | argumentsEnd _ ht => exact (ends_singleton ht (Bracket.isFirm_close _)).append _
  | argumentsLast _ _ _ ht _ =>
    have hends := ends_singleton ht (Bracket.isFirm_close _)
    exact ((hends.append _).append _).append _
  | argumentsMore _ _ _ _ _ _ ih | entriesMore _ _ _ _ _ _ _ _ _ _ _ ih =>
    apply_rules [ih, Ends.append, Ends.cons]
  | entriesEnd _ ht => exact (ends_singleton ht rfl).append _
  | entriesLast _ _ _ _ _ _ _ ht _ _ =>
    have hends := ends_singleton ht rfl
    apply_rules [hends, Ends.append, Ends.cons]
  | tailNone => exact .inl rfl
  | tailArguments _ _ ih => exact .inr (ih.cons _)
  | tailBlock _ _ _ _ _ ih => exact .inr (((ih.2.append _).cons _).append _)
  | expr _ ih => exact ih.1
  | block hk | ifThen hk | ifElse hk | whileLoop hk | forLoop hk | returning hk
  | returningValue hk | breaking hk | continuing hk | importing hk | importingNames hk | var hk
  | varValue hk => exact begins_cons hk rfl _
  | classDef hhead => exact hhead.begins.append _
  | bodyEnd hls ht => exact ⟨(begins_cons ht rfl []).lines hls, (ends_singleton ht rfl).append _⟩
  | bodyAttribute hls hus _ ih =>
    obtain ⟨t, us, rfl, ht⟩ := hus.head
    exact ⟨(begins_cons ht rfl _).lines hls, (ih.2.append _).append _⟩
  | bodyMore hls _ _ _ ihs ih =>
    exact ⟨(ihs.append _).lines hls, ((ih.2.append _).append _).append _⟩
  | condition | methodBody | methodForeign | methodsEnd | methodsAttribute | methodsMore =>
    trivial

end WrenAnalysis
