/-
# Parsing depends on words alone

Tokens with the same words, wherever they stand and whatever mark of the end is seen behind
them, are read as trees that are equal but for the places of their tokens, or are refused at
the same token for the same want (`Grammar.module_alike`): moving all tokens to one place
moves what is read there, and makes the two lists equal.  Since spacing and comments do not
change the words of a text, they do not change its tree (`Module.parse_layout`).
-/

import WrenAnalysis.Proofs.Syntax.Moved
import WrenAnalysis.Proofs.Token.Cutting
import WrenAnalysis.Proofs.Token.Wording

namespace WrenAnalysis

/-! ### Words without places -/

namespace Token

variable {s t : Token} {ts ts' : List Token}

/-- The token as if it stood at the start of a text. -/
def unplaced (t : Token) : Token := { t with position := .start }

/-- A token that is moved to the start of a text keeps its word. -/
theorem keepsWords_unplaced : KeepsWords unplaced := ⟨fun _ => rfl, fun _ => rfl⟩

/-- A message names a token without its place. -/
theorem describe_of_unplaced (h : s.unplaced = t.unplaced) : s.describe = t.describe := by
  show s.unplaced.describe = t.unplaced.describe
  rw [h]

/-- Tokens with one word differ in their places only. -/
theorem unplaced_of_word (h : s.word = t.word) : s.unplaced = t.unplaced :=
  congrArg (fun w : Word => (⟨w.1, w.2, .start⟩ : Token)) h

/-- Tokens with the same words differ in their places only. -/
theorem map_unplaced_of_words (h : ts.map word = ts'.map word) :
    ts.map unplaced = ts'.map unplaced := by
  have hwords : unplaced = (fun w : Word => ⟨w.1, w.2, .start⟩) ∘ word := rfl
  rw [hwords, ← List.map_map, h, List.map_map]

end Token

namespace Cursor

variable {c c' : Cursor} {ts ts' : List Token}

/-- The tokens at both cursors have the same words, and so have the marks behind them. -/
structure SameWords (c c' : Cursor) : Prop where
  ahead : c.ahead.map Token.word = c'.ahead.map Token.word
  stop : c.stop.word = c'.stop.word

/-- Cursors with the same words differ in the places of their tokens only. -/
theorem SameWords.map_unplaced (h : c.SameWords c') : c.map .unplaced = c'.map .unplaced := by
  rw [map, map, Token.map_unplaced_of_words h.ahead, Token.unplaced_of_word h.stop]

/-- Cursors with the same words have as many tokens ahead. -/
theorem SameWords.length_eq (h : c.SameWords c') : c.ahead.length = c'.ahead.length := by
  simpa using congrArg List.length h.ahead

/-- A mark of the end is made from the place of the last token, but its word is not. -/
theorem sameWords_ofTokens (h : ts.map Token.word = ts'.map Token.word) :
    (ofTokens ts).SameWords (ofTokens ts') := by
  refine ⟨h, ?_⟩
  have hlast : ts.getLast?.map Token.word = ts'.getLast?.map Token.word := by
    rw [← List.getLast?_map, ← List.getLast?_map, h]
  show (stopOf ts).word = (stopOf ts').word
  unfold stopOf
  cases hts : ts.getLast? with
  | none =>
    rw [hts, Option.map_none, eq_comm, Option.map_eq_none_iff] at hlast
    rw [hlast]
  | some t =>
    rw [hts, Option.map_some, eq_comm, Option.map_eq_some_iff] at hlast
    obtain ⟨t', ht', hword⟩ := hlast
    obtain ⟨hkind, -⟩ := Prod.mk.inj hword
    rw [ht']
    simp only [hkind]
    split
    · exact hword.symm
    · rfl

end Cursor

/-! ### Where a token is refused -/

/-- The second cursor is at the same place as the first or further on. -/
structure Cursor.Onward (c d : Cursor) : Prop where
  suffix : d.ahead <:+ c.ahead
  stop : d.stop = c.stop

namespace Cursor.Onward

variable {c d : Cursor}

/-- Taking a token leads onward. -/
theorem advance (h : c.Onward d) : c.Onward d.advance := by
  unfold Cursor.advance
  split
  · exact h
  · exact ⟨(List.tail_suffix _).trans h.suffix, h.stop⟩

/-- Skipping newlines leads onward. -/
theorem skipLines (h : c.Onward d) : c.Onward d.skipLines :=
  ⟨(List.dropWhile_suffix _).trans h.suffix, h.stop⟩

/-- Skipping a line leads onward. -/
theorem skipToLineEnd (h : c.Onward d) : c.Onward d.skipToLineEnd :=
  ⟨(List.dropWhile_suffix _).trans h.suffix, h.stop⟩

/-- Onward is behind some of the tokens. -/
theorem eq_drop (h : c.Onward d) : ∃ i ≤ c.ahead.length, d = c.drop i := by
  refine ⟨c.ahead.length - d.ahead.length, Nat.sub_le _ _, ?_⟩
  rw [drop, ← List.suffix_iff_eq_drop.1 h.suffix, ← h.stop]

end Cursor.Onward

/-- Being onward lasts. -/
theorem Cursor.lasting_onward {c : Cursor} (hc : c.stop.kind = .eof) : Lasting c.Onward where
  stop hd := by rwa [hd.stop]
  advance := Onward.advance
  skipLines := Onward.skipLines
  skipToLineEnd := Onward.skipToLineEnd

/-- A reading beside itself, which stays among the tokens at `c`. -/
def Pairing.onward (c : Cursor) (hc : c.stop.kind = .eof) : Pairing :=
  .same _ (Cursor.lasting_onward hc) (fun r o => o = some r ∧ c.Onward r.cursor) nofun
    fun _ hd => ⟨rfl, hd⟩

/-- A reading beside itself is firm. -/
theorem Pairing.firm_onward (c : Cursor) (hc : c.stop.kind = .eof) :
    (Pairing.onward c hc).Firm where
  beside := by
    rintro d d' (hd | hd)
    · exact hd
    · exact hd.elim
  atEnd := by
    rintro d _ ⟨rfl, -⟩ hend
    exact hend

namespace Grammar

variable {c c' : Cursor}

/-- What is refused is one of the tokens at the cursor or the mark behind them. -/
theorem module_refused_at (depth : Nat) (hc : c.stop.kind = .eof) {r : Rejection}
    (h : Grammar.module (.within depth) c = .error r) :
    ∃ i ≤ c.ahead.length, r.cursor = c.drop i := by
  have hnests := (Pairing.onward c hc).nests_within depth
  have hanswer := (Pairing.firm_onward c hc).mirrors_module hnests c c
    ⟨rfl, List.suffix_rfl, rfl⟩
  rw [h] at hanswer
  exact hanswer.2.eq_drop

end Grammar

/-! ### Outcomes without places -/

namespace Module

/-- Two readings, at cursors with the same words, come to trees that are equal but for the
places of their tokens, or to rejections of the token with the same number, which is named
alike, for the same want. -/
inductive Alike (c c' : Cursor) : Reading → Reading → Prop
  | ok {m m' : Module} {d d' : Cursor} :
      m.mapTokens .unplaced = m'.mapTokens .unplaced → Alike c c' (.ok (m, d)) (.ok (m', d'))
  | error {e : Expectation} {i : Nat} :
      i ≤ c.ahead.length → (c.drop i).current.describe = (c'.drop i).current.describe →
      Alike c c' (.error ⟨e, c.drop i⟩) (.error ⟨e, c'.drop i⟩)

end Module

/-- **Reading a module does not look at places.** -/
theorem Grammar.module_alike (depth : Nat) {c c' : Cursor} (hc : c.stop.kind = .eof)
    (h : c.SameWords c') :
    Module.Alike c c' (Grammar.module (.within depth) c) (Grammar.module (.within depth) c') := by
  have hc' : c'.stop.kind = .eof := (congrArg Prod.fst h.stop).symm.trans hc
  -- Without places both readings are one.
  have heq : Module.Reading.map .unplaced (Grammar.module (.within depth) c) =
      Module.Reading.map .unplaced (Grammar.module (.within depth) c') := by
    rw [← Grammar.module_map Token.keepsWords_unplaced depth hc, h.map_unplaced,
      Grammar.module_map Token.keepsWords_unplaced depth hc']
  rcases hr : Grammar.module (.within depth) c with ⟨e, d⟩ | ⟨m, d⟩ <;>
    rcases hr' : Grammar.module (.within depth) c' with ⟨e', d'⟩ | ⟨m', d'⟩ <;>
    rw [hr, hr'] at heq
  · obtain ⟨rfl, hd⟩ := Rejection.mk.inj (Except.error.inj heq)
    obtain ⟨i, hi, rfl⟩ := Grammar.module_refused_at depth hc hr
    obtain ⟨i', hi', rfl⟩ := Grammar.module_refused_at depth hc' hr'
    obtain rfl : i = i' := by
      have hlength := congrArg (·.ahead.length) hd
      have hsame := h.length_eq
      simp only [Cursor.map, Cursor.drop, List.length_map, List.length_drop] at hlength hi hi'
      omega
    have hcurrent := congrArg Cursor.current hd
    rw [Cursor.current_map, Cursor.current_map] at hcurrent
    exact .error hi (Token.describe_of_unplaced hcurrent)
  · cases heq
  · cases heq
  · exact .ok (congrArg Prod.fst (Except.ok.inj heq))

namespace Module

/-- The place of token `i`, or of the mark that is seen behind the last one. -/
def placeOf (ts : List Token) (i : Nat) : Position := ((Cursor.ofTokens ts).drop i).current.position

/-- The outcomes of parsing two lists of tokens are trees that are equal but for the places of
their tokens, or errors at the token with the same number, which expect and find the same. -/
inductive SameOutcome (ts ts' : List Token) :
    Except SyntaxError Module → Except SyntaxError Module → Prop
  | ok {m m' : Module} :
      m.mapTokens .unplaced = m'.mapTokens .unplaced → SameOutcome ts ts' (.ok m) (.ok m')
  | error {e e' : SyntaxError} {i : Nat} :
      e.expected = e'.expected → e.found = e'.found → i ≤ ts.length →
      e.position = placeOf ts i → e'.position = placeOf ts' i →
      SameOutcome ts ts' (.error e) (.error e')

variable {ts ts' : List Token}

/-- Lists with the same words are parsed to the same outcome. -/
theorem sameOutcome_ofTokens (h : ts.map Token.word = ts'.map Token.word) :
    SameOutcome ts ts' (ofTokens ts) (ofTokens ts') := by
  have halike := Grammar.module_alike Grammar.maxNesting (c := .ofTokens ts)
    (Cursor.stopOf_kind ts) (Cursor.sameWords_ofTokens h)
  unfold ofTokens
  generalize Grammar.module _ (Cursor.ofTokens ts) = x at halike ⊢
  generalize Grammar.module _ (Cursor.ofTokens ts') = x' at halike ⊢
  cases halike with
  | ok hm => exact .ok hm
  | error hi hfound => exact .error rfl hfound hi rfl rfl

end Module

namespace Token

variable {text text' : String} {ts ts' : List Token}

/-- Texts whose tokens have the same texts have the same words: with blanks between the tokens
they are one text. -/
theorem words_of_texts (h : tokenize text = .ok ts) (h' : tokenize text' = .ok ts')
    (htexts : texts ts = texts ts') : ts.map word = ts'.map word := by
  obtain ⟨us, hus, hwords⟩ := (tokenize_eq_ok_iff.1 h).spaced
  obtain ⟨us', hus', hwords'⟩ := (tokenize_eq_ok_iff.1 h').spaced
  rw [htexts] at hus
  obtain ⟨rfl, -⟩ := hus.unique hus'
  rw [← hwords, hwords']

end Token

namespace Module

/-- **Parsing does not look at places.**  Tokens with the same words are parsed alike, whatever
their places are and whatever the length of the last one makes of the mark behind it; the mark
that the parser itself makes is no exception.  So texts whose tokens have the same texts are
parsed alike, however they are spaced and whatever their comments say. -/
theorem parse_layout :
    (∀ c c' : Cursor, c.stop.kind = .eof → c.SameWords c' →
      Alike c c' (Grammar.module (.within Grammar.maxNesting) c)
        (Grammar.module (.within Grammar.maxNesting) c')) ∧
    (∀ ts ts' : List Token, ts.map Token.word = ts'.map Token.word →
      SameOutcome ts ts' (ofTokens ts) (ofTokens ts')) ∧
    ∀ text text' ts ts', Token.tokenize text = .ok ts → Token.tokenize text' = .ok ts' →
      Token.texts ts = Token.texts ts' → SameOutcome ts ts' (parse text) (parse text') := by
  refine ⟨fun c c' => Grammar.module_alike _, fun ts ts' => sameOutcome_ofTokens, ?_⟩
  intro text text' ts ts' h h' htexts
  have hwords := Token.words_of_texts h h' htexts
  unfold parse
  rw [h, h']
  exact sameOutcome_ofTokens hwords

/-- A call with a comment in it and a parenthesis that is not closed, each spaced in two
ways. -/
theorem parse_layout_of_comment :
    (∃ m m', parse "var a = b.c( 1 ) // d" = .ok m ∧ parse " var a=b/* e */\t.c(1)" = .ok m' ∧
      m.mapTokens .unplaced = m'.mapTokens .unplaced) ∧
    ∃ e e', parse "(a b)" = .error e ∧ parse "( a/**/b )" = .error e' ∧
      e.expected = e'.expected ∧ e.found = e'.found := by
  constructor
  · have htexts : (Token.tokenize "var a = b.c( 1 ) // d").toOption.map Token.texts =
        some ["var", "a", "=", "b", ".", "c", "(", "1", ")"] := by decide +kernel
    have htexts' : (Token.tokenize " var a=b/* e */\t.c(1)").toOption.map Token.texts =
        some ["var", "a", "=", "b", ".", "c", "(", "1", ")"] := by decide +kernel
    obtain ⟨ts, hts, hws⟩ := exists_of_toOption_map htexts
    obtain ⟨ts', hts', hws'⟩ := exists_of_toOption_map htexts'
    have hsame := parse_layout.2.2 _ _ ts ts' hts hts' (hws.trans hws'.symm)
    have hread : (parse "var a = b.c( 1 ) // d").isOk = true := by decide +kernel
    generalize parse "var a = b.c( 1 ) // d" = x at hsame hread ⊢
    generalize parse " var a=b/* e */\t.c(1)" = x' at hsame ⊢
    cases hsame with
    | ok hm => exact ⟨_, _, rfl, rfl, hm⟩
    | error => cases hread
  · have htexts : (Token.tokenize "(a b)").toOption.map Token.texts =
        some ["(", "a", "b", ")"] := by decide +kernel
    have htexts' : (Token.tokenize "( a/**/b )").toOption.map Token.texts =
        some ["(", "a", "b", ")"] := by decide +kernel
    obtain ⟨ts, hts, hws⟩ := exists_of_toOption_map htexts
    obtain ⟨ts', hts', hws'⟩ := exists_of_toOption_map htexts'
    have hsame := parse_layout.2.2 _ _ ts ts' hts hts' (hws.trans hws'.symm)
    have hrefused : (parse "(a b)").isOk = false := by decide +kernel
    generalize parse "(a b)" = x at hsame hrefused ⊢
    generalize parse "( a/**/b )" = x' at hsame ⊢
    cases hsame with
    | ok => cases hrefused
    | error hexpected hfound => exact ⟨_, _, rfl, rfl, hexpected, hfound⟩

end Module
end WrenAnalysis
