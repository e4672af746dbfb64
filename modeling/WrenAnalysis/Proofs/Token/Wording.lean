/-
# The words of a text

A word is a token without its place.  A tree keeps no newlines, no mark of the end and only
whether a modifier was there, and it does not tell a list with a comma behind its last item
from one without, or a block with an empty parameter list from one without.  `core` takes
all this from a list of words.  Words that may stand for each other wherever they are
written, such as those with and without such a comma, are `Same`.
-/

import WrenAnalysis.Proofs.Token.Stream

namespace WrenAnalysis

/-- A token without its place. -/
abbrev Word := Kind × String

def Symbol.word (s : Symbol) : Word := (.symbol s, .ofList s.spelling)

def Keyword.word (k : Keyword) : Word := (.keyword k, k.spelling)

/-! ### Spelling -/

/-- The token is written the one way its kind has, if it has one. -/
def Token.Spelled (t : Token) : Prop :=
  (∀ s, t.kind = .symbol s → t.word = s.word) ∧ ∀ k, t.kind = .keyword k → t.word = k.word

/-- What is read as a word is a name or a keyword, which it spells. -/
theorem Kind.ofWord_cases (word : String) :
    ofWord word = .name ∨ ∃ k, ofWord word = .keyword k ∧ k.spelling = word := by
  unfold ofWord
  split
  · next k hk => exact .inr ⟨k, rfl, by simpa using List.find?_some hk⟩
  · exact .inl rfl

/-- A token that is scanned is spelled as its kind says. -/
theorem Lexeme.Scans.spelled {cs : List Char} {k : Kind} {n : Nat} (h : Scans cs k n)
    (q : Position) : Token.Spelled ⟨k, .ofList (cs.take n), q⟩ := by
  cases h with
  | @word c cs =>
    rcases Kind.ofWord_cases (.ofList ((c :: cs).take (nameEnd (c :: cs)))) with
      hname | ⟨w, hw, hsp⟩
    · rw [hname]
      exact ⟨nofun, nofun⟩
    · rw [hw, ← hsp]
      refine ⟨nofun, fun k hk => ?_⟩
      cases hk
      rfl
  | @symbol c cs s _ _ _ _ hread =>
    obtain ⟨r, hr⟩ := Symbol.spelling_prefix_of_read hread
    rw [← hr, List.take_left]
    refine ⟨fun s' hs' => ?_, nofun⟩
    cases hs'
    rfl
  | _ => exact ⟨nofun, nofun⟩

/-- The tokens of a text are spelled as their kinds are. -/
theorem Lexer.Streams.spelled {p : Position} {cs : List Char} {ts : List Token}
    {e : Option LexicalError} (h : Streams p cs ts e) : ∀ t ∈ ts, t.Spelled := by
  induction h with
  | eof => exact List.forall_mem_singleton.2 ⟨nofun, nofun⟩
  | @token p gap u rest k ts e _ hscan _ ih =>
    have hspelled := (Lexeme.scan_eq_ok_iff.1 hscan).spelled (p.after gap)
    rw [List.take_left] at hspelled
    exact List.forall_mem_cons.2 ⟨hspelled, ih⟩
  | openComment => exact nofun
  | noToken => exact nofun

/-- Nothing comes behind the mark of the end. -/
theorem Lexer.Streams.eq_nil_of_eof {p : Position} {cs : List Char} {ts us vs : List Token}
    {t : Token} {e : Option LexicalError} (h : Streams p cs ts e) (hts : ts = us ++ t :: vs)
    (ht : t.kind = .eof) : vs = [] := by
  induction h generalizing us with
  | eof =>
    cases us with
    | nil => exact (List.cons.inj hts).2.symm
    | cons u us => simp at hts
  | token _ hscan _ ih =>
    cases us with
    | nil =>
      obtain ⟨rfl, -⟩ := List.cons.inj hts
      exact absurd ht (Lexeme.scan_eq_ok_iff.1 hscan).kind_ne_eof
    | cons u us => exact ih (List.cons.inj hts).2
  | openComment => simp at hts
  | noToken => simp at hts

/-- The tokens of a text up to its error are those of its stream. -/
theorem Token.streams_tokenizePrefix (text : String) :
    Lexer.Streams .start text.toList (tokenizePrefix text) (Lexer.ofText text).run.2 :=
  Lexer.streams_iff.2 rfl

/-- What begins with the mark of the end is that mark. -/
theorem Token.rest_eq_nil_or_end {text : String} {us rest : List Token}
    (hts : us ++ rest <+: tokenizePrefix text) (hrest : ∀ t ∈ rest.head?, t.kind = .eof) :
    rest = [] ∨ ∃ t, rest = [t] ∧ t.kind = .eof := by
  cases rest with
  | nil => exact .inl rfl
  | cons t vs =>
    have ht : t.kind = .eof := hrest t rfl
    obtain ⟨xs, hxs⟩ := hts
    have hcut : tokenizePrefix text = us ++ t :: (vs ++ xs) := by simp [← hxs]
    have hnil : vs ++ xs = [] := (streams_tokenizePrefix text).eq_nil_of_eof hcut ht
    obtain ⟨rfl, -⟩ := List.append_eq_nil_iff.1 hnil
    exact .inr ⟨t, rfl, ht⟩

/-! ### What is left out -/

/-- Newlines, the end of the text and modifiers. -/
def Kind.isSilent (k : Kind) : Bool :=
  k ∈ [.line, .eof, .keyword .construct_, .keyword .foreign_, .keyword .static_]

def Kind.isClosing (k : Kind) : Bool :=
  k ∈ [.symbol .rightParen, .symbol .rightBracket, .symbol .rightBrace]

/-- The words but newlines, the end of the text and modifiers. -/
def spoken (ws : List Word) : List Word := ws.filter fun w => !w.1.isSilent

/-- The first word is a closing bracket. -/
def closes (ws : List Word) : Bool := ws.head?.any (·.1.isClosing)

/-- The words but each comma directly before a closing bracket and each `||` directly behind
an opening brace, such as the one before them if they are `opened`. -/
def tidyFrom (opened : Bool) : List Word → List Word
  | [] => []
  | w :: ws =>
    let rest := tidyFrom (w.1 = .symbol .leftBrace) ws
    if (w.1 = .symbol .comma ∧ closes ws = true) ∨ (w.1 = .symbol .pipePipe ∧ opened = true) then
      rest
    else
      w :: rest

/-- The words but each comma directly before a closing bracket and each `||` directly behind
an opening brace. -/
def tidy (ws : List Word) : List Word := tidyFrom false ws

/-- What a tree keeps of the words it is read from. -/
def core (ws : List Word) : List Word := tidy (spoken ws)

/-! ### Words that stand for each other -/

/-- The words come to the same wherever they are written. -/
def Same (us vs : List Word) : Prop :=
  ∀ xs ys, tidy (xs ++ (us ++ ys)) = tidy (xs ++ (vs ++ ys))

variable {us vs ws us' vs' : List Word}

/-- Sameness of words is reflexive. -/
theorem Same.refl (us : List Word) : Same us us := fun _ _ => rfl

/-- Sameness of words is transitive. -/
theorem Same.trans (h : Same us vs) (h' : Same vs ws) : Same us ws :=
  fun xs ys => (h xs ys).trans (h' xs ys)

/-- Words that are the same stay so behind each other. -/
theorem Same.append (h : Same us vs) (h' : Same us' vs') : Same (us ++ us') (vs ++ vs') := by
  intro xs ys
  calc tidy (xs ++ (us ++ us' ++ ys))
    _ = tidy (xs ++ (us ++ (us' ++ ys))) := by rw [List.append_assoc]
    _ = tidy (xs ++ (vs ++ (us' ++ ys))) := h xs (us' ++ ys)
    _ = tidy ((xs ++ vs) ++ (us' ++ ys)) := by rw [List.append_assoc]
    _ = tidy ((xs ++ vs) ++ (vs' ++ ys)) := h' (xs ++ vs) ys
    _ = tidy (xs ++ (vs ++ vs' ++ ys)) := by simp only [List.append_assoc]

/-- Words that are the same are the same when tidied. -/
theorem Same.tidy_eq (h : Same us vs) : tidy us = tidy vs := by
  simpa using h [] []

/-- Words stand for each other if they do so at the front, and close alike. -/
theorem same_of_tidyFrom
    (hfront : ∀ opened ys, tidyFrom opened (us ++ ys) = tidyFrom opened (vs ++ ys))
    (hcloses : ∀ ys, closes (us ++ ys) = closes (vs ++ ys)) : Same us vs := by
  intro xs ys
  suffices ∀ opened, tidyFrom opened (xs ++ (us ++ ys)) = tidyFrom opened (xs ++ (vs ++ ys)) from
    this false
  induction xs with
  | nil => exact fun opened => hfront opened ys
  | cons x xs ih =>
    have hnext : closes (xs ++ (us ++ ys)) = closes (xs ++ (vs ++ ys)) := by
      cases xs with
      | nil => exact hcloses ys
      | cons x' xs => rfl
    intro opened
    simp only [List.cons_append, tidyFrom, ih, hnext]

/-- A comma directly before a closing bracket may as well be missing. -/
theorem same_trailing {w c k : Word} (hw : w.1 ≠ .symbol .comma) (hc : c.1 = .symbol .comma)
    (hk : k.1.isClosing = true) : Same [w, c, k] [w, k] := by
  have hbar : k.1 ≠ .symbol .pipePipe := by
    intro heq
    simp [heq, Kind.isClosing] at hk
  refine same_of_tidyFrom (fun opened ys => ?_) fun ys => rfl
  simp [tidyFrom, closes, hw, hc, hk, hbar]

/-- A `||` directly behind an opening brace may as well be missing. -/
theorem same_bars {b p w : Word} (hb : b.1 = .symbol .leftBrace) (hp : p.1 = .symbol .pipePipe)
    (hw : w.1 ≠ .symbol .pipePipe) : Same [b, p, w] [b, w] := by
  refine same_of_tidyFrom (fun opened ys => ?_) fun ys => rfl
  simp [tidyFrom, hb, hp, hw]

end WrenAnalysis
