/-
# Brackets that match

`Matched` says of tokens that their parentheses, square brackets and braces match, whatever
stands between them.  `Opens` follows the closing brackets that are still wanted from token
to token: tokens that leave none wanted match (`Opens.matched`), and those that leave some
are the front of tokens that do (`Opens.exists_matched`).
-/

import WrenAnalysis.Proofs.Syntax.Derivation
import WrenAnalysis.Proofs.Token.Wording

namespace WrenAnalysis

/-- The bracket that closes what a token of the kind opens. -/
def Kind.closer? : Kind → Option Symbol
  | .symbol .leftParen => some .rightParen
  | .symbol .leftBracket => some .rightBracket
  | .symbol .leftBrace => some .rightBrace
  | _ => none

/-- Neither an opening nor a closing bracket. -/
def Kind.isPlain (k : Kind) : Bool := k.closer?.isNone && !k.isClosing

/-- No attribute starts among the tokens. -/
def Hashless (ts : List Token) : Prop := ∀ t ∈ ts, t.kind ≠ .symbol .hash

/-- The brackets among the tokens match. -/
inductive Matched : List Token → Prop
  | nil : Matched []
  | plain {t : Token} {us : List Token} : t.kind.isPlain = true → Matched us → Matched (t :: us)
  | group {o c : Token} {s : Symbol} {us vs : List Token} :
      o.kind.closer? = some s → c.kind = .symbol s → Matched us → Matched vs →
      Matched (o :: (us ++ c :: vs))

namespace Matched

variable {t : Token} {us vs ls : List Token}

/-- Matching tokens behind matching ones match. -/
theorem append (h : Matched us) (h' : Matched vs) : Matched (us ++ vs) := by
  induction h with
  | nil => exact h'
  | plain ht _ ih => exact .plain ht ih
  | @group o c s us ws ho hc hus _ _ ih => simpa using Matched.group ho hc hus ih

/-- A token that is no bracket matches by itself. -/
theorem single (ht : t.kind.isPlain = true) : Matched [t] := .plain ht .nil

/-- A token that is no bracket may stand in front. -/
theorem cons_of_kind {k : Kind} (ht : t.kind = k) (hk : k.isPlain = true) (h : Matched us) :
    Matched (t :: us) := .plain (ht ▸ hk) h

/-- Tokens without brackets match. -/
theorem of_forall (h : ∀ t ∈ us, t.kind.isPlain = true) : Matched us := by
  induction us with
  | nil => exact .nil
  | cons t us ih =>
    obtain ⟨ht, hus⟩ := List.forall_mem_cons.1 h
    exact .plain ht (ih hus)

/-- Newlines have no brackets. -/
theorem lines (h : Lines ls) : Matched ls :=
  of_forall fun t ht => by rw [h t ht]; rfl

end Matched

/-! ### The brackets that are wanted -/

/-- Neither a bracket, nor the end of the text, nor a hash, behind which brackets need not
match. -/
def Kind.isInner (k : Kind) : Bool := k.isPlain && k ≠ .eof && k ≠ .symbol .hash

/-- A token of the kind leads from one list of wanted closing brackets, the next one first,
to another. -/
inductive Kind.Turns : Kind → (before after : List Symbol) → Prop
  | inner {k : Kind} {ws : List Symbol} : k.isInner = true → Turns k ws ws
  | opening {k : Kind} {s : Symbol} {ws : List Symbol} : k.closer? = some s → Turns k ws (s :: ws)
  | closing {s : Symbol} {ws : List Symbol} :
      (Kind.symbol s).isClosing = true → Turns (.symbol s) (s :: ws) ws

/-- Tokens lead from some wanted closing brackets to others. -/
inductive Opens : (before : List Symbol) → List Token → (after : List Symbol) → Prop
  | nil {ws : List Symbol} : Opens ws [] ws
  | cons {t : Token} {us : List Token} {ws ws' ws'' : List Symbol} :
      t.kind.Turns ws ws' → Opens ws' us ws'' → Opens ws (t :: us) ws''

/-- Neither the end nor a hash turns what is wanted into anything. -/
theorem Kind.Turns.ne {k : Kind} {ws ws' : List Symbol} (h : k.Turns ws ws') :
    k ≠ .eof ∧ k ≠ .symbol .hash := by
  cases h with
  | inner hk => simp_all [isInner]
  | opening hk => constructor <;> (rintro rfl; cases hk)
  | closing hk => exact ⟨nofun, by rintro ⟨⟩; cases hk⟩

/-- Brackets are wanted through one list and then through the next. -/
theorem Opens.append {ws ws' ws'' : List Symbol} {us vs : List Token} (h : Opens ws us ws')
    (h' : Opens ws' vs ws'') : Opens ws (us ++ vs) ws'' := by
  induction h with
  | nil => exact h'
  | cons ht _ ih => exact .cons ht (ih h')

/-- Neither the end nor an attribute is among the tokens. -/
theorem Opens.ne {ws ws' : List Symbol} {us : List Token} (h : Opens ws us ws') :
    ∀ t ∈ us, t.kind ≠ .eof ∧ t.kind ≠ .symbol .hash := by
  induction h with
  | nil => exact nofun
  | cons ht _ ih => exact List.forall_mem_cons.2 ⟨ht.ne, ih⟩

/-- Newlines leave the wanted brackets as they are. -/
theorem Opens.lines {ls : List Token} (h : Lines ls) (ws : List Symbol) : Opens ws ls ws := by
  induction ls with
  | nil => exact .nil
  | cons t ls ih =>
    obtain ⟨ht, hls⟩ := List.forall_mem_cons.1 h
    exact .cons (ht ▸ .inner rfl) (ih hls)

/-- What an opening bracket wants is a closing one. -/
theorem Kind.isClosing_of_closer? {k : Kind} {s : Symbol} (h : k.closer? = some s) :
    (Kind.symbol s).isClosing = true := by
  unfold closer? at h
  split at h
  · cases h; rfl
  · cases h; rfl
  · cases h; rfl
  · cases h

/-- What is wanted are closing brackets. -/
theorem Opens.isClosing {ws ws' : List Symbol} {us : List Token} (h : Opens ws us ws')
    (hws : ∀ s ∈ ws, (Kind.symbol s).isClosing = true) :
    ∀ s ∈ ws', (Kind.symbol s).isClosing = true := by
  induction h with
  | nil => exact hws
  | @cons t us ws ws' ws'' ht _ ih =>
    refine ih ?_
    generalize t.kind = k at ht
    cases ht with
    | inner => exact hws
    | opening ho => exact List.forall_mem_cons.2 ⟨Kind.isClosing_of_closer? ho, hws⟩
    | closing => exact (List.forall_mem_cons.1 hws).2

/-- Tokens that match but for the wanted brackets, which they have one behind the other. -/
def Completes : List Symbol → List Token → Prop
  | [], us => Matched us
  | s :: ws, us =>
    ∃ vs c rest, us = vs ++ c :: rest ∧ Matched vs ∧ c.kind = .symbol s ∧ Completes ws rest

/-- Tokens in front of which others may stand wherever they match. -/
theorem Completes.prepend {ws : List Symbol} {us : List Token} (h : Completes ws us)
    (vs : List Token) (hvs : ∀ us, Matched us → Matched (vs ++ us)) : Completes ws (vs ++ us) := by
  cases ws with
  | nil => exact hvs us h
  | cons s ws =>
    obtain ⟨us, c, rest, rfl, hus, hc, hrest⟩ := h
    exact ⟨vs ++ us, c, rest, by rw [List.append_assoc], hvs us hus, hc, hrest⟩

/-- Tokens behind which nothing is wanted close all that was. -/
theorem Opens.completes {ws ws' : List Symbol} {us : List Token} (h : Opens ws us ws')
    (hnone : ws' = []) : Completes ws us := by
  induction h with
  | nil =>
    subst hnone
    exact Matched.nil
  | @cons t us ws ws' ws'' ht _ ih =>
    have hus := ih hnone
    generalize hk : t.kind = k at ht
    cases ht with
    | inner hinner =>
      have ht : t.kind.isPlain = true := by simp_all [Kind.isInner]
      exact hus.prepend [t] fun us h => .plain ht h
    | opening ho =>
      subst hk
      obtain ⟨vs, c, rest, rfl, hvs, hc, hrest⟩ := hus
      have hgroup := hrest.prepend (t :: (vs ++ [c])) fun us h => by
        simpa using Matched.group ho hc hvs h
      simpa using hgroup
    | closing => exact ⟨[], t, us, rfl, .nil, hk, hus⟩

/-- Tokens that leave no bracket wanted match. -/
theorem Opens.matched {us : List Token} (h : Opens [] us []) : Matched us := h.completes rfl

/-- All brackets that are wanted can be closed. -/
theorem Opens.exists_closing {ws : List Symbol} (hws : ∀ s ∈ ws, (Kind.symbol s).isClosing = true) :
    ∃ us, Opens ws us [] := by
  induction ws with
  | nil => exact ⟨[], .nil⟩
  | cons s ws ih =>
    obtain ⟨hs, hws⟩ := List.forall_mem_cons.1 hws
    obtain ⟨us, hus⟩ := ih hws
    exact ⟨⟨.symbol s, "", .start⟩ :: us, .cons (.closing hs) hus⟩

/-- Tokens that leave brackets wanted are the front of tokens that match. -/
theorem Opens.exists_matched {ws : List Symbol} {us : List Token} (h : Opens [] us ws) :
    ∃ vs, Matched (us ++ vs) := by
  obtain ⟨vs, hvs⟩ := Opens.exists_closing (h.isClosing nofun)
  exact ⟨vs, (h.append hvs).matched⟩

/-! ### Matching as a test -/

/-- The closing brackets that are wanted behind a token of the kind, unless it is a closing
bracket that was not wanted. -/
def Kind.turn? (ws : List Symbol) (k : Kind) : Option (List Symbol) :=
  match k.closer? with
  | some s => some (s :: ws)
  | none =>
    if k.isClosing = true then
      if ws.head?.map Kind.symbol = some k then some ws.tail else none
    else some ws

/-- The closing brackets that are wanted behind the tokens. -/
def wanted? (ws : List Symbol) (us : List Token) : Option (List Symbol) :=
  (us.map Token.kind).foldlM Kind.turn? ws

/-- What is wanted is told for one list and then for the next. -/
theorem wanted?_append (ws : List Symbol) (us vs : List Token) :
    wanted? ws (us ++ vs) = (wanted? ws us).bind fun ws' => wanted? ws' vs := by
  simp [wanted?, Option.bind_eq_bind]

/-- What is wanted is told token by token. -/
theorem wanted?_cons (ws : List Symbol) (t : Token) (us : List Token) :
    wanted? ws (t :: us) = (t.kind.turn? ws).bind fun ws' => wanted? ws' us := rfl

/-- A closing bracket opens nothing. -/
theorem Kind.closer?_of_isClosing {s : Symbol} (hs : (Kind.symbol s).isClosing = true) :
    (Kind.symbol s).closer? = none := by
  cases s <;> first | rfl | cases hs

/-- A closing bracket takes the place of the one that is wanted first. -/
theorem Kind.turn?_closing {s : Symbol} (hs : (Kind.symbol s).isClosing = true)
    (ws : List Symbol) : (Kind.symbol s).turn? (s :: ws) = some ws := by
  simp [turn?, closer?_of_isClosing hs, hs]

/-- Tokens that match change nothing about what is wanted. -/
theorem Matched.wanted?_eq {us : List Token} (h : Matched us) (ws : List Symbol) :
    wanted? ws us = some ws := by
  induction h generalizing ws with
  | nil => rfl
  | @plain t us ht _ ih =>
    simp only [Kind.isPlain, Bool.and_eq_true, Option.isNone_iff_eq_none, Bool.not_eq_true'] at ht
    simp [wanted?_cons, Kind.turn?, ht, ih]
  | @group o c s us vs ho hc _ _ ihu ihv =>
    have hopen : o.kind.turn? ws = some (s :: ws) := by simp [Kind.turn?, ho]
    have hclose : c.kind.turn? (s :: ws) = some ws :=
      hc ▸ Kind.turn?_closing (Kind.isClosing_of_closer? ho) ws
    rw [wanted?_cons, hopen, Option.bind_some, wanted?_append, ihu, Option.bind_some, wanted?_cons,
      hclose, Option.bind_some, ihv]

/-- Tokens with a closing bracket that was not wanted are the front of none that match. -/
theorem not_matched_of_wanted? {us : List Token} (h : wanted? [] us = none) :
    ¬ ∃ vs, Matched (us ++ vs) := by
  rintro ⟨vs, hvs⟩
  have hsome := hvs.wanted?_eq []
  rw [wanted?_append, h] at hsome
  cases hsome

end WrenAnalysis
