/-
# Commas between brackets

`commasOutside` counts the commas that stand in no bracket of some sorts.  Among tokens whose
brackets match, the counts of the parts add up, and a comma in such a bracket is not counted
(`Matched.commasOutside_group`).

A comma of an expression stands in one of its brackets, and between two arguments there is a
comma that does not (`Derives.bracketed`).
-/

import WrenAnalysis.Proofs.Syntax.Brackets

namespace WrenAnalysis

/-! ### Counting -/

/-- The commas among the tokens that stand in no bracket with one of the given closing symbols,
where `depth` such brackets are open in front of the tokens. -/
def commasOutside (closers : List Symbol) : (depth : Nat) → List Token → Nat
  | _, [] => 0
  | depth, t :: us =>
    match t.kind.closer? with
    | some s => commasOutside closers (if s ∈ closers then depth + 1 else depth) us
    | none =>
      if t.kind ∈ closers.map Kind.symbol then commasOutside closers (depth - 1) us
      else (if depth = 0 ∧ t.kind = .symbol .comma then 1 else 0) + commasOutside closers depth us

/-- All closing brackets. -/
def closingBrackets : List Symbol := [.rightParen, .rightBracket, .rightBrace]

/-- The commas that stand in no bracket. -/
def separatingCommas (us : List Token) : Nat := commasOutside closingBrackets 0 us

/-- The commas that stand in no parentheses, though they may stand in square brackets or
braces. -/
def looseCommas (us : List Token) : Nat := commasOutside [.rightParen] 0 us

section Counting

variable {closers : List Symbol} {depth : Nat} {o c t : Token} {s : Symbol} {us vs : List Token}

/-- Behind the bracket that `s` closes one more is open, if it is one that counts. -/
theorem commasOutside_opening (ho : o.kind.closer? = some s) (us : List Token) :
    commasOutside closers depth (o :: us) =
      commasOutside closers (if s ∈ closers then depth + 1 else depth) us := by
  rw [commasOutside, ho]

/-- A closing bracket of the given ones leaves the bracket around what follows. -/
theorem commasOutside_closing (hs : (Kind.symbol s).isClosing = true) (hc : c.kind = .symbol s)
    (us : List Token) : commasOutside closers depth (c :: us) =
      commasOutside closers (if s ∈ closers then depth - 1 else depth) us := by
  have hcomma : Kind.symbol s ≠ .symbol .comma := by rintro ⟨⟩; cases hs
  rw [commasOutside, hc, Kind.closer?_of_isClosing hs]
  by_cases hmem : s ∈ closers
  · simp [hmem]
  · simp [hmem, hcomma]

/-- A comma outside of all given brackets counts, and no other plain token does. -/
theorem commasOutside_plain (hclosers : ∀ s ∈ closers, (Kind.symbol s).isClosing = true)
    (ht : t.kind.isPlain = true) (us : List Token) : commasOutside closers depth (t :: us) =
      (if depth = 0 ∧ t.kind = .symbol .comma then 1 else 0) + commasOutside closers depth us := by
  simp only [Kind.isPlain, Bool.and_eq_true, Option.isNone_iff_eq_none, Bool.not_eq_true'] at ht
  have hnot : t.kind ∉ closers.map Kind.symbol := by
    rw [List.mem_map]
    rintro ⟨s, hs, heq⟩
    rw [← heq, hclosers s hs] at ht
    cases ht.2
  rw [commasOutside, ht.1]
  exact if_neg hnot

/-- Behind the closing bracket as many brackets are open as in front of the opening one. -/
theorem commasOutside_brackets (ho : o.kind.closer? = some s) (hc : c.kind = .symbol s)
    (hus : ∀ depth vs, commasOutside closers depth (us ++ vs) =
      commasOutside closers depth us + commasOutside closers depth vs)
    (depth : Nat) (vs : List Token) : commasOutside closers depth (o :: (us ++ c :: vs)) =
      commasOutside closers (if s ∈ closers then depth + 1 else depth) us +
        commasOutside closers depth vs := by
  have hback : (if s ∈ closers then (if s ∈ closers then depth + 1 else depth) - 1
      else if s ∈ closers then depth + 1 else depth) = depth := by
    split <;> simp
  rw [commasOutside_opening ho, hus, commasOutside_closing (Kind.isClosing_of_closer? ho) hc, hback]

namespace Matched

/-- Commas in matching tokens count by themselves, whatever follows. -/
theorem commasOutside_append (hclosers : ∀ s ∈ closers, (Kind.symbol s).isClosing = true)
    (h : Matched us) (depth : Nat) (vs : List Token) :
    commasOutside closers depth (us ++ vs) =
      commasOutside closers depth us + commasOutside closers depth vs := by
  induction h generalizing depth vs with
  | nil => rw [List.nil_append, commasOutside, Nat.zero_add]
  | plain ht _ ih =>
    rw [List.cons_append, commasOutside_plain hclosers ht, commasOutside_plain hclosers ht, ih,
      Nat.add_assoc]
  | @group o c s us ws ho hc _ _ ihu ihw =>
    rw [List.cons_append, List.append_assoc, List.cons_append, commasOutside_brackets ho hc ihu,
      commasOutside_brackets ho hc ihu, ihw, Nat.add_assoc]

/-- Inside a bracket commas count one level deeper, and behind it as before. -/
theorem commasOutside_group (hclosers : ∀ s ∈ closers, (Kind.symbol s).isClosing = true)
    (ho : o.kind.closer? = some s) (hc : c.kind = .symbol s) (h : Matched us) (depth : Nat)
    (vs : List Token) : commasOutside closers depth (o :: (us ++ c :: vs)) =
      commasOutside closers (if s ∈ closers then depth + 1 else depth) us +
        commasOutside closers depth vs :=
  commasOutside_brackets ho hc (h.commasOutside_append hclosers) depth vs

/-- Where a bracket is open no comma is outside of it. -/
theorem commasOutside_succ (hclosers : ∀ s ∈ closers, (Kind.symbol s).isClosing = true)
    (h : Matched us) (depth : Nat) : commasOutside closers (depth + 1) us = 0 := by
  induction h generalizing depth with
  | nil => rfl
  | plain ht _ ih => rw [commasOutside_plain hclosers ht, ih, if_neg (by omega)]
  | @group o c s us ws ho hc hus _ ihu ihw =>
    rw [hus.commasOutside_group hclosers ho hc, ihw]
    split <;> rw [ihu]

end Matched

end Counting

/-! ### What constructs are written with -/

/-- All closing brackets are closing. -/
theorem isClosing_of_mem_closingBrackets :
    ∀ s ∈ closingBrackets, (Kind.symbol s).isClosing = true := by decide

/-- A closing parenthesis is closing. -/
theorem isClosing_of_mem_rightParen :
    ∀ s ∈ [Symbol.rightParen], (Kind.symbol s).isClosing = true := by decide

/-- Neither a bracket nor a comma. -/
def Kind.isInert (k : Kind) : Bool := k.isPlain && k ≠ .symbol .comma

/-- The brackets match, and every comma stands in one. -/
structure Sealed (us : List Token) : Prop where
  matched : Matched us
  commas : separatingCommas us = 0

/-- The tokens match but for the closing symbol behind them. -/
def Closed (s : Symbol) (us : List Token) : Prop :=
  ∃ vs c, us = vs ++ [c] ∧ Matched vs ∧ c.kind = .symbol s

section Written

variable {o t : Token} {k : Kind} {s : Symbol} {us vs ls : List Token}

/-- Commas that separate add up behind matching tokens. -/
theorem separatingCommas_append (h : Matched us) (vs : List Token) :
    separatingCommas (us ++ vs) = separatingCommas us + separatingCommas vs :=
  h.commasOutside_append isClosing_of_mem_closingBrackets 0 vs

/-- Commas in no parentheses add up behind matching tokens. -/
theorem looseCommas_append (h : Matched us) (vs : List Token) :
    looseCommas (us ++ vs) = looseCommas us + looseCommas vs :=
  h.commasOutside_append isClosing_of_mem_rightParen 0 vs

/-- A closing bracket is no comma. -/
theorem separatingCommas_closing (hs : (Kind.symbol s).isClosing = true)
    (ht : t.kind = .symbol s) : separatingCommas [t] = 0 := by
  rw [separatingCommas, commasOutside_closing hs ht]
  rfl

/-- A comma in front separates. -/
theorem separatingCommas_comma (ht : t.kind = .symbol .comma) (us : List Token) :
    separatingCommas (t :: us) = 1 + separatingCommas us := by
  have hplain : t.kind.isPlain = true := by rw [ht]; rfl
  rw [separatingCommas, commasOutside_plain isClosing_of_mem_closingBrackets hplain,
    if_pos ⟨rfl, ht⟩]
  rfl

namespace Sealed

/-- No tokens have no commas. -/
theorem nil : Sealed [] := ⟨.nil, rfl⟩

/-- Sealed tokens behind sealed ones are sealed. -/
theorem append (h : Sealed us) (h' : Sealed vs) : Sealed (us ++ vs) where
  matched := h.matched.append h'.matched
  commas := by rw [separatingCommas_append h.matched, h.commas, h'.commas]

/-- A token that is neither bracket nor comma may stand in front. -/
theorem cons (ht : t.kind = k) (hk : k.isInert = true) (h : Sealed us) : Sealed (t :: us) := by
  simp only [Kind.isInert, ← ht, Bool.and_eq_true, decide_eq_true_eq] at hk
  refine ⟨.plain hk.1 h.matched, ?_⟩
  rw [separatingCommas, commasOutside_plain isClosing_of_mem_closingBrackets hk.1,
    if_neg fun h => hk.2 h.2, Nat.zero_add]
  exact h.commas

/-- A token that is neither bracket nor comma is sealed by itself. -/
theorem single (ht : t.kind = k) (hk : k.isInert = true) : Sealed [t] := nil.cons ht hk

/-- Commas are looked for behind. -/
theorem separatingCommas_append (h : Sealed us) (vs : List Token) :
    separatingCommas (us ++ vs) = separatingCommas vs := by
  rw [WrenAnalysis.separatingCommas_append h.matched, h.commas, Nat.zero_add]

/-- Newlines are sealed. -/
theorem lines (h : Lines ls) : Sealed ls := by
  induction ls with
  | nil => exact nil
  | cons t ls ih =>
    obtain ⟨ht, hls⟩ := List.forall_mem_cons.1 h
    exact (ih hls).cons ht rfl

end Sealed

namespace Closed

/-- Matching tokens are closed by a symbol behind them. -/
theorem last (h : Matched us) (ht : t.kind = .symbol s) : Closed s (us ++ [t]) :=
  ⟨us, t, rfl, h, ht⟩

/-- Matching tokens may stand in front of what is closed. -/
theorem prepend (h : Closed s vs) (hus : Matched us) : Closed s (us ++ vs) := by
  obtain ⟨vs, c, rfl, hvs, hc⟩ := h
  exact ⟨us ++ vs, c, (List.append_assoc ..).symm, hus.append hvs, hc⟩

/-- A token that is no bracket may stand in front of what is closed. -/
theorem cons (h : Closed s us) (ht : t.kind = k) (hk : k.isPlain = true) : Closed s (t :: us) :=
  h.prepend (.single (ht ▸ hk))

/-- What stands in brackets has no comma outside of them. -/
theorem enclosed (h : Closed s us) (ho : o.kind = k) (hk : k.closer? = some s) :
    Sealed (o :: us) := by
  obtain ⟨vs, c, rfl, hvs, hc⟩ := h
  rw [← ho] at hk
  refine ⟨.group hk hc hvs .nil, ?_⟩
  have hmem : s ∈ closingBrackets := by
    have := Kind.isClosing_of_closer? hk
    cases s <;> first | decide | cases this
  rw [separatingCommas, hvs.commasOutside_group isClosing_of_mem_closingBrackets hk hc,
    if_pos hmem, hvs.commasOutside_succ isClosing_of_mem_closingBrackets]
  rfl

/-- Tokens that match have no closing bracket behind others that match. -/
theorem not_matched (h : Closed s us) (hs : (Kind.symbol s).isClosing = true) : ¬ Matched us := by
  obtain ⟨vs, c, rfl, hvs, hc⟩ := h
  intro hall
  have hwanted := hall.wanted?_eq []
  rw [wanted?_append, hvs.wanted?_eq, Option.bind_some, wanted?_cons, hc] at hwanted
  simp [Kind.turn?, Kind.closer?_of_isClosing hs, hs] at hwanted

end Closed

/-! ### Heads -/

/-- A list of names is closed by its symbol. -/
theorem NameList.closed (h : NameList s vs us) : Closed s us := by
  induction h with
  | last hn hls ht => exact (Closed.last (.lines hls) ht).cons hn rfl
  | more hn hls ht hls' _ ih =>
    exact (((ih.prepend (.lines hls')).cons ht rfl).prepend (.lines hls)).cons hn rfl

/-- Names that may be missing are closed by their symbol. -/
theorem Names.closed (h : Names s vs us) : Closed s us := by
  cases h with
  | none hls ht => exact .last (.lines hls) ht
  | some hls hns => exact hns.closed.prepend (.lines hls)

/-- A name that may be missing has no commas. -/
theorem OptionalName.sealed {n : Option Token} (h : OptionalName k n us) (hk : k.isInert = true) :
    Sealed us := by
  cases h with
  | none => exact .nil
  | some ht hn => exact (Sealed.single hn rfl).cons ht hk

/-- The bars around block parameters match by themselves. -/
theorem BlockHead.matched (h : BlockHead vs us) : Matched us := by
  cases h with
  | none => exact .nil
  | bars ht => exact (Sealed.single ht rfl).matched
  | some ht hns =>
    obtain ⟨ws, c, rfl, hws, hc⟩ := hns.closed
    exact (Sealed.single ht rfl).matched.append (hws.append (Sealed.single hc rfl).matched)

/-- Imported names have no brackets. -/
theorem ImportList.matched {ns : List ImportedName} (h : ImportList ns us) : Matched us := by
  induction h with
  | last hls hn ha =>
    exact (Matched.lines hls).append ((ha.sealed rfl).cons hn rfl).matched
  | more hls hn ha ht _ ih =>
    have hmore := (ha.sealed rfl).matched.append (ih.cons_of_kind ht rfl)
    exact (Matched.lines hls).append (hmore.cons_of_kind hn rfl)

/-- The commas of a parameter list stand in its parentheses. -/
theorem Parameters.sealed {ps : Option (List Token)} (h : Parameters ps us) : Sealed us := by
  cases h with
  | none => exact .nil
  | some ht hns => exact hns.closed.enclosed ht rfl

/-- The parameter of a setter has no commas outside of its parentheses. -/
theorem SetterValue.sealed (h : SetterValue t us) : Sealed us := by
  obtain ⟨he, ho, hv, hc⟩ := h
  have hgroup := (Closed.last (Sealed.single hv rfl).matched hc).enclosed ho rfl
  exact hgroup.cons he rfl

/-- An operator that names a method is neither bracket nor comma. -/
theorem Kind.isInert_of_isOperatorName (h : k.isOperatorName = true) : k.isInert = true := by
  unfold isOperatorName at h
  split at h <;> first | rfl | cases h

/-- A binary operator is neither bracket nor comma. -/
theorem Kind.isInert_of_precedence {p : Nat} (h : k.precedence = some p) : k.isInert = true := by
  unfold precedence at h
  split at h <;> first | rfl | cases h

/-- The commas of a head stand in its brackets. -/
theorem Heads.sealed {n : Token} {m : MethodKind} {ps : Option (List Token)}
    (h : Heads n m ps us) : Sealed us := by
  cases h with
  | named hn hps => exact hps.sealed.cons hn rfl
  | setter hn hv => exact hv.sealed.cons hn rfl
  | operator ho hps => exact hps.sealed.cons rfl (Kind.isInert_of_isOperatorName ho)
  | subscript hb hns => exact hns.closed.enclosed hb rfl
  | subscriptSetter hb hns hv => exact (hns.closed.enclosed hb rfl).append hv.sealed

/-- Words in front of a method have no commas. -/
theorem Modifies.sealed {start found : Grammar.Modifiers} (h : Modifies start found us) :
    Sealed us := by
  induction h with
  | none => exact .nil
  | construct ht _ ih | foreign ht _ ih | static ht _ ih => exact ih.cons ht rfl

/-- The words in front of a class have no commas. -/
theorem ClassHead.sealed {isForeign : Bool} (h : ClassHead isForeign us) : Sealed us := by
  cases h with
  | plain hk => exact .single hk rfl
  | foreign hf hk => exact (Sealed.single hk rfl).cons hf rfl

end Written

/-! ### Constructs -/

/-- What is known of the brackets and the commas of a construct. -/
def Phrase.Bracketed (us : List Token) : Phrase → Prop
  | .expr _ | .tail _ _ | .condition _ => Sealed us
  | .arguments r es => Closed r.close us ∧ es.length ≤ separatingCommas us + 1
  | .entries _ | .body _ | .methods _ => Closed .rightBrace us
  | .stmt _ | .method _ => Matched us

namespace Hashless

variable {t : Token} {us vs : List Token}

/-- The first of two lists without attributes has none. -/
theorem left (h : Hashless (us ++ vs)) : Hashless us := fun t ht => h t (by simp [ht])

/-- The second of two lists without attributes has none. -/
theorem right (h : Hashless (us ++ vs)) : Hashless vs := fun t ht => h t (by simp [ht])

/-- Behind the first of tokens without attributes are none. -/
theorem tail (h : Hashless (t :: us)) : Hashless us := fun t ht => h t (by simp [ht])

end Hashless

/-- **The brackets of a construct match**, but for the closing one of a list or a body, and if
there is no attribute in it.  A comma of an expression stands in one of its brackets, and
arguments have one between each two that does not. -/
theorem Derives.bracketed {p : Phrase} {us : List Token} (h : Derives p us) (hhash : Hashless us) :
    p.Bracketed us := by
  induction h with
  | null ht | num ht | str ht | thisValue ht | field ht _ | staticField ht _ =>
    exact .single ht rfl
  | bool ht =>
    simp only [List.mem_cons, List.not_mem_nil, or_false] at ht
    rcases ht with ht | ht <;> exact .single ht rfl
  | name ht _ _ ih => exact (ih hhash.tail).cons ht rfl
  | superCall ht hn _ ih =>
    exact ((hn.sealed rfl).append (ih hhash.tail.right)).cons ht rfl
  | group ho hls _ hls' hc ih | condition ho hls _ hls' hc ih =>
    have hinner := (Closed.last (.lines hls') hc).prepend (ih hhash.tail.right.left).matched
    exact (hinner.prepend (.lines hls)).enclosed ho rfl
  | list hb _ ih => exact (ih hhash.tail).1.enclosed hb rfl
  | map hb _ ih => exact (ih hhash.tail).enclosed hb rfl
  | continued _ hls ih => exact (ih hhash.left).append (.lines hls)
  | call _ hd hls hn _ ih ihtail =>
    have htail := (ihtail hhash.right.tail.right.tail).cons hn rfl
    exact (ih hhash.left).append (((Sealed.lines hls).append htail).cons hd rfl)
  | subscript _ hb _ ih ihs =>
    exact (ih hhash.left).append ((ihs hhash.right.tail).1.enclosed hb rfl)
  | unary ho _ ih =>
    simp only [List.mem_cons, List.not_mem_nil, or_false] at ho
    rcases ho with ho | ho | ho <;> exact (ih hhash.tail).cons ho rfl
  | binary _ hp hls _ ih ih' =>
    have hright := (Sealed.lines hls).append (ih' hhash.right.tail.right)
    exact (ih hhash.left).append (hright.cons rfl (Kind.isInert_of_precedence hp))
  | conditional _ hq hls _ hls₁ hk hls₂ _ ih iha ihb =>
    have hb := (Sealed.lines hls₂).append (ihb hhash.right.tail.right.right.right.tail.right)
    have ha := (iha hhash.right.tail.right.left).append
      ((Sealed.lines hls₁).append (hb.cons hk rfl))
    exact (ih hhash.left).append (((Sealed.lines hls).append ha).cons hq rfl)
  | assign _ _ hq hls _ ih ih' =>
    have hvalue := (Sealed.lines hls).append (ih' hhash.right.tail.right)
    exact (ih hhash.left).append (hvalue.cons hq rfl)
  | argumentsEnd hls ht => exact ⟨.last (.lines hls) ht, Nat.zero_le _⟩
  | argumentsLast hls _ hls' ht ih =>
    have hlast := (Closed.last (.lines hls') ht).prepend (ih hhash.right.left).matched
    exact ⟨hlast.prepend (.lines hls), Nat.succ_le_succ (Nat.zero_le _)⟩
  | argumentsMore hls _ hls' ht _ ih ihs =>
    have harg := ih hhash.right.left
    obtain ⟨hclosed, hcount⟩ := ihs hhash.right.right.right.tail
    refine ⟨(((hclosed.cons ht rfl).prepend (.lines hls')).prepend harg.matched).prepend
      (.lines hls), ?_⟩
    rw [(Sealed.lines hls).separatingCommas_append, Sealed.separatingCommas_append harg,
      (Sealed.lines hls').separatingCommas_append, separatingCommas_comma ht, List.length_cons]
    omega
  | entriesEnd hls ht | bodyEnd hls ht | methodsEnd hls ht => exact .last (.lines hls) ht
  | entriesLast hls _ hls₁ hk hls₂ _ hls₃ ht ih ih' =>
    have hvalue := ih' hhash.right.right.right.tail.right.left
    have hend := (Closed.last (.lines hls₃) ht).prepend hvalue.matched
    have hcolon := (hend.prepend (.lines hls₂)).cons hk rfl
    exact ((hcolon.prepend (.lines hls₁)).prepend (ih hhash.right.left).matched).prepend
      (.lines hls)
  | entriesMore hls _ hls₁ hk hls₂ _ hls₃ ht _ ih ih' ihs =>
    have hvalue := ih' hhash.right.right.right.tail.right.left
    have hmore := (ihs hhash.right.right.right.tail.right.right.right.tail).cons ht rfl
    have hend := (hmore.prepend (.lines hls₃)).prepend hvalue.matched
    have hcolon := (hend.prepend (.lines hls₂)).cons hk rfl
    exact ((hcolon.prepend (.lines hls₁)).prepend (ih hhash.right.left).matched).prepend
      (.lines hls)
  | tailNone => exact .nil
  | tailArguments ho _ ih => exact (ih hhash.tail).1.enclosed ho rfl
  | tailBlock _ ho hps _ ih ihs =>
    have hbody := (ihs hhash.right.tail.right).prepend hps.matched
    exact (ih hhash.left).append (hbody.enclosed ho rfl)
  | expr _ ih => exact (ih hhash).matched
  | block hb _ ih => exact ((ih hhash.tail).enclosed hb rfl).matched
  | ifThen hk _ _ hls ih ihs =>
    have hbranch := (ihs hhash.tail.right.left).append (.lines hls)
    exact ((ih hhash.tail.left).matched.append hbranch).cons_of_kind hk rfl
  | ifElse hk _ _ hls ht _ ih ihs ihs' =>
    have helse := (ihs' hhash.tail.right.right.right.tail).cons_of_kind ht rfl
    have hbranch := (ihs hhash.tail.right.left).append ((Matched.lines hls).append helse)
    exact ((ih hhash.tail.left).matched.append hbranch).cons_of_kind hk rfl
  | whileLoop hk _ _ ih ihs =>
    exact ((ih hhash.tail.left).matched.append (ihs hhash.tail.right)).cons_of_kind hk rfl
  | forLoop hk ho hls hn hi hls₁ _ hls₂ hc _ ih ihs =>
    have hiterator := ih hhash.tail.tail.right.tail.tail.right.left
    have hbody := ihs hhash.tail.tail.right.tail.tail.right.right.right.tail
    have hopen : (Kind.symbol .leftParen).closer? = some .rightParen := rfl
    have hvalue := (Matched.lines hls₁).append (hiterator.matched.append (.lines hls₂))
    have hinner := (Matched.lines hls).append ((hvalue.cons_of_kind hi rfl).cons_of_kind hn rfl)
    have hgroup := Matched.group (ho ▸ hopen) hc hinner hbody
    exact .cons_of_kind hk rfl (by simpa using hgroup)
  | returning hk | breaking hk | continuing hk => exact (Sealed.single hk rfl).matched
  | returningValue hk _ ih => exact (ih hhash.tail).matched.cons_of_kind hk rfl
  | importing hk hp => exact ((Sealed.single hp rfl).cons hk rfl).matched
  | importingNames hk hp hf hns =>
    exact ((hns.matched.cons_of_kind hf rfl).cons_of_kind hp rfl).cons_of_kind hk rfl
  | var hk hn => exact ((Sealed.single hn rfl).cons hk rfl).matched
  | varValue hk hn hq hls _ ih =>
    have hvalue := (Sealed.lines hls).append (ih hhash.tail.tail.tail.right)
    exact (((hvalue.cons hq rfl).cons hn rfl).cons hk rfl).matched
  | classDef hhead hn hparent hb _ ih =>
    have hmethods := (ih hhash.right.tail.right.tail).enclosed hb rfl
    exact (hhead.sealed.append (((hparent.sealed rfl).append hmethods).cons hn rfl)).matched
  | bodyAttribute _ hus | methodsAttribute _ hus =>
    obtain ⟨t, us, rfl, ht⟩ := hus.head
    exact absurd ht (hhash t (by simp))
  | bodyMore hls _ hls' _ ih ihs | methodsMore hls _ hls' _ ih ihs =>
    have hmore := (ihs hhash.right.right.right).prepend (.lines hls')
    exact (hmore.prepend (ih hhash.right.left)).prepend (.lines hls)
  | methodBody hmodifies hhead hb _ ih =>
    have hbody := (ih hhash.right.right.tail).enclosed hb rfl
    exact (hmodifies.sealed.append (hhead.sealed.append hbody)).matched
  | methodForeign hmodifies _ hhead => exact (hmodifies.sealed.append hhead.sealed).matched

end WrenAnalysis
