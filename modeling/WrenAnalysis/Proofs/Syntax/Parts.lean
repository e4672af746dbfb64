/-
# Texts with commas between them

Of texts that stand one behind the other, with a comma and a blank between each two, the
tokens are those that start in each text with at most one comma between (`separated_startingIn`).
So if the brackets of each text match, those of all match, and their commas add up.
-/

import Mathlib.Algebra.BigOperators.Group.List.Basic
import Mathlib.Algebra.GroupWithZero.Nat
import WrenAnalysis.Proofs.Syntax.Commas
import WrenAnalysis.Proofs.Token.Exchange

namespace WrenAnalysis

/-! ### What starts with a comma -/

/-- A token of the kind may start with the character: none starts with a blank, and only a comma
or a closing parenthesis starts with one. -/
structure Kind.MayStart (k : Kind) (c : Char) : Prop where
  blank : c ≠ ' '
  comma : c = ',' → k = .symbol .comma
  rightParen : c = ')' → k = .symbol .rightParen

/-- A token starts with a character that its kind may start with. -/
theorem Lexeme.Scans.mayStart {c : Char} {cs : List Char} {k : Kind} {n : Nat}
    (h : Scans (c :: cs) k n) : k.MayStart c := by
  have hother : [' ', ',', ')'].all (fun c => !c.isDigit && !Text.isNameStart c) = true := by
    decide +kernel
  by_cases hc : c ∈ [' ', ',', ')']
  · obtain ⟨hdigit, hname⟩ : c.isDigit = false ∧ Text.isNameStart c = false := by
      simpa using List.all_eq_true.1 hother c hc
    cases h with
    | line | string => simp at hc
    | number _ _ hdigit' => simp [hdigit] at hdigit'
    | word _ _ _ hname' => simp [hname] at hname'
    | @symbol _ _ s _ _ _ _ hread =>
      obtain ⟨r, hr⟩ := Symbol.spelling_prefix_of_read hread
      have hhead : s.spelling.head? = some c := by
        cases hs : s.spelling with
        | nil => exact absurd hs s.spelling_ne_nil
        | cons d ds =>
          rw [hs] at hr
          rw [(List.cons.inj hr).1]
          rfl
      constructor
      · rintro rfl
        cases s <;> cases hhead
      · rintro rfl
        cases s <;> first | rfl | cases hhead
      · rintro rfl
        cases s <;> first | rfl | cases hhead
  · simp only [List.mem_cons, List.not_mem_nil, or_false, not_or] at hc
    exact ⟨hc.1, fun h => absurd h hc.2.1, fun h => absurd h hc.2.2⟩

/-- A token may start with the character where it stands. -/
theorem Token.mayStart {text : String} {t : Token} {c : Char} (ht : t ∈ tokenizePrefix text)
    (hc : text.toList[t.position.offset]? = some c) : t.kind.MayStart c := by
  rcases (streams_tokenizePrefix text).scanned t ht with rfl | ⟨front, rest, hcs, hposition, hscans⟩
  · simp [Token.eof, Position.after_offset, Position.start] at hc
  · have hoffset : t.position.offset = front.length := by
      simp [hposition, Position.after_offset, Position.start]
    rw [hcs, hoffset, List.getElem?_append_right le_rfl, Nat.sub_self] at hc
    cases hds : t.text.toList ++ rest with
    | nil => simp [hds] at hc
    | cons d ds =>
      rw [hds] at hc hscans
      obtain rfl : d = c := by simpa using hc
      exact hscans.mayStart

/-! ### Tokens by their place -/

namespace Token

/-- The tokens start one behind the other. -/
def InOrder (ts : List Token) : Prop :=
  ts.Pairwise fun s t => s.position.offset < t.position.offset

/-- The tokens start one behind the other, each where it may in the text. -/
structure Along (chars : List Char) (ts : List Token) : Prop where
  order : InOrder ts
  mayStart : ∀ t ∈ ts, ∀ c, chars[t.position.offset]? = some c → t.kind.MayStart c

/-- The tokens that start in front of an offset. -/
def upTo (a : Nat) (ts : List Token) : List Token := ts.filter fun t => t.position.offset < a

/-- The tokens that start at an offset or behind it. -/
def onward (a : Nat) (ts : List Token) : List Token := ts.filter fun t => a ≤ t.position.offset

/-- The tokens that start in each of some texts, of which the first starts at an offset and each
other one two characters behind the one before. -/
def startingIn (ts : List Token) : (start : Nat) → List String → List (List Token)
  | _, [] => []
  | start, e :: es =>
    upTo (start + e.length) (onward start ts) :: startingIn ts (start + e.length + 2) es

variable {a b start : Nat} {ts : List Token}

/-- What starts in front of an offset. -/
theorem mem_upTo {t : Token} : t ∈ upTo a ts ↔ t ∈ ts ∧ t.position.offset < a := by
  simp [upTo]

/-- What starts at an offset or behind it. -/
theorem mem_onward {t : Token} : t ∈ onward a ts ↔ t ∈ ts ∧ a ≤ t.position.offset := by
  simp [onward]

/-- Tokens in order stay so in front of an offset. -/
theorem inOrder_upTo (h : InOrder ts) (a : Nat) : InOrder (upTo a ts) := h.filter _

/-- Tokens in order stay so behind an offset. -/
theorem inOrder_onward (h : InOrder ts) (a : Nat) : InOrder (onward a ts) := h.filter _

/-- Tokens along a text stay so behind an offset. -/
theorem Along.onward {chars : List Char} (h : Along chars ts) (a : Nat) :
    Along chars (onward a ts) :=
  ⟨inOrder_onward h.order a, fun t ht => h.mayStart t (mem_onward.1 ht).1⟩

/-- Tokens along a text stay so behind the first. -/
theorem Along.tail {chars : List Char} {t : Token} (h : Along chars (t :: ts)) : Along chars ts :=
  ⟨(List.pairwise_cons.1 h.order).2, fun s hs => h.mayStart s (List.mem_cons_of_mem t hs)⟩

/-- Of two offsets the later one decides. -/
theorem onward_onward (h : a ≤ b) : onward b (onward a ts) = onward b ts := by
  rw [onward, onward, List.filter_filter]
  refine List.filter_congr fun t _ => ?_
  simp only [Bool.and_eq_decide, decide_eq_true_eq, decide_eq_decide]
  omega

/-- All tokens start behind an offset that none is in front of. -/
theorem onward_eq_self (h : ∀ t ∈ ts, a ≤ t.position.offset) : onward a ts = ts :=
  List.filter_eq_self.2 fun t ht => decide_eq_true (h t ht)

/-- The tokens of texts behind an offset do not depend on those in front of it. -/
theorem startingIn_onward (h : a ≤ start) (es : List String) :
    startingIn (onward a ts) start es = startingIn ts start es := by
  induction es generalizing start with
  | nil => rfl
  | cons e es ih => rw [startingIn, startingIn, onward_onward h, ih (by omega)]

/-- The tokens of the texts are among all tokens. -/
theorem mem_of_mem_startingIn {es : List String} {us : List Token}
    (h : us ∈ startingIn ts start es) : ∀ t ∈ us, t ∈ ts := by
  induction es generalizing start with
  | nil => cases h
  | cons e es ih =>
    rcases List.mem_cons.1 h with rfl | h
    · exact fun t ht => (mem_onward.1 (mem_upTo.1 ht).1).1
    · exact ih h

/-- Tokens in the order of the text are those in front of an offset and those behind it. -/
theorem InOrder.upTo_append_onward (h : InOrder ts) (a : Nat) :
    upTo a ts ++ onward a ts = ts := by
  induction ts with
  | nil => rfl
  | cons t ts ih =>
    obtain ⟨ht, hts⟩ := List.pairwise_cons.1 h
    by_cases hlt : t.position.offset < a
    · rw [upTo, onward, List.filter_cons_of_pos (by simpa), List.filter_cons_of_neg (by simpa)]
      exact congrArg (t :: ·) (ih hts)
    · have hnone : upTo a (t :: ts) = [] := by
        refine List.filter_eq_nil_iff.2 fun s hs => ?_
        rcases List.mem_cons.1 hs with rfl | hs
        · simpa using hlt
        · have := ht s hs
          simp only [decide_eq_true_eq]
          omega
      rw [hnone, List.nil_append, onward_eq_self]
      intro s hs
      rcases List.mem_cons.1 hs with rfl | hs
      · omega
      · have := ht s hs
        omega

end Token

/-- The tokens of a text start one behind the other. -/
theorem Lexer.Streams.inOrder {p : Position} {cs : List Char} {ts : List Token}
    {e : Option LexicalError} (h : Streams p cs ts e) : Token.InOrder ts := by
  induction h with
  | eof => exact List.pairwise_singleton _ _
  | @token p gap u rest k ts e _ hscan htail ih =>
    refine List.pairwise_cons.2 ⟨fun t ht => ?_, ih⟩
    have hpos := (Lexeme.scan_bounds hscan).1
    have hle := htail.offset_le t ht
    simp only [Position.after_offset, List.length_append] at hle ⊢
    omega
  | openComment => exact .nil
  | noToken => exact .nil

/-! ### Parts -/

/-- Tokens that are those of some parts with `n` commas between them, at most one between each
two. -/
inductive Separated : (parts : List (List Token)) → (n : Nat) → List Token → Prop
  | nil : Separated [] 0 []
  | cons {us ss vs : List Token} {parts : List (List Token)} {n : Nat} :
      (∀ t ∈ ss, t.kind = .symbol .comma) → ss.length ≤ min 1 parts.length →
      Separated parts n vs → Separated (us :: parts) (ss.length + n) (us ++ (ss ++ vs))

/-- The parts that some expressions are written as are sealed. -/
theorem sealed_of_forall₂ {args : List Expr} {parts : List (List Token)}
    (h : List.Forall₂ (fun a us => Derives (.expr a) us) args parts)
    (hhash : ∀ us ∈ parts, Hashless us) : ∀ us ∈ parts, Sealed us := by
  induction h with
  | nil => exact nofun
  | cons ha _ ih =>
    obtain ⟨hus, hparts⟩ := List.forall_mem_cons.1 hhash
    exact List.forall_mem_cons.2 ⟨ha.bracketed hus, ih hparts⟩

namespace Separated

variable {parts : List (List Token)} {n : Nat} {vs : List Token}

/-- There are fewer commas than parts. -/
theorem le (h : Separated parts n vs) : n ≤ parts.length - 1 := by
  induction h with
  | nil => exact Nat.le_refl 0
  | cons _ hle _ ih =>
    rw [List.length_cons]
    omega

/-- Commas match by themselves. -/
theorem matched_commas {ss : List Token} (h : ∀ t ∈ ss, t.kind = .symbol .comma) : Matched ss :=
  .of_forall fun t ht => by rw [h t ht]; rfl

/-- Matching parts with commas between them match. -/
theorem matched (h : Separated parts n vs) (hparts : ∀ us ∈ parts, Matched us) : Matched vs := by
  induction h with
  | nil => exact .nil
  | cons hss _ _ ih =>
    obtain ⟨hus, hparts⟩ := List.forall_mem_cons.1 hparts
    exact hus.append ((matched_commas hss).append (ih hparts))

/-- Commas by themselves all count. -/
theorem commasOutside_commas {closers : List Symbol} {ss : List Token}
    (hclosers : ∀ s ∈ closers, (Kind.symbol s).isClosing = true)
    (hss : ∀ t ∈ ss, t.kind = .symbol .comma) : commasOutside closers 0 ss = ss.length := by
  induction ss with
  | nil => rfl
  | cons t ss ih =>
    obtain ⟨ht, hss⟩ := List.forall_mem_cons.1 hss
    rw [commasOutside_plain hclosers (by rw [ht]; rfl), if_pos ⟨rfl, ht⟩, ih hss,
      List.length_cons, Nat.add_comm]

/-- The commas outside of brackets are those of the parts and those between them. -/
theorem commasOutside_eq {closers : List Symbol} (h : Separated parts n vs)
    (hclosers : ∀ s ∈ closers, (Kind.symbol s).isClosing = true)
    (hparts : ∀ us ∈ parts, Matched us) :
    commasOutside closers 0 vs = (parts.map (commasOutside closers 0)).sum + n := by
  induction h with
  | nil => rfl
  | @cons us ss vs parts n hss _ _ ih =>
    obtain ⟨hus, hparts⟩ := List.forall_mem_cons.1 hparts
    rw [hus.commasOutside_append hclosers, (matched_commas hss).commasOutside_append hclosers,
      commasOutside_commas hclosers hss, ih hparts, List.map_cons, List.sum_cons]
    omega

/-- The commas in no parentheses are those of the parts and those between them. -/
theorem looseCommas_eq (h : Separated parts n vs) (hparts : ∀ us ∈ parts, Matched us) :
    looseCommas vs = (parts.map looseCommas).sum + n :=
  h.commasOutside_eq isClosing_of_mem_rightParen hparts

/-- Outside of the brackets of sealed parts there are only the commas between them. -/
theorem separatingCommas_eq (h : Separated parts n vs) (hparts : ∀ us ∈ parts, Sealed us) :
    separatingCommas vs = n := by
  have hzero : (parts.map separatingCommas).sum = 0 := List.sum_eq_zero fun k hk => by
    obtain ⟨us, hus, rfl⟩ := List.mem_map.1 hk
    exact (hparts us hus).commas
  exact (h.commasOutside_eq isClosing_of_mem_closingBrackets fun us hus =>
    (hparts us hus).matched).trans ((congrArg (· + n) hzero).trans (Nat.zero_add n))

end Separated

/-! ### Texts one behind the other -/

/-- What comes behind a text in front of others. -/
def between (es : List String) : List Char := if es = [] then [] else [',', ' ']

/-- The characters of texts with a comma and a blank between each two. -/
def listed : List String → List Char
  | [] => []
  | e :: es => e.toList ++ (between es ++ listed es)

/-- Joined texts are listed with a comma and a blank between each two. -/
theorem toList_intercalate (es : List String) : (", ".intercalate es).toList = listed es := by
  induction es with
  | nil => rfl
  | cons e es ih =>
    cases es with
    | nil => simp [listed, between]
    | cons e' es =>
      rw [String.intercalate_cons_of_ne_nil (by simp), String.toList_append, String.toList_append,
        ih, List.append_assoc]
      rfl

/-- Texts with a comma and a blank behind each are listed, and one more separates the next. -/
theorem toList_join (es : List String) :
    (String.join (es.map (· ++ ", "))).toList = listed es ++ between es := by
  induction es with
  | nil => rfl
  | cons e es ih =>
    have hbehind : between (e :: es) = [',', ' '] := rfl
    rw [List.map_cons, String.join_cons, String.toList_append, String.toList_append, ih, listed,
      hbehind]
    cases es with
    | nil => simp [listed, between]
    | cons e' es => simp [between]

/-- There is no newline between a text and the next. -/
theorem notMem_between (es : List String) : '\n' ∉ between es := by
  unfold between
  split <;> decide

/-- There is no newline among texts that have none. -/
theorem notMem_listed {es : List String} (h : ∀ e ∈ es, '\n' ∉ e.toList) : '\n' ∉ listed es := by
  induction es with
  | nil => exact List.not_mem_nil
  | cons e es ih =>
    obtain ⟨he, hes⟩ := List.forall_mem_cons.1 h
    simp [listed, he, notMem_between, ih hes]

/-- Each text has its tokens, if only none. -/
theorem length_startingIn (ts : List Token) (start : Nat) (es : List String) :
    (Token.startingIn ts start es).length = es.length := by
  induction es generalizing start with
  | nil => rfl
  | cons e es ih => rw [Token.startingIn, List.length_cons, ih, List.length_cons]

open Token in
/-- Between two texts there is a comma at most. -/
theorem commas_between {chars : List Char} (front rest : List Char) {ts : List Token}
    (h : Along chars ts) (es : List String) (hchars : chars = front ++ (between es ++ rest)) :
    (∀ t ∈ upTo (front.length + (between es).length) (onward front.length ts),
      t.kind = .symbol .comma) ∧
    (upTo (front.length + (between es).length) (onward front.length ts)).length ≤
      min 1 es.length := by
  cases es with
  | nil =>
    have hnone : upTo (front.length + (between []).length) (onward front.length ts) = [] := by
      refine List.eq_nil_iff_forall_not_mem.2 fun t ht => ?_
      obtain ⟨ht, hlt⟩ := mem_upTo.1 ht
      have hle := (mem_onward.1 ht).2
      simp only [between, if_pos, List.length_nil] at hlt
      omega
    rw [hnone]
    exact ⟨nofun, Nat.zero_le _⟩
  | cons e es =>
    have hcomma : ∀ t ∈ upTo (front.length + (between (e :: es)).length)
        (onward front.length ts), t.kind = .symbol .comma ∧ t.position.offset = front.length := by
      intro t ht
      obtain ⟨ht, hlt⟩ := mem_upTo.1 ht
      obtain ⟨ht, hle⟩ := mem_onward.1 ht
      have hwidth : (between (e :: es)).length = 2 := rfl
      have hplace : t.position.offset = front.length ∨ t.position.offset = front.length + 1 := by
        omega
      rcases hplace with hplace | hplace
      · have hchar : chars[t.position.offset]? = some ',' := by simp [hchars, hplace, between]
        exact ⟨(h.mayStart t ht ',' hchar).comma rfl, hplace⟩
      · have hchar : chars[t.position.offset]? = some ' ' := by simp [hchars, hplace, between]
        exact absurd rfl (h.mayStart t ht ' ' hchar).blank
    refine ⟨fun t ht => (hcomma t ht).1, ?_⟩
    -- Two commas would start at one place.
    have hpair := inOrder_upTo (inOrder_onward h.order front.length)
      (front.length + (between (e :: es)).length)
    rcases hss : upTo (front.length + (between (e :: es)).length) (onward front.length ts) with
      _ | ⟨s, _ | ⟨t, ss⟩⟩
    · exact Nat.zero_le _
    · simp
    · rw [hss] at hpair
      have hlt := (List.pairwise_cons.1 hpair).1 t List.mem_cons_self
      have hs := (hcomma s (by simp [hss])).2
      have ht := (hcomma t (by simp [hss])).2
      omega

open Token in
/-- **Texts with commas between them** have the tokens that start in each of them, with at most
one comma between, and then those that start behind them all. -/
theorem separated_startingIn {chars rest : List Char} (front : List Char) {ts : List Token}
    (h : Along chars ts) (hstart : ∀ t ∈ ts, front.length ≤ t.position.offset)
    (es : List String) (hchars : chars = front ++ (listed es ++ rest)) :
    ∃ n vs, Separated (startingIn ts front.length es) n vs ∧
      ts = vs ++ onward (front.length + (listed es).length) ts := by
  induction es generalizing front ts with
  | nil => exact ⟨0, [], .nil, (onward_eq_self (by simpa [listed] using hstart)).symm⟩
  | cons e es ih =>
    -- The text ends at `a`, and the next one starts at `b`.
    obtain ⟨a, ha⟩ : ∃ a, a = (front ++ e.toList).length := ⟨_, rfl⟩
    obtain ⟨b, hb⟩ : ∃ b, b = a + (between es).length := ⟨_, rfl⟩
    have hend : a = front.length + e.length := by simp [ha, String.length_toList]
    have hnext : b = ((front ++ e.toList) ++ between es).length := by
      rw [hb, ha, ← List.length_append]
    obtain ⟨hcomma, hle⟩ := commas_between (front ++ e.toList) (listed es ++ rest) h es
      (by simp [hchars, listed])
    obtain ⟨n, vs, hvs, hrest⟩ := ih ((front ++ e.toList) ++ between es)
      (h.onward b) (fun t ht => hnext ▸ (mem_onward.1 ht).2) (by simp [hchars, listed])
    rw [← ha, ← hb] at hcomma hle
    rw [← hnext] at hvs hrest
    rw [onward_onward (by omega)] at hrest
    have hbehind : startingIn ts (a + 2) es = startingIn (onward b ts) b es := by
      cases es with
      | nil => rfl
      | cons e' es => exact hb ▸ (startingIn_onward le_rfl _).symm
    have hall : front.length + (listed (e :: es)).length = b + (listed es).length := by
      simp [listed, hb, hend, String.length_toList, Nat.add_assoc]
    refine ⟨(upTo b (onward a ts)).length + n, upTo a ts ++ (upTo b (onward a ts) ++ vs), ?_, ?_⟩
    · rw [startingIn, onward_eq_self hstart, ← hend, hbehind]
      exact .cons hcomma (by rwa [length_startingIn]) hvs
    · calc ts
        _ = upTo a ts ++ onward a ts := (h.order.upTo_append_onward a).symm
        _ = upTo a ts ++ (upTo b (onward a ts) ++ onward b (onward a ts)) := by
          rw [InOrder.upTo_append_onward (inOrder_onward h.order a)]
        _ = upTo a ts ++ (upTo b (onward a ts) ++ (vs ++ onward (b + (listed es).length) ts)) := by
          rw [onward_onward (by omega), ← hrest]
        _ = _ := by rw [hall]; simp

open Token in
/-- Where the text ends with a parenthesis it closes, that is a token, unless nothing starts
there. -/
theorem onward_rightParen {chars : List Char} {us : List Token} {a : Nat} (h : Along chars us)
    (hlt : ∀ t ∈ us, t.position.offset ≤ a) (hchar : chars[a]? = some ')') :
    onward a us = [] ∨
      ∃ t, onward a us = [t] ∧ t.kind = .symbol .rightParen ∧ t.position.offset = a := by
  have hplace : ∀ t ∈ onward a us, t.kind = .symbol .rightParen ∧ t.position.offset = a := by
    intro t ht
    obtain ⟨ht, hle⟩ := mem_onward.1 ht
    have heq := Nat.le_antisymm (hlt t ht) hle
    exact ⟨(h.mayStart t ht ')' (heq ▸ hchar)).rightParen rfl, heq⟩
  have hpair := inOrder_onward h.order a
  rcases hall : onward a us with _ | ⟨s, _ | ⟨t, ts⟩⟩
  · exact .inl rfl
  · exact .inr ⟨s, rfl, hplace s (by simp [hall])⟩
  · rw [hall] at hpair
    have hlt := (List.pairwise_cons.1 hpair).1 t List.mem_cons_self
    have hs := (hplace s (by simp [hall])).2
    have ht := (hplace t (by simp [hall])).2
    omega

open Token in
/-- **Texts in front of a closing parenthesis.**  If the tokens match but for a parenthesis at the
end, and those that start in each text match, that parenthesis stands behind the texts. -/
theorem closed_startingIn {chars : List Char} (front : List Char) {us : List Token} {q : Position}
    (h : Along chars (us ++ [.eof q]))
    (hstart : ∀ t ∈ us ++ [.eof q], front.length ≤ t.position.offset)
    (es : List String) (hchars : chars = front ++ (listed es ++ [')']))
    (hq : q.offset = chars.length) (hclosed : Closed .rightParen us)
    (hparts : ∀ part ∈ startingIn (us ++ [.eof q]) front.length es, Matched part) :
    ∃ m vs t, us = vs ++ [t] ∧ t.kind = .symbol .rightParen ∧
      t.position.offset = front.length + (listed es).length ∧
      Separated (startingIn (us ++ [.eof q]) front.length es) m vs := by
  obtain ⟨a, ha⟩ : ∃ a, a = front.length + (listed es).length := ⟨_, rfl⟩
  have hwidth : chars.length = a + 1 := by
    rw [hchars, ha, List.length_append, List.length_append, List.length_singleton, Nat.add_assoc]
  obtain ⟨m, vs, hvs, hus⟩ := separated_startingIn front h hstart es hchars
  rw [← ha] at hus ⊢
  have hlast : onward a (us ++ [.eof q]) = onward a us ++ [.eof q] := by
    rw [onward, List.filter_append, List.filter_cons_of_pos, List.filter_nil]
    · rfl
    · simp only [Token.eof, hq, hwidth, decide_eq_true_eq]
      omega
  rw [hlast, ← List.append_assoc] at hus
  have hus := List.append_cancel_right hus
  have hlt : ∀ t ∈ us, t.position.offset ≤ a := by
    intro t ht
    have hend := (List.pairwise_append.1 h.order).2.2 t ht _ (List.mem_singleton_self _)
    rw [Token.eof, hq, hwidth] at hend
    exact Nat.le_of_lt_succ hend
  have hchar : chars[a]? = some ')' := by simp [hchars, ha]
  have hfirst : Along chars us := ⟨h.order.sublist (List.sublist_append_left us _),
    fun t ht => h.mayStart t (List.mem_append_left _ ht)⟩
  rcases onward_rightParen hfirst hlt hchar with hnone | ⟨t, ht, hk, hplace⟩
  · rw [hnone, List.append_nil] at hus
    exact absurd (hus ▸ hvs.matched hparts) (hclosed.not_matched rfl)
  · exact ⟨m, vs, t, hus.trans (by rw [ht]), hk, hplace, hvs⟩

end WrenAnalysis
