/-
# What a line context depends on

The tokens of the whole line are swept that start at the cursor or before it.  A text that
is cut off at the cursor has the same tokens but for the last one, and the sweep starts anew
at every token that is no parenthesis, comma or dot (`LineContext.sweep_eq_empty`).  So what
stands right of the cursor has a say in two places only, the brink of the line: a mark that
starts at the cursor is swept with the rest, and a dot directly left of the cursor counts
only if it is not the start of something longer, as in `a..b` or `1.5`.

`LineContext.ofText_eq_cut` tells the context from the text left of the cursor and the
brink, and `LineContext.ofText_depends` that nothing else matters.
-/

import WrenAnalysis.LineContext
import WrenAnalysis.Proofs.Token.Cutting

namespace WrenAnalysis
namespace LineContext

variable {column : Nat} {ts us : List Token}

/-- A dot directly left of the cursor. -/
def isDotBefore (column : Nat) (t : Token) : Bool :=
  t.kind = .symbol .dot ∧ t.position.column + 1 = column

/-- A mark that starts at the cursor, or a dot directly left of it. -/
def isBrink (column : Nat) (t : Token) : Bool :=
  (t.kind.isMark ∧ t.position.column = column) ∨ isDotBefore column t

/-- The tokens of a line that are at its brink. -/
def brink (text : String) (column : Nat) : List Token :=
  (Token.tokenizePrefix text).filter (isBrink column)

/-- A token that is swept and is no dot directly left of the cursor. -/
def isLeft (column : Nat) (t : Token) : Bool := isVisible column t ∧ !isDotBefore column t

/-- The text left of the cursor. -/
def leftOf (text : String) (column : Nat) : String := .ofList (text.toList.take column)

/-! ### The sweep -/

/-- The sweep over tokens, from right to left. -/
def sweep (ts : List Token) : Sweep := ts.foldr Sweep.step {}

/-- The sweep comes to the first token last. -/
theorem sweep_cons (t : Token) (ts : List Token) : sweep (t :: ts) = Sweep.step t (sweep ts) := rfl

/-- Nothing but a mark starts a sweep. -/
theorem step_unmarked {t : Token} (h : t.kind.isMark = false) : Sweep.step t {} = {} := by
  unfold Sweep.step
  split <;> simp_all [Sweep.target, Kind.isMark]

/-- Right of the first mark nothing counts. -/
theorem sweep_eq_empty (h : ∀ t ∈ ts, t.kind.isMark = false) : sweep ts = {} := by
  induction ts with
  | nil => rfl
  | cons t ts ih =>
    obtain ⟨ht, hts⟩ := List.forall_mem_cons.1 h
    rw [sweep_cons, ih hts, step_unmarked ht]

/-- Nothing but a mark is at the brink. -/
theorem isBrink_of_unmarked {t : Token} (h : t.kind.isMark = false) : isBrink column t = false := by
  rw [Bool.eq_false_iff]
  intro hb
  rcases of_decide_eq_true hb with ⟨hk, -⟩ | hdot
  · exact Bool.false_ne_true (h.symm.trans hk)
  · rw [(of_decide_eq_true hdot).1] at h
    cases h

/-- Quiet tokens leave nothing to sweep. -/
theorem sweep_left_eq_empty (h : ∀ t ∈ ts, t.Quiet column) :
    sweep (ts.filter (isLeft column)) = {} := by
  refine sweep_eq_empty fun t ht => ?_
  obtain ⟨hmem, hleft⟩ := List.mem_filter.1 ht
  rw [Bool.eq_false_iff]
  intro hk
  have hdot : isDotBefore column t = true := decide_eq_true (h t hmem hk)
  simp [isLeft, hdot] at hleft

end LineContext

/-! ### The cut -/

/-- Where the first token of a line starts, and where it ends. -/
theorem Position.column_first (p : Position) {gap u rest : List Char}
    (hline : '\n' ∉ gap ++ (u ++ rest)) :
    (p.after gap).column = p.column + gap.length ∧
      (p.after (gap ++ u)).column = p.column + (gap.length + u.length) ∧ '\n' ∉ rest := by
  simp only [List.mem_append, not_or] at hline
  obtain ⟨hgap, hu, hrest⟩ := hline
  refine ⟨p.after_column hgap, ?_, hrest⟩
  rw [p.after_column (by simp [hgap, hu]), List.length_append]

namespace Lexer

open LineContext
open Lexeme (triviaEnd scan)

variable {p : Position} {a b cs : List Char} {ts us : List Token} {e e' : Option LexicalError}
  {column : Nat}

/-- In one line, no token stands left of where its stream starts. -/
theorem Streams.column_le (h : Streams p cs ts e) (hline : '\n' ∉ cs) :
    ∀ t ∈ ts, p.column ≤ t.position.column := by
  intro t ht
  obtain ⟨front, rest, rfl, hposition⟩ := h.placed t ht
  rw [hposition, p.after_column fun hn => hline (List.mem_append_left _ hn)]
  exact Nat.le_add_right _ _

/-- The end of the text is never swept. -/
theorem filter_eof : [Token.eof p].filter (isLeft column) = [] := by
  simp [isLeft, isVisible, Token.eof]

/-- Right of the cursor nothing is swept. -/
theorem filter_eq_nil_of_lt (h : ∀ t ∈ ts, column < t.position.column) :
    ts.filter (isVisible column) = [] ∧ ts.filter (isBrink column) = [] := by
  simp only [List.filter_eq_nil_iff]
  refine ⟨fun t ht => ?_, fun t ht => ?_⟩
  · have := h t ht
    simp only [isVisible, decide_eq_true_eq]
    omega
  · have := h t ht
    simp only [isBrink, isDotBefore, decide_eq_true_eq]
    omega

/-- If the first token of a line reaches beyond the cursor, or starts there or behind it, the
sweep sees that token at most, and what is left of it says nothing. -/
theorem Streams.sweep_first {gap u rest : List Char} {k : Kind}
    (h' : Streams p a us e') (hline : '\n' ∉ gap ++ (u ++ rest)) (ha : a <+: gap ++ (u ++ rest))
    (hcolumn : p.column + a.length = column) (hshort : a.length < gap.length + u.length)
    (hgap : triviaEnd (p.offset = 0) (gap ++ (u ++ rest)) = .ok gap.length)
    (hscan : scan (u ++ rest) = .ok (some (k, u.length)))
    (hrest : Streams (p.after (gap ++ u)) rest ts e) :
    sweep ((⟨k, .ofList u, p.after gap⟩ :: ts).filter (isVisible column)) =
      sweep (us.filter (isLeft column) ++
        (⟨k, .ofList u, p.after gap⟩ :: ts).filter (isBrink column)) := by
  obtain ⟨htoken, hbehind, hrestline⟩ := p.column_first hline
  have hright : ∀ t ∈ ts, column < t.position.column := by
    intro t ht
    have hle := hrest.column_le hrestline t ht
    omega
  have hquiet := h'.quiet_cut (fun hn => hline (ha.mem hn)) ha hgap fun k' n hk' => by
    rw [hscan] at hk'
    cases hk'
    exact hshort
  rw [hcolumn] at hquiet
  obtain ⟨hvisible, hbrink⟩ := filter_eq_nil_of_lt hright
  cases hk : k.isMark with
  | false =>
    -- Swept or not, the token says nothing, and neither does what is left of it.
    rw [List.filter_cons_of_neg (a := ⟨k, _, _⟩) (p := isBrink column), hbrink, List.append_nil,
      sweep_left_eq_empty hquiet]
    · refine sweep_eq_empty fun t ht => ?_
      rw [List.filter_cons, hvisible] at ht
      split at ht
      · rw [List.mem_singleton.1 ht, hk]
      · cases ht
    · intro hb
      rw [isBrink_of_unmarked hk] at hb
      cases hb
  | true =>
    obtain ⟨c, -, rfl⟩ := Lexeme.eq_singleton_of_isMark hscan hk
    rw [List.length_singleton] at hshort
    rcases Nat.lt_or_ge a.length gap.length with hlt | hge
    · have hall : ∀ t ∈ (⟨k, .ofList [c], p.after gap⟩ :: ts : List Token),
          column < t.position.column := by
        refine List.forall_mem_cons.2 ⟨?_, hright⟩
        show column < (p.after gap).column
        omega
      obtain ⟨hvisible, hbrink⟩ := filter_eq_nil_of_lt hall
      rw [hvisible, hbrink, List.append_nil, sweep_left_eq_empty hquiet]
      rfl
    · -- The token starts at the cursor, and left of it there is only a gap.
      obtain rfl : a = gap :=
        (List.prefix_of_prefix_length_le ha (List.prefix_append gap _)
          (Nat.le_of_lt_succ hshort)).eq_of_length (Nat.le_antisymm (Nat.le_of_lt_succ hshort) hge)
      have hgap' := (Lexeme.triviaEnd_cutTo ha).eq_ok hgap (Nat.le_add_left _ _)
      obtain ⟨rfl, -⟩ := h'.unique (.eof hgap')
      have hkind : k ≠ .line ∧ k ≠ .eof := by
        constructor <;> rintro rfl <;> cases hk
      rw [filter_eof, List.filter_cons_of_pos (p := isVisible column),
        List.filter_cons_of_pos (p := isBrink column), hvisible, hbrink]
      · rfl
      · simp [isBrink, hk, htoken, hcolumn]
      · simp [isVisible, hkind, htoken, hcolumn]

/-- **The sweep of a line** comes to that of the line cut off at the cursor, with the dot
before the cut left out and the brink of the line behind it. -/
theorem Streams.sweep_cut (h : Streams p (a ++ b) ts e) (h' : Streams p a us e')
    (hline : '\n' ∉ a ++ b) (hcolumn : p.column + a.length = column) :
    sweep (ts.filter (isVisible column)) =
      sweep (us.filter (isLeft column) ++ ts.filter (isBrink column)) := by
  generalize hcs : a ++ b = cs at h hline
  have ha : a <+: cs := ⟨b, hcs⟩
  induction h generalizing a us e' with
  | @eof p gap hgap =>
    have hplain := h'.unmarked_of_cutShort ((Lexeme.triviaEnd_cutTo ha).cutShort fun m hm => by
      rw [← Except.ok.inj (hgap.symm.trans hm), Nat.zero_add]
      exact ha.length_le)
    rw [List.filter_cons_of_neg (by simp [isVisible, Token.eof]),
      List.filter_cons_of_neg (by simp [isBrink, isDotBefore, Token.eof, Kind.isMark]),
      List.filter_nil, List.filter_nil, List.append_nil,
      sweep_left_eq_empty fun t ht => Token.quiet_of_unmarked (hplain t ht)]
    rfl
  | @token p gap u rest k ts e hgap hscan hrest ih =>
    rcases Nat.lt_or_ge a.length (gap.length + u.length) with hshort | hlong
    · exact h'.sweep_first hline ha hcolumn hshort hgap hscan hrest
    · -- The first token is that of both texts.
      obtain ⟨a', rfl⟩ : gap ++ u <+: a := by
        refine List.prefix_of_prefix_length_le ⟨rest, List.append_assoc ..⟩ ha ?_
        rwa [List.length_append]
      obtain rfl : a' ++ b = rest := by simpa using hcs
      rw [List.append_assoc] at h' ha
      have hgap' := (Lexeme.triviaEnd_cutTo ha).eq_ok hgap (by simp)
      have hshares := Lexeme.shares_append u (Lexeme.lookahead_cut (List.prefix_append a' b))
      have hscan' := Lexeme.scan_eq_ok_iff.2 ((Lexeme.scan_eq_ok_iff.1 hscan).shares hshares)
      obtain ⟨us, rfl, hus⟩ := h'.head hgap' hscan'
      obtain ⟨htoken, hbehind, hrestline⟩ := p.column_first hline
      have hu := (Lexeme.scan_bounds hscan).1
      simp only [List.length_append] at hcolumn
      have htail := ih hus (by omega) rfl hrestline (List.prefix_append a' b)
      by_cases hdot : isDotBefore column ⟨k, .ofList u, p.after gap⟩ = true
      · -- The cursor is directly behind it, so it is at the brink.
        obtain ⟨rfl, hat : (p.after gap).column + 1 = column⟩ := of_decide_eq_true hdot
        obtain rfl : a' = [] := List.eq_nil_of_length_eq_zero (by omega)
        obtain ⟨rfl, -⟩ := hus.unique (.nil _)
        rw [filter_eof, List.nil_append] at htail
        rw [List.filter_cons_of_pos, List.filter_cons_of_neg (p := isLeft column), filter_eof,
          List.filter_cons_of_pos (p := isBrink column), List.nil_append, sweep_cons, sweep_cons,
          htail]
        · simp [isBrink, hdot]
        · simp [isLeft, hdot]
        · simp [isVisible, ← hat]
      · have hbrink : ¬ isBrink column ⟨k, .ofList u, p.after gap⟩ = true := by
          intro hb
          rcases of_decide_eq_true hb with ⟨-, hat⟩ | hdot'
          · exact absurd (htoken.symm.trans hat) (by omega)
          · exact hdot hdot'
        have hleft : isLeft column ⟨k, .ofList u, p.after gap⟩ =
            isVisible column ⟨k, .ofList u, p.after gap⟩ := by
          simp [isLeft, hdot]
        rw [List.filter_cons_of_neg hbrink, List.filter_cons, List.filter_cons, hleft]
        split
        · rw [List.cons_append, sweep_cons, sweep_cons, htail]
        · exact htail
  | @openComment p cs f hf =>
    have hplain := h'.unmarked_of_cutShort ((Lexeme.triviaEnd_cutTo ha).cutShort fun m hm => by
      rw [hf] at hm
      cases hm)
    rw [List.filter_nil, List.filter_nil, List.append_nil,
      sweep_left_eq_empty fun t ht => Token.quiet_of_unmarked (hplain t ht)]
    rfl
  | @noToken p gap cs f hgap hscan =>
    have hquiet := h'.quiet_cut (fun hn => hline (ha.mem hn)) ha hgap fun k n hk => by
      rw [hscan] at hk
      cases hk
    rw [hcolumn] at hquiet
    rw [List.filter_nil, List.filter_nil, List.append_nil, sweep_left_eq_empty hquiet]
    rfl

end Lexer

/-! ### The context -/

namespace LineContext

variable {text : String} {column : Nat}

/-- The text left of the cursor is as many characters as its column says. -/
theorem toList_leftOf : (leftOf text column).toList = text.toList.take column :=
  String.toList_ofList

/-- Left of the cursor there is nothing more to cut off. -/
theorem leftOf_leftOf : leftOf (leftOf text column) column = leftOf text column := by
  rw [leftOf, toList_leftOf, List.take_take, Nat.min_self]
  rfl

/-- A cursor in the text has as many characters left of it as its column says. -/
theorem length_leftOf (h : column ≤ text.length) : (leftOf text column).length = column := by
  rw [← String.length_toList, toList_leftOf, List.length_take_of_le]
  rwa [String.length_toList]

/-- **The context comes from the text left of the cursor and the brink.** -/
theorem ofText_eq_cut (hline : '\n' ∉ text.toList) (hcolumn : column ≤ text.length) :
    ofText text column = ofTokens
      ((Token.tokenizePrefix (leftOf text column)).filter (isLeft column) ++ brink text column) := by
  have hwhole := Token.streams_tokenizePrefix text
  have hleft := Token.streams_tokenizePrefix (leftOf text column)
  rw [← List.take_append_drop column text.toList] at hwhole hline
  rw [toList_leftOf] at hleft
  rw [← String.length_toList] at hcolumn
  refine congrArg Sweep.context (hwhole.sweep_cut hleft hline ?_)
  rw [List.length_take_of_le hcolumn]
  exact Nat.zero_add column

/-- The brink is empty if no mark stands right of the cursor and no dot left of it. -/
theorem brink_eq_nil (hline : '\n' ∉ text.toList)
    (hright : ∀ c ∈ text.toList[column]?, c ∉ ['(', ')', ',', '.'])
    (hleft : '.' ∉ (leftOf text column).toList.getLast?) : brink text column = [] := by
  have hstreams := Token.streams_tokenizePrefix text
  refine List.filter_eq_nil_iff.2 fun t ht hbrink => ?_
  obtain ⟨front, rest, hcs, hposition⟩ := hstreams.placed t ht
  have hat : t.position.column = front.length := by
    rw [hposition, Position.after_column, show Position.start.column = 0 from rfl, Nat.zero_add]
    exact fun hn => hline (hcs ▸ List.mem_append_left _ hn)
  have hspelled := hstreams.spelled t ht
  rcases of_decide_eq_true hbrink with ⟨hk, rfl⟩ | hdot
  · obtain ⟨c, hc, hu⟩ := hspelled.text_of_isMark hk
    refine hright c ?_ hc
    simp [hcs, hu, hat]
  · obtain ⟨hk, rfl⟩ := of_decide_eq_true hdot
    refine hleft ?_
    rw [toList_leftOf, hcs, hspelled.text_eq hk, hat, List.take_length_add_append]
    simp [Symbol.spelling]

/-- **What a line context depends on.**  Of two lines that agree left of the cursor and at
the brink the contexts are the same.  So a line cut off at the cursor has the same context
if the cut leaves the brink as it is, which it does if neither a mark stands right of the
cursor nor a dot left of it. -/
theorem ofText_depends (hline : '\n' ∉ text.toList) (hcolumn : column ≤ text.length) :
    (ofText text column = ofTokens ((Token.tokenizePrefix (leftOf text column)).filter
      (isLeft column) ++ brink text column)) ∧
    (∀ other : String, '\n' ∉ other.toList → column ≤ other.length →
      leftOf other column = leftOf text column → brink other column = brink text column →
      ofText other column = ofText text column) ∧
    (brink (leftOf text column) column = brink text column →
      ofText (leftOf text column) column = ofText text column) ∧
    ((∀ c ∈ text.toList[column]?, c ∉ ['(', ')', ',', '.']) →
      '.' ∉ (leftOf text column).toList.getLast? →
      ofText (leftOf text column) column = ofText text column) := by
  have hagree : ∀ other : String, '\n' ∉ other.toList → column ≤ other.length →
      leftOf other column = leftOf text column → brink other column = brink text column →
      ofText other column = ofText text column := by
    intro other hline' hcolumn' hleft hbrink
    rw [ofText_eq_cut hline' hcolumn', ofText_eq_cut hline hcolumn, hleft, hbrink]
  have hcutline : '\n' ∉ (leftOf text column).toList := by
    rw [toList_leftOf]
    exact fun hn => hline (List.mem_of_mem_take hn)
  have hcut := hagree _ hcutline (length_leftOf hcolumn).ge leftOf_leftOf
  refine ⟨ofText_eq_cut hline hcolumn, hagree, hcut, fun hright hleft => hcut ?_⟩
  have hend : (leftOf text column).toList[column]? = none := by
    rw [List.getElem?_eq_none_iff, String.length_toList, length_leftOf hcolumn]
  rw [brink_eq_nil hline hright hleft, brink_eq_nil hcutline]
  · rw [hend]
    exact nofun
  · rwa [leftOf_leftOf]

/-- Behind `f(a, b.` it is all one whether `c(` follows or `d)`. -/
theorem ofText_depends_at_dot :
    ofText "f(a, b.d)" 7 = ofText "f(a, b.c(" 7 ∧ ofText "f(a, b." 7 = ofText "f(a, b.c(" 7 := by
  obtain ⟨-, hagree, hcut, -⟩ :=
    @ofText_depends "f(a, b.c(" 7 (by decide +kernel) (by decide +kernel)
  exact ⟨hagree "f(a, b.d)" (by decide +kernel) (by decide +kernel) (by decide +kernel)
    (by decide +kernel), hcut (by decide +kernel)⟩

/-- **What is right of the cursor has a say.**  A parenthesis there closes the list, a comma
is counted, and a second dot takes away the first. -/
theorem ofText_reads_ahead :
    (leftOf "f()" 2 = "f(" ∧ (ofText "f(" 2).inParameterList = true ∧
      (ofText "f()" 2).inParameterList = false) ∧
    (leftOf "f(,)" 2 = "f(" ∧ (ofText "f(" 2).activeParameter = 0 ∧
      (ofText "f(,)" 2).activeParameter = 1) ∧
    (leftOf "a..b" 2 = "a." ∧ (ofText "a." 2).afterAnyDot = true ∧
      (ofText "a..b" 2).afterAnyDot = false) := by
  decide +kernel

end LineContext
end WrenAnalysis
