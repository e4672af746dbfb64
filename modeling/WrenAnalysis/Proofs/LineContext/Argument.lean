/-
# The argument at the cursor

The sweep counts the commas of an open argument list that stand in no parentheses
(`LineContext.ofTokens_list`).  A call that is read has one comma less than arguments outside of
all brackets, but square brackets and braces are none of the sweep's concern: while the call
is typed, the argument behind the last comma is found just if no argument has a comma that
only they enclose (`LineContext.ofText_argument`).
-/

import Mathlib.Algebra.Order.BigOperators.Group.List
import Mathlib.Algebra.Order.Group.Nat
import WrenAnalysis.LineContext
import WrenAnalysis.Proofs.Syntax.Line

namespace WrenAnalysis
namespace LineContext

/-! ### The sweep over brackets that match -/

/-- The sweep is still in the list of the cursor: of the parentheses right of it `depth` are to be
opened yet, and it has counted `n` commas. -/
structure Sweep.Inside (depth n : Nat) (s : Sweep) : Prop where
  depth_eq : s.depth = depth
  active : s.context.activeParameter = n
  inList : s.context.inParameterList = false
  target : s.context.callTarget = none
  beforeList : s.beforeList = false

namespace Sweep.Inside

variable {depth n : Nat} {s : Sweep} {o c t : Token} {close : Symbol}

/-- Inside the list no token names the call. -/
theorem target_eq (h : s.Inside depth n) (t : Token) : s.target t = none := by
  rw [Sweep.target, if_neg (by simp [h.beforeList]), h.target]

/-- A token that is no bracket leaves the sweep in the list, and a comma counts at depth zero. -/
theorem plain (h : s.Inside depth n) (ht : t.kind.isPlain = true) :
    (step t s).Inside depth ((if depth = 0 ∧ t.kind = .symbol .comma then 1 else 0) + n) := by
  have htarget := h.target_eq t
  obtain ⟨hdepth, hactive, hlist, -, -⟩ := h
  generalize hm : (if depth = 0 ∧ t.kind = .symbol .comma then 1 else 0) + n = m
  unfold step
  split
  · next hk => rw [hk] at ht; cases ht
  · next hk => rw [hk] at ht; cases ht
  · next hk =>
    by_cases h0 : depth = 0
    · rw [if_pos ⟨h0, hk⟩] at hm
      rw [if_pos (by simp [hdepth, h0, hlist])]
      exact ⟨hdepth, by simp only [hactive]; omega, hlist, htarget, rfl⟩
    · rw [if_neg (fun h => h0 h.1)] at hm
      rw [if_neg (by simp [hdepth, h0])]
      exact ⟨hdepth, by simp only [hactive]; omega, hlist, htarget, rfl⟩
  · next hk =>
    rw [if_neg (by simp [hk])] at hm
    exact ⟨hdepth, by simp only [hactive]; omega, hlist, htarget, rfl⟩
  · next hk =>
    rw [if_neg (by simp [hk])] at hm
    split <;> exact ⟨hdepth, by simp only [hactive]; omega, hlist, htarget, rfl⟩
  · next hcomma _ _ =>
    rw [if_neg (fun h => hcomma h.2)] at hm
    exact ⟨hdepth, by simp only [hactive]; omega, hlist, htarget, rfl⟩

/-- Left of a closing bracket one more parenthesis is to be opened, if it is one. -/
theorem closing (h : s.Inside depth n) (hclose : (Kind.symbol close).isClosing = true)
    (hc : c.kind = .symbol close) :
    (step c s).Inside (if close ∈ [Symbol.rightParen] then depth + 1 else depth) n := by
  have htarget := h.target_eq c
  obtain ⟨hdepth, hactive, hlist, -, -⟩ := h
  unfold step
  rw [hc]
  cases close with
  | rightParen => exact ⟨congrArg (· + 1) hdepth, hactive, hlist, htarget, rfl⟩
  | rightBracket | rightBrace => exact ⟨hdepth, hactive, hlist, htarget, rfl⟩
  | _ => cases hclose

/-- An opening bracket is one less to be opened, if it is a parenthesis. -/
theorem opening (h : s.Inside (if close ∈ [Symbol.rightParen] then depth + 1 else depth) n)
    (ho : o.kind.closer? = some close) : (step o s).Inside depth n := by
  have htarget := h.target_eq o
  obtain ⟨hdepth, hactive, hlist, -, -⟩ := h
  unfold Kind.closer? at ho
  unfold step
  split at ho
  · next hk =>
    cases ho
    rw [if_pos List.mem_cons_self] at hdepth
    rw [hk]
    simp only [hdepth, Nat.succ_pos, if_true, gt_iff_lt]
    exact ⟨rfl, hactive, hlist, htarget, rfl⟩
  · next hk =>
    cases ho
    rw [hk]
    exact ⟨hdepth, hactive, hlist, htarget, rfl⟩
  · next hk =>
    cases ho
    rw [hk]
    exact ⟨hdepth, hactive, hlist, htarget, rfl⟩
  · cases ho

end Sweep.Inside

/-- Over tokens whose brackets match, the sweep counts the commas that stand in no parentheses. -/
theorem inside_foldr {us : List Token} (h : Matched us) {depth n : Nat} {s : Sweep}
    (hs : s.Inside depth n) :
    (us.foldr Sweep.step s).Inside depth (commasOutside [.rightParen] depth us + n) := by
  induction h generalizing depth n s with
  | nil => simpa [commasOutside] using hs
  | plain ht _ ih =>
    rw [List.foldr_cons, commasOutside_plain isClosing_of_mem_rightParen ht, Nat.add_assoc]
    exact (ih hs).plain ht
  | @group o c close us vs ho hc hus _ ihu ihv =>
    have hclose := Kind.isClosing_of_closer? ho
    have hright := ihu ((ihv hs).closing hclose hc)
    rw [List.foldr_cons, List.foldr_append, List.foldr_cons,
      hus.commasOutside_group isClosing_of_mem_rightParen ho hc, Nat.add_assoc]
    exact hright.opening ho

/-- **In an argument list that is open the sweep counts the commas in no parentheses.** -/
theorem ofTokens_list {name o : Token} {us : List Token} (hname : name.kind = .name)
    (ho : o.kind = .symbol .leftParen) (h : Matched us) :
    (ofTokens (name :: o :: us)).inParameterList = true ∧
      (ofTokens (name :: o :: us)).callTarget = some name.text ∧
      (ofTokens (name :: o :: us)).activeParameter = looseCommas us := by
  have hempty : ({} : Sweep).Inside 0 0 := ⟨rfl, rfl, rfl, rfl, rfl⟩
  have hs := inside_foldr h hempty
  unfold ofTokens
  rw [List.foldr_cons, List.foldr_cons]
  generalize us.foldr Sweep.step {} = s at hs
  -- The parenthesis opens the list, and the name is directly before it.
  have hopen : (Sweep.step o s).context.inParameterList = true ∧
      (Sweep.step o s).beforeList = true ∧
      (Sweep.step o s).context.activeParameter = looseCommas us := by
    unfold Sweep.step
    simp [ho, hs.depth_eq, hs.inList, hs.active, looseCommas]
  generalize Sweep.step o s = s' at hopen
  obtain ⟨hlist, hbefore, hactive⟩ := hopen
  unfold Sweep.step
  simp only [hname]
  split <;> exact ⟨hlist, by simp [Sweep.target, hbefore, hname], hactive⟩

/-! ### The end of a line -/

/-- From the end of a line all its tokens are seen. -/
theorem filter_isVisible {text : String} {us : List Token} {p : Position}
    (hline : '\n' ∉ text.toList)
    (h : Token.tokenizePrefix text = us ++ [.eof p]) (hus : ∀ t ∈ us, t.kind ≠ .eof) :
    (Token.tokenizePrefix text).filter (isVisible text.length) = us := by
  have hstreams := Token.streams_tokenizePrefix text
  rw [h, List.filter_append, List.filter_eq_self.2, List.filter_eq_nil_iff.2, List.append_nil]
  · exact List.forall_mem_singleton.2 (by simp [isVisible, Token.eof])
  · intro t ht
    have hmem : t ∈ Token.tokenizePrefix text := h ▸ List.mem_append_left _ ht
    obtain ⟨front, rest, hcs, hposition⟩ := hstreams.placed t hmem
    have hfront : '\n' ∉ front := fun hn => hline (hcs ▸ List.mem_append_left _ hn)
    have hcolumn : t.position.column ≤ text.length := by
      rw [hposition, Position.after_column _ hfront, ← String.length_toList, hcs,
        List.length_append]
      simp [Position.start]
    simp [isVisible, hcolumn, hus t ht, hstreams.ne_line hline t hmem]

/-! ### Calls that are being typed -/

section Typed

open Token (startingIn tokenizePrefix)
open Lexer (Streams)

variable {n : String} {es : List String}

/-- The call of a name while it is typed, where the next argument is to come. -/
def typedText (n : String) (es : List String) : String :=
  n ++ "(" ++ String.join (es.map (· ++ ", "))

/-- What is typed is the name, the parenthesis, the arguments and what separates them. -/
theorem toList_typedText (n : String) (es : List String) :
    (typedText n es).toList = n.toList ++ '(' :: (listed es ++ between es) := by
  rw [typedText, String.toList_append, String.toList_append, toList_join]
  simp

/-- Between the arguments and the cursor stands a comma at most. -/
theorem streams_between (p : Position) (es : List String) :
    ∃ cs q, Streams p (between es) (cs ++ [.eof q]) none ∧
      (∀ t ∈ cs, t.kind = .symbol .comma) ∧ cs.length = min 1 es.length := by
  cases es with
  | nil => exact ⟨[], p, .nil p, nofun, rfl⟩
  | cons e es =>
    have hgap : Lexeme.triviaEnd ((p.next ',').offset = 0) [' '] = .ok 1 := rfl
    have hscan : Lexeme.scan [',', ' '] = .ok (some (.symbol .comma, 1)) := rfl
    have hend : Streams (p.after [',']) [' '] [.eof ((p.after [',']).after [' '])] none :=
      .eof hgap
    refine ⟨[⟨.symbol .comma, ",", p⟩], _, Streams.cons (u := [',']) hend ?_ hscan, by simp,
      by simp⟩
    exact Lexeme.triviaEnd_of_head (by decide)

/-- Behind the arguments nothing goes on with their last token. -/
theorem plain_between (es : List String) : Lexeme.Plain (between es) := by
  cases es with
  | nil => exact ⟨nofun, Lexeme.bare_nil⟩
  | cons e es =>
    exact Lexeme.plain_cons (by decide) (by decide)

/-- What is seen of a call while it is typed: the name, the parenthesis and tokens whose brackets
match, with a comma behind each argument and those in the arguments. -/
theorem ofText_typedText {name : Token} {args : List Expr}
    (hn : Lexeme.scan n.toList = .ok (some (.name, n.length)))
    (hline : ∀ e ∈ es, '\n' ∉ e.toList)
    (hparse : Module.parse (callText n es) = .ok ⟨[.expr (.call none name (some args) none)]⟩)
    (hargs : List.Forall₂ (fun a us => Derives (.expr a) us) args
      (startingIn (tokenizePrefix (callText n es)) (n.length + 1) es)) :
    ∃ us, ofText (typedText n es) (typedText n es).length = ofTokens (⟨.name, n, .start⟩ ::
        ⟨.symbol .leftParen, "(", Position.start.after n.toList⟩ :: us) ∧ Matched us ∧
      looseCommas us = es.length +
        ((startingIn (tokenizePrefix (callText n es)) (n.length + 1) es).map looseCommas).sum := by
  obtain ⟨vs, t, q, hstreams, hplace, hend, hvs, hmatched⟩ := parts_of_call hn hline hparse hargs
  generalize startingIn (tokenizePrefix (callText n es)) (n.length + 1) es = parts at *
  rw [← String.length_toList] at hn
  have hscans := Lexeme.scan_eq_ok_iff.1 hn
  have hoffset : (Position.start.after (n.toList ++ ['('])).offset = n.length + 1 := by
    simp [Position.after_offset, Position.start, String.length_toList]
  -- The closing parenthesis makes room for the comma in front of the next argument.
  obtain ⟨cs, q', hbetween, hcomma, hlength⟩ :=
    streams_between ((Position.start.after (n.toList ++ ['('])).after (listed es)) es
  have htyped := Streams.call hscans (hstreams.exchange (by omega) (by rw [hplace, hoffset])
    (Lexeme.plain_cons (by decide) (by decide)) (plain_between es)
    (fun hend => absurd (hend ')' rfl) (by decide)) hbetween)
  rw [← toList_typedText, String.ofList_toList] at htyped
  have htokens := ((Token.streams_tokenizePrefix (typedText n es)).unique htyped).1
  have hnoline : '\n' ∉ (typedText n es).toList := by
    simp [toList_typedText, hscans.notMem_newline, notMem_listed hline, notMem_between]
  have hcs : ∀ u ∈ cs, u.kind ≠ .eof := fun u hu => by simp [hcomma u hu]
  have hseen := @filter_isVisible _ (_ :: _ :: (vs ++ cs)) _ hnoline (by simpa using htokens)
    (by simpa [or_imp, forall_and] using ⟨hend, hcs⟩)
  have hcommas : looseCommas cs = cs.length :=
    Separated.commasOutside_commas isClosing_of_mem_rightParen hcomma
  refine ⟨vs ++ cs, congrArg ofTokens hseen,
    (hvs.matched hmatched).append (Separated.matched_commas hcomma), ?_⟩
  rw [looseCommas_append (hvs.matched hmatched), hvs.looseCommas_eq hmatched, hcommas, hlength]
  omega

/-- **The argument that is typed next.**  While the call of a name is typed whose arguments are
read as they are listed, its end is in the parameter list of that name, and the active parameter
is as far on as there are arguments and commas of theirs that stand in no parentheses.  So it
is the next one just if there are no such commas. -/
theorem ofText_argument {name : Token} {args : List Expr}
    (hn : Lexeme.scan n.toList = .ok (some (.name, n.length)))
    (hline : ∀ e ∈ es, '\n' ∉ e.toList)
    (hparse : Module.parse (callText n es) = .ok ⟨[.expr (.call none name (some args) none)]⟩)
    (hargs : List.Forall₂ (fun a us => Derives (.expr a) us) args
      (startingIn (tokenizePrefix (callText n es)) (n.length + 1) es)) :
    (ofText (typedText n es) (typedText n es).length).inParameterList = true ∧
      (ofText (typedText n es) (typedText n es).length).callTarget = some n ∧
      (ofText (typedText n es) (typedText n es).length).activeParameter = es.length +
        ((startingIn (tokenizePrefix (callText n es)) (n.length + 1) es).map looseCommas).sum ∧
      ((ofText (typedText n es) (typedText n es).length).activeParameter = es.length ↔
        ∀ us ∈ startingIn (tokenizePrefix (callText n es)) (n.length + 1) es,
          looseCommas us = 0) := by
  obtain ⟨us, hseen, hmatched, hloose⟩ := ofText_typedText hn hline hparse hargs
  obtain ⟨hlist, htarget, hactive⟩ := @ofTokens_list ⟨.name, n, .start⟩
    ⟨.symbol .leftParen, "(", Position.start.after n.toList⟩ us rfl rfl hmatched
  rw [hseen]
  refine ⟨hlist, htarget, hactive.trans hloose, ?_⟩
  rw [hactive, hloose, Nat.add_eq_left, List.sum_eq_zero_iff, List.forall_mem_map]

/-- The tokens of `[1, 2]` in `f([1, 2])`. -/
def listTokens : List Token :=
  [⟨.symbol .leftBracket, "[", ⟨1, 2, 2⟩⟩, ⟨.number, "1", ⟨1, 3, 3⟩⟩,
    ⟨.symbol .comma, ",", ⟨1, 4, 4⟩⟩, ⟨.number, "2", ⟨1, 6, 6⟩⟩,
    ⟨.symbol .rightBracket, "]", ⟨1, 7, 7⟩⟩]

/-- What is read is a call by a name with one argument, a list that has two of these tokens for
its numbers. -/
def isCallOfList (ts : List Token) : Except SyntaxError Module → Bool
  | .ok ⟨[.expr (.call none _ (some [.list b [.num x, .num y]]) none)]⟩ =>
    [some b, some x, some y] = [ts[0]?, ts[1]?, ts[3]?]
  | _ => false

/-- A list with two numbers is one argument of a call. -/
theorem isCallOfList_parse : isCallOfList listTokens (Module.parse "f([1, 2])") = true := by
  decide +kernel

/-- Where a second argument is to come, behind a list of two numbers, it is taken for the third. -/
theorem ofText_argument_of_list :
    (ofText "f([1, 2], " 10).callTarget = some "f" ∧
      (ofText "f([1, 2], " 10).activeParameter = 2 := by
  have htext : callText "f" ["[1, 2]"] = "f([1, 2])" := by
    rw [← String.toList_inj, toList_callText]
    decide +kernel
  have htyped : typedText "f" ["[1, 2]"] = "f([1, 2], " := by
    rw [← String.toList_inj, toList_typedText]
    decide +kernel
  have hparts : startingIn (tokenizePrefix "f([1, 2])") ("f".length + 1) ["[1, 2]"] =
      [listTokens] := by decide +kernel
  have hread := isCallOfList_parse
  unfold isCallOfList at hread
  split at hread
  · next name b x y h =>
    obtain ⟨rfl, rfl, rfl⟩ : b = _ ∧ x = _ ∧ y = _ := by simpa [listTokens] using hread
    have hlist : Derives (.expr (.list _ [.num _, .num _])) listTokens :=
      .list rfl (.argumentsMore lines_nil (.num rfl) lines_nil rfl
        (.argumentsLast lines_nil (.num rfl) lines_nil rfl))
    have hargument := @ofText_argument "f" ["[1, 2]"] _ _ (by decide +kernel) (by decide +kernel)
      (htext ▸ h) (by rw [htext, hparts]; exact .cons hlist .nil)
    rw [htext, htyped, hparts] at hargument
    obtain ⟨-, htarget, hactive, -⟩ := hargument
    exact ⟨htarget, hactive⟩
  · cases hread

/-- **A comma in square brackets is counted**, though it stands in an argument: of a call that is
read with one argument the next one is taken for the third. -/
theorem ofText_counts_list :
    (∃ name list, Module.parse "f([1, 2])" =
      .ok ⟨[.expr (.call none name (some [list]) none)]⟩) ∧
    (ofText "f([1, 2], " 10).inParameterList = true ∧
    (ofText "f([1, 2], " 10).activeParameter = 2 := by
  refine ⟨?_, by decide +kernel⟩
  have hread := isCallOfList_parse
  unfold isCallOfList at hread
  split at hread
  · next name b x y h => exact ⟨name, _, h⟩
  · cases hread

end Typed

end LineContext

end WrenAnalysis
