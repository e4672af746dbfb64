/-
# How high trees are

The levels of the grammar bound how many parts a path down a tree can go over, and nothing
bounds the links between them: the operands of one operator after the other and the calls
behind a receiver are read in a loop, and each round puts a node around all that was there.
So trees are as high as their chains let them be (`Module.height_of_chains`), and no bound
holds for all texts (`Module.no_height_bound`).
-/

import WrenAnalysis.Proofs.Syntax.Fitting
import WrenAnalysis.Proofs.Token.Stream

namespace WrenAnalysis

namespace Node

/-- No path down from the node has more than so many nodes. -/
inductive HeightAtMost : Nat → Node → Prop
  | mk {n : Nat} {x : Node} : (∀ y ∈ x.children, HeightAtMost n y) → HeightAtMost (n + 1) x

/-- No more than so many links follow one behind the other. -/
inductive ChainAtMost : Nat → Node → Prop
  | last {n : Nat} {x : Node} : x.link = none → ChainAtMost n x
  | more {n : Nat} {x y : Node} : x.link = some y → ChainAtMost n y → ChainAtMost (n + 1) x

variable {n more : Nat} {x y : Node}

/-- A height may be overstated. -/
theorem HeightAtMost.mono (h : HeightAtMost n x) (hle : n ≤ more) : HeightAtMost more x := by
  induction h generalizing more with
  | mk _ ih =>
    obtain ⟨more, rfl⟩ := Nat.exists_eq_add_of_lt hle
    exact .mk fun y hy => ih y hy (by omega)

/-- What a node has below it is no higher. -/
theorem HeightAtMost.of_has (h : HeightAtMost n x) (hy : x.Has y) : HeightAtMost n y := by
  induction hy generalizing n with
  | self => exact h
  | child hchild _ ih =>
    cases h with
    | mk hchildren => exact ih ((hchildren _ hchild).mono (Nat.le_succ _))

/-- A chain of links is a path down. -/
theorem HeightAtMost.chain (h : HeightAtMost n x) : ChainAtMost n x := by
  induction h with
  | @mk n x _ ih =>
    cases hlink : x.link with
    | none => exact .last hlink
    | some y => exact .more hlink (ih y (List.mem_append_left _ (Option.mem_toList.2 hlink)))

end Node

open Node in
/-- On a path down from a node there is a chain of links on each level. -/
theorem Fits.height {links levels : Nat} {x : Node} (h : Fits levels x)
    (hchains : ∀ y, x.Has y → y.ChainAtMost links) {n : Nat} (hn : x.ChainAtMost n) :
    ∃ below, levels = below + 1 ∧ x.HeightAtMost (below * (links + 1) + n + 1) := by
  induction h generalizing n with
  | @mk levels x _ _ _ ihlink ihparts =>
    refine ⟨levels, rfl, .mk fun y hy => ?_⟩
    have hchild : ∀ z, y.Has z → z.ChainAtMost links := fun z hz => hchains z (.child hy hz)
    rcases List.mem_append.1 hy with hlink | hpart
    · have hlink : x.link = some y := Option.mem_toList.1 hlink
      cases hn with
      | last hnone => exact nomatch hnone.symm.trans hlink
      | more hmore hn =>
        cases hmore.symm.trans hlink
        obtain ⟨below, hbelow, hheight⟩ := ihlink y hlink hchild hn
        cases hbelow
        exact hheight.mono (by omega)
    · obtain ⟨below, rfl, hheight⟩ := ihparts y hpart hchild (hchild y .self)
      refine hheight.mono ?_
      rw [Nat.succ_mul]
      omega

namespace Module

/-- No path down the module has more than so many nodes. -/
def HeightAtMost (m : Module) (n : Nat) : Prop := ∀ s ∈ m.statements, (Node.stmt s).HeightAtMost n

/-- No chain of binary operators, calls and subscripts in the module has more than so many
links. -/
def ChainsAtMost (m : Module) (links : Nat) : Prop := ∀ x, m.Has x → x.ChainAtMost links

/-- **The levels bound the tree but for its chains.**  A module that is read from a text is no
higher than four levels for each that may be nested, each with a chain as long as the longest
one; and it is at least as high as that. -/
theorem height_of_chains {text : String} {m : Module} (h : parse text = .ok m) (n : Nat) :
    (m.ChainsAtMost n → m.HeightAtMost (4 * Grammar.maxNesting * (n + 1))) ∧
      (m.HeightAtMost n → m.ChainsAtMost n) := by
  constructor
  · intro hchains s hs
    obtain ⟨ts, -, hm⟩ := parse_eq_ok_iff.1 h
    have hstmt : (Node.stmt s).ChainAtMost 0 := .last rfl
    obtain ⟨below, hlevels, hheight⟩ :=
      (fits_ofTokens hm s hs).height (fun y hy => hchains y ⟨s, hs, hy⟩) hstmt
    refine hheight.mono ?_
    rw [hlevels, Nat.succ_mul]
    omega
  · rintro hheight x ⟨s, hs, hx⟩
    exact ((hheight s hs).of_has hx).chain

/-- What is read is a method called on a name. -/
def isCallOnName : Except SyntaxError Module → Bool
  | .ok ⟨[.expr (.call (some (.call none _ none none)) _ none none)]⟩ => true
  | _ => false

/-- A method called on a name: one link. -/
theorem height_of_chains_of_call :
    ∃ m, parse "a.b" = .ok m ∧ m.ChainsAtMost 1 ∧ m.HeightAtMost 512 := by
  have hread : isCallOnName (parse "a.b") = true := by decide +kernel
  unfold isCallOnName at hread
  split at hread
  · next a b h =>
    refine ⟨_, h, ?chains, (height_of_chains h 1).1 ?chains⟩
    rintro x ⟨s, hs, hx⟩
    obtain rfl := List.mem_singleton.1 hs
    cases hx with
    | self => exact .last rfl
    | child hy hx =>
      obtain rfl := List.mem_singleton.1 hy
      cases hx with
      | self => exact .more rfl (.last rfl)
      | child hy hx =>
        obtain rfl := List.mem_singleton.1 hy
        cases hx with
        | self => exact .last rfl
        | child hy => cases hy
  · cases hread

end Module

/-! ### Calls without end -/

open Lexer (Streams)
open WrenAnalysis.Parser

/-- The characters of so many calls of `a`, one behind the other. -/
def callChars : Nat → List Char
  | 0 => []
  | n + 1 => '.' :: 'a' :: callChars n

/-- The tokens of so many calls of `a`, up to the end of the text. -/
inductive CallTokens : Nat → List Token → Prop
  | last {p : Position} : CallTokens 0 [.eof p]
  | more {n : Nat} {p q : Position} {ts : List Token} : CallTokens n ts →
      CallTokens (n + 1) (⟨.symbol .dot, ".", p⟩ :: ⟨.name, "a", q⟩ :: ts)

/-- No blanks or comments stand in front of a character of a call. -/
theorem triviaEnd_callChar (atStart : Bool) {c : Char} (hc : c ∈ ['.', 'a']) (cs : List Char) :
    Lexeme.triviaEnd atStart (c :: cs) = .ok 0 := by
  simp only [List.mem_cons, List.not_mem_nil, or_false] at hc
  rcases hc with rfl | rfl
  · rfl
  · rfl

/-- A name in front of calls. -/
theorem scan_name_callChars (n : Nat) :
    Lexeme.scan ('a' :: callChars n) = .ok (some (.name, 1)) := by
  cases n <;> rfl

/-- A name in front of a chain of calls is its first token. -/
theorem streams_name_callChars {n : Nat} {p : Position} {ts : List Token}
    (h : Streams (p.after ['a']) (callChars n) ts none) :
    Streams p ('a' :: callChars n) (⟨.name, "a", p⟩ :: ts) none :=
  @Streams.token p [] ['a'] (callChars n) .name ts none (triviaEnd_callChar _ (by simp) _)
    (scan_name_callChars n) h

/-- A chain of calls is made of dots and names. -/
theorem streams_callChars (n : Nat) (p : Position) :
    ∃ ts, Streams p (callChars n) ts none ∧ CallTokens n ts := by
  induction n generalizing p with
  | zero => exact ⟨_, @Streams.eof p [] rfl, .last⟩
  | succ n ih =>
    obtain ⟨ts, hts, hcalls⟩ := ih ((p.after ['.']).after ['a'])
    have hdot := @Streams.token p [] ['.'] ('a' :: callChars n) (.symbol .dot) _ none
      (triviaEnd_callChar _ (by simp) _) rfl (streams_name_callChars hts)
    exact ⟨_, hdot, .more hcalls⟩

/-- So many calls on `e`. -/
inductive Called (e : Expr) : Nat → Expr → Prop
  | none : Called e 0 e
  | more {n : Nat} {name : Token} {e' : Expr} : Called e n e' →
      Called e (n + 1) (.call (some e') name none none)

/-- An expression that is called again and again is higher than the number of its calls. -/
theorem Called.height {e e' : Expr} {n k : Nat} (h : Called e n e')
    (hheight : (Node.expr e').HeightAtMost k) : n < k := by
  induction h generalizing k with
  | none =>
    cases hheight
    exact Nat.succ_pos _
  | more _ ih =>
    cases hheight with
    | mk hchildren => exact Nat.succ_lt_succ (ih (hchildren _ List.mem_cons_self))

namespace Grammar

/-- One round of what stands behind a primary. -/
def postfixRound (inner : Nested) (e : Expr) : Parser (Round Expr Expr) := do
  match ← kind with
  | .symbol .dot =>
    let _ ← take
    skipLines
    let name ← name .calledName
    let (arguments, block) ← callTail inner
    return .again (.call (some e) name arguments block)
  | .symbol .leftBracket =>
    let bracket ← take
    let arguments ← argumentsUntil inner .rightBracket .subscriptClose
    return .again (.subscript e bracket arguments)
  | .line => if ← skipLinesBefore (.symbol .dot) then return .again e else return .done e
  | _ => return .done e

/-- Calls and subscripts go round by round. -/
theorem postfixed_eq (inner : Nested) :
    postfixed inner = primary inner >>= iterate (postfixRound inner) := rfl

variable {n : Nat} {ts : List Token}

/-- A dot and a name are one round. -/
theorem postfixRound_call (inner : Nested) (h : CallTokens n ts) (stop : Token) (e : Expr)
    (p q : Position) :
    postfixRound inner e ⟨⟨.symbol .dot, ".", p⟩ :: ⟨.name, "a", q⟩ :: ts, stop⟩ =
      .ok (.again (.call (some e) ⟨.name, "a", q⟩ none none), ⟨ts, stop⟩) := by
  cases h <;> rfl

/-- The loop behind a primary takes calls as long as there are any. -/
theorem iterate_postfixRound_calls (inner : Nested) (h : CallTokens n ts) (stop : Token)
    (e : Expr) {k : Nat} {e' : Expr} (he : Called e k e') :
    ∃ e'' p, iterate (postfixRound inner) e' ⟨ts, stop⟩ = .ok (e'', ⟨[.eof p], stop⟩) ∧
      Called e (k + n) e'' := by
  induction h generalizing k e' with
  | @last p => exact ⟨e', p, iterate_of_done rfl, he⟩
  | @more n p q ts hcalls ih =>
    have hround := postfixRound_call inner hcalls stop e' p q
    obtain ⟨e'', p, hiter, hcalled⟩ := ih he.more
    rw [iterate_of_again hround (by simp only [List.length_cons]; omega)]
    exact ⟨e'', p, hiter, by rwa [Nat.add_right_comm, Nat.add_assoc] at hcalled⟩

/-- A name that calls stand behind. -/
theorem primary_calls (inner : Nested) (h : CallTokens n ts) (stop : Token) {a : Token}
    (ha : a.kind = .name) (hclass : a.nameClass = .plain) :
    primary inner ⟨a :: ts, stop⟩ = .ok (.call none a none none, ⟨ts, stop⟩) := by
  have hkind : kind ⟨a :: ts, stop⟩ = .ok (.name, ⟨a :: ts, stop⟩) := by
    rw [kind, Cursor.current, List.headD_cons, ha]
  have htake : take ⟨a :: ts, stop⟩ = .ok (a, ⟨ts, stop⟩) := by
    simp [take, Cursor.advance, Cursor.atEnd, Cursor.current, ha]
  rw [primary, bind_of_ok hkind]
  show named inner _ = _
  rw [named, bind_of_ok htake, hclass]
  cases h <;> rfl

/-- A name and the calls behind it are read as one statement, with two levels of nesting. -/
theorem definition_calls (h : CallTokens n ts) (stop : Token) {a : Token} (ha : a.kind = .name)
    (hclass : a.nameClass = .plain) (depth : Nat) :
    ∃ e p, (Nested.within (depth + 2)).definition ⟨a :: ts, stop⟩ =
        .ok (.expr e, ⟨[.eof p], stop⟩) ∧ Called (.call none a none none) n e := by
  have hprimary := primary_calls (.within depth) h stop ha hclass
  obtain ⟨e, p, hiter, hcalled⟩ := iterate_postfixRound_calls (.within depth) h stop _ .none
  have hkind : kind ⟨a :: ts, stop⟩ = .ok (.name, ⟨a :: ts, stop⟩) := by
    rw [kind, Cursor.current, List.headD_cons, ha]
  have hunary : unary (.within depth) ⟨a :: ts, stop⟩ = .ok (e, ⟨[.eof p], stop⟩) := by
    rw [unary, bind_of_ok hkind]
    show postfixed _ _ = _
    rw [postfixed_eq, bind_of_ok hprimary, hiter]
  have hbinary : binary (.within depth) 1 ⟨a :: ts, stop⟩ = .ok (e, ⟨[.eof p], stop⟩) := by
    rw [binary, bind_of_ok hunary]
    exact iterate_of_done rfl
  have hconditional : conditional (.within depth) ⟨a :: ts, stop⟩ = .ok (e, ⟨[.eof p], stop⟩) := by
    rw [conditional, bind_of_ok hbinary]
    rfl
  have hassignment : assignment (.within depth) ⟨a :: ts, stop⟩ = .ok (e, ⟨[.eof p], stop⟩) := by
    rw [assignment, bind_of_ok hconditional]
    rfl
  refine ⟨e, p, ?_, by simpa using hcalled⟩
  show definition (.within (depth + 1)) _ = _
  rw [definition, bind_of_ok hkind]
  show statement (.within (depth + 1)) _ = _
  rw [statement, bind_of_ok hkind]
  show (assignment (.within depth) >>= fun e => pure (Stmt.expr e)) _ = _
  rw [bind_of_ok hassignment]
  rfl

end Grammar

namespace Module

/-- So many calls of `a` are read as a tree that is higher than their number. -/
theorem parse_calls (n : Nat) :
    ∃ m, parse (.ofList ('a' :: callChars n)) = .ok m ∧ ¬ m.HeightAtMost n := by
  obtain ⟨ts, hts, hcalls⟩ := streams_callChars n (Position.start.after ['a'])
  have htokens : Token.tokenize (.ofList ('a' :: callChars n)) =
      .ok (⟨.name, "a", .start⟩ :: ts) := by
    rw [Token.tokenize_eq_ok_iff, String.toList_ofList]
    exact streams_name_callChars hts
  have hclass : (Token.mk .name "a" .start).nameClass = .plain := by decide +kernel
  obtain ⟨e, p, hdefinition, hcalled⟩ := Grammar.definition_calls hcalls
    (Cursor.stopOf (⟨.name, "a", .start⟩ :: ts)) rfl hclass 62
  have hlength : 0 < ts.length := by cases hcalls <;> exact Nat.succ_pos _
  have hrounds : Grammar.Rounds (.within Grammar.maxNesting)
      (Cursor.ofTokens (⟨.name, "a", .start⟩ :: ts)) [.expr e] :=
    .definition rfl (by simp [Cursor.current, Cursor.ofTokens]) hdefinition
      (by simp [Cursor.current, Token.eof]) rfl (Nat.succ_lt_succ hlength) (.done rfl)
  refine ⟨_, parse_eq_ok_iff.2 ⟨_, htokens, ofTokens_eq_ok_iff.2 hrounds⟩, fun hheight => ?_⟩
  cases hheight _ List.mem_cons_self with
  | mk hchildren => exact absurd (hcalled.height (hchildren _ List.mem_cons_self)) (by omega)

/-- No bound on the height of trees holds for all texts. -/
theorem no_height_bound : ¬ ∃ bound, ∀ text m, parse text = .ok m → m.HeightAtMost bound := by
  rintro ⟨bound, hbound⟩
  obtain ⟨m, hm, hheight⟩ := parse_calls bound
  exact hheight (hbound _ m hm)

end Module
end WrenAnalysis
