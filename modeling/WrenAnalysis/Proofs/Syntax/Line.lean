/-
# A call in one line

The tokens of a line that is read as the call of a name are the name, a parenthesis and the
arguments up to the closing one (`tokens_of_call`).  If each argument is written as one of the
texts between the parentheses, what is left of the tokens is a comma between each two of them
(`parts_of_call`).
-/

import Mathlib.Data.List.TakeWhile
import WrenAnalysis.Proofs.Syntax.Bracketing
import WrenAnalysis.Proofs.Syntax.Parts
import WrenAnalysis.Proofs.Token.Exchange

namespace WrenAnalysis

/-! ### A name and a parenthesis -/

namespace Lexeme

variable {cs : List Char}

/-- A name starts with a letter or an underscore. -/
theorem Scans.name_start {n : Nat} (h : Scans cs .name n) :
    ∃ c ds, cs = c :: ds ∧ Text.isNameStart c = true := by
  generalize hk : Kind.name = k at h
  cases h with
  | @word c ds _ _ _ hname => exact ⟨c, ds, rfl, hname⟩
  | _ => cases hk

/-- All characters of a name are such as names are written with. -/
theorem Scans.name_part (h : Scans cs .name cs.length) : ∀ c ∈ cs, Text.isNamePart c = true := by
  generalize hk : Kind.name = k at h
  generalize hn : cs.length = n at h
  cases h with
  | word =>
    rw [nameEnd, runEnd] at hn
    have htake := (List.takeWhile_prefix (Text.isNamePart ·)).eq_of_length hn.symm
    exact List.takeWhile_eq_self_iff.1 htake
  | _ => cases hk

/-- No newline stands in a name. -/
theorem Scans.notMem_newline (h : Scans cs .name cs.length) : '\n' ∉ cs := fun hc => by
  have := h.name_part '\n' hc
  revert this
  decide +kernel

/-- A name goes no further than its characters. -/
theorem Scans.name_append (h : Scans cs .name cs.length) {d : Char}
    (hd : Text.isNamePart d = false) (rest : List Char) :
    Scans (cs ++ d :: rest) .name cs.length := by
  have hpart := h.name_part
  generalize hk : Kind.name = k at h
  generalize hn : cs.length = n at h
  cases h with
  | @word c cs hline hquote hdigit hname =>
    have hend : nameEnd (c :: cs ++ d :: rest) = nameEnd (c :: cs) := by
      rw [nameEnd, runEnd, List.takeWhile_append_of_pos hpart,
        List.takeWhile_cons_of_neg (by simp [hd]), List.append_nil, hn]
    have hscan : Scans (c :: (cs ++ d :: rest)) _ _ := .word hline hquote hdigit hname
    rw [List.cons_append] at hend ⊢
    rw [hend] at hscan
    have htake : (c :: (cs ++ d :: rest)).take (nameEnd (c :: cs)) =
        (c :: cs).take (nameEnd (c :: cs)) := by
      rw [← List.cons_append, ← hn, List.take_left, List.take_length]
    rwa [htake] at hscan
  | _ => cases hk

/-- A character that starts neither a blank nor a comment. -/
theorem triviaEnd_of_head {atStart : Bool} {c : Char} (hc : c ∉ [' ', '\t', '\r', '/', '#']) :
    triviaEnd atStart (c :: cs) = .ok 0 := by
  rw [triviaEnd]
  · exact gapEnd_of_bare (bare_cons fun hmem => hc (List.mem_append_left ['#'] hmem))
  · rintro ds ⟨⟩
    simp at hc

end Lexeme

namespace Lexer

open Lexeme (triviaEnd scan Scans)

variable {n rest : List Char} {ts : List Token} {e : Option LexicalError}

/-- A text that starts with a name and an opening parenthesis. -/
theorem Streams.call (hn : Scans n .name n.length)
    (h : Streams (Position.start.after (n ++ ['('])) rest ts e) :
    Streams .start (n ++ '(' :: rest) (⟨.name, .ofList n, .start⟩ ::
      ⟨.symbol .leftParen, "(", Position.start.after n⟩ :: ts) e := by
  have hother : [' ', '\t', '\r', '/', '#'].all (fun c => !Text.isNameStart c) = true := by
    decide +kernel
  have hopen : scan ('(' :: rest) = .ok (some (.symbol .leftParen, 1)) := rfl
  rw [Position.after_append] at h
  have htail : Streams (Position.start.after n) ('(' :: rest)
      (⟨.symbol .leftParen, "(", Position.start.after n⟩ :: ts) e :=
    .cons (u := ['(']) h (Lexeme.triviaEnd_of_head (by decide)) hopen
  refine htail.cons ?_ (Lexeme.scan_eq_ok_iff.2 (hn.name_append (by decide +kernel) rest))
  obtain ⟨c, ds, rfl, hc⟩ := hn.name_start
  exact Lexeme.triviaEnd_of_head fun hmem => by
    simpa [hc] using List.all_eq_true.1 hother c hmem

end Lexer

/-! ### A line that is read -/

/-- A call by its name alone, in one line and without a block, is the name, a parenthesis and the
arguments. -/
theorem Derives.call_tokens {name : Token} {args : List Expr} {us : List Token}
    (h : Derives (.expr (.call none name (some args) none)) us) (hline : ∀ t ∈ us, t.kind ≠ .line) :
    ∃ o vs, us = name :: o :: vs ∧ o.kind = .symbol .leftParen ∧
      Derives (.arguments .paren args) vs := by
  generalize hp : Phrase.expr (.call none name (some args) none) = p at h
  induction h with
  | @name t as b us _ _ htail =>
    cases hp
    cases htail with
    | @tailArguments o es us ho hargs => exact ⟨o, us, rfl, ho, hargs⟩
  | @continued e us ls _ hls ih =>
    cases ls with
    | nil => simpa using ih (by simpa using hline) hp
    | cons t ls => exact absurd (hls t (by simp)) (hline t (by simp))
  | _ => cases hp

/-- A statement ends in front of a newline, a closing brace or the end. -/
theorem Grammar.kind_of_endOfStatement {c d : Cursor} (h : endOfStatement c = .ok ((), d)) :
    c.current.kind = .line ∨ c.current.kind = .symbol .rightBrace ∨ c.current.kind = .eof := by
  obtain ⟨k, c', hk, h⟩ := Parser.bind_eq_ok_iff.1 h
  cases hk
  generalize c.current.kind = k at h
  split at h
  · exact .inl rfl
  · exact .inr (.inl rfl)
  · exact .inr (.inr rfl)
  · cases h

/-- A line that is read as one statement is written as that statement, and without an
attribute. -/
theorem Module.derives_of_line {us : List Token} {p : Position} {s : Stmt}
    (hline : ∀ t ∈ us, t.kind ≠ .line) (hend : ∀ t ∈ us, t.kind ≠ .eof)
    (hhead : ∀ t ∈ us.head?, t.kind ≠ .symbol .hash)
    (h : ofTokens (us ++ [.eof p]) = .ok ⟨[s]⟩) : Derives (.stmt s) us ∧ Hashless us := by
  have hlines : ∀ t ∈ us ++ [Token.eof p], t.kind ≠ .line := by
    exact List.forall_mem_append.2 ⟨hline, List.forall_mem_singleton.2 nofun⟩
  have hskip : (Cursor.ofTokens (us ++ [.eof p])).skipLines = .ofTokens (us ++ [.eof p]) := by
    have hdrop : (us ++ [Token.eof p]).dropWhile (·.kind = .line) = us ++ [.eof p] :=
      List.dropWhile_eq_self_iff.2 fun hpos => by simpa using hlines _ (List.getElem_mem hpos)
    rw [Cursor.skipLines, Cursor.ofTokens, hdrop]
  have hrounds := ofTokens_eq_ok_iff.1 h
  rw [hskip] at hrounds
  have hclear : (Cursor.ofTokens (us ++ [.eof p])).Clear := ⟨Cursor.stopOf_kind _, .inr hlines⟩
  cases hrounds with
  | attributed _ hk _ =>
    cases us with
    | nil => cases hk
    | cons t us => exact absurd hk (hhead t rfl)
  | @definition _ d e _ _ _ _ hdef hbrace hnext _ _ =>
    obtain ⟨vs, hvs, hstop, hderives⟩ :=
      (Nested.sound_within _).definition _ hclear.stop s d hdef
    obtain ⟨ws, hws, -, hopens⟩ :=
      ((Nested.keeping_within _).definition _ []).ok hclear s d hdef
    obtain rfl : vs = ws := List.append_cancel_right (hvs.symm.trans hws)
    have hvs : us ++ [.eof p] = vs ++ d.ahead := hvs
    have hcurrent : ∀ t ∈ d.ahead.head?, t.kind = .eof := by
      intro t ht
      have hmem : t ∈ us ++ [.eof p] := by
        rw [hvs]
        exact List.mem_append_right vs (List.mem_of_mem_head? ht)
      have ht : d.current = t := by
        rw [Cursor.current, List.headD_eq_head?_getD, Option.mem_def.1 ht, Option.getD_some]
      rcases Grammar.kind_of_endOfStatement hnext with hk | hk | hk
      · exact absurd (ht ▸ hk) (hlines t hmem)
      · exact absurd hk hbrace
      · exact ht ▸ hk
    -- What stands behind the statement is the end alone.
    obtain rfl : us = vs := by
      rcases List.append_eq_append_iff.1 hvs with ⟨as, rfl, has⟩ | ⟨as, rfl, has⟩
      · cases as with
        | nil => rw [List.append_nil]
        | cons a as =>
          obtain ⟨rfl, -⟩ := List.cons.inj has
          exact absurd rfl (hopens.ne (.eof p) (by simp)).1
      · cases as with
        | nil => rw [List.append_nil]
        | cons a as => exact absurd (hcurrent a (by simp [has])) (hend a (by simp))
    exact ⟨hderives, fun t ht => (hopens.ne t ht).2⟩

/-! ### Tokens of a line -/

/-- The token that ends a line begins with a newline. -/
theorem Lexeme.Scans.head_of_line {cs : List Char} {n : Nat} (h : Scans cs .line n) :
    cs.head? = some '\n' := by
  generalize hk : Kind.line = k at h
  cases h with
  | line => rfl
  | @word c cs =>
    rcases Kind.ofWord_cases (.ofList ((c :: cs).take (nameEnd (c :: cs)))) with hw | ⟨k, hw, -⟩
    · cases hk.trans hw
    · cases hk.trans hw
  | _ => cases hk

namespace Lexer

variable {p : Position} {cs : List Char} {ts us : List Token} {e : Option LexicalError}

/-- A text without newlines has no newlines for tokens. -/
theorem Streams.ne_line (h : Streams p cs ts e) (hline : '\n' ∉ cs) : ∀ t ∈ ts, t.kind ≠ .line := by
  intro t ht hk
  rcases h.scanned t ht with rfl | ⟨front, rest, rfl, -, hscans⟩
  · cases hk
  · rw [hk] at hscans
    exact hline (List.mem_append_right front (List.mem_of_mem_head? hscans.head_of_line))

end Lexer

/-! ### Calls as they are written -/

/-- The call of a name with some arguments. -/
def callText (n : String) (es : List String) : String := n ++ "(" ++ ", ".intercalate es ++ ")"

/-- A call is its name and its arguments in parentheses. -/
theorem toList_callText (n : String) (es : List String) :
    (callText n es).toList = n.toList ++ '(' :: (listed es ++ [')']) := by
  rw [callText, String.toList_append, String.toList_append, String.toList_append,
    toList_intercalate]
  simp

section Call

variable {n : String} {es : List String} {name : Token} {args : List Expr} {chars : List Char}
  {text : String}

open Token (startingIn onward tokenizePrefix)
open Lexer (Streams)

/-- The tokens of a call in one line. -/
theorem tokens_of_call (hn : Lexeme.scan n.toList = .ok (some (.name, n.length)))
    (htext : text.toList = n.toList ++ '(' :: chars) (hline : '\n' ∉ chars)
    (hparse : Module.parse text = .ok ⟨[.expr (.call none name (some args) none)]⟩) :
    ∃ us q, q.offset = text.toList.length ∧ tokenizePrefix text = ⟨.name, n, .start⟩ ::
        ⟨.symbol .leftParen, "(", Position.start.after n.toList⟩ :: (us ++ [.eof q]) ∧
      Streams (Position.start.after (n.toList ++ ['('])) chars (us ++ [.eof q]) none ∧
      Token.Along text.toList (us ++ [.eof q]) ∧ (∀ t ∈ us, t.kind ≠ .eof) ∧ Hashless us ∧
      Derives (.arguments .paren args) us := by
  rw [← String.length_toList] at hn
  have hscans := Lexeme.scan_eq_ok_iff.1 hn
  obtain ⟨ts, hts, hm⟩ := Module.parse_eq_ok_iff.1 hparse
  have hstreams := Token.tokenize_eq_ok_iff.1 hts
  obtain ⟨ts', e, htail⟩ := Lexer.exists_streams (Position.start.after (n.toList ++ ['('])) chars
  have hcall := Streams.call hscans htail
  rw [← htext] at hcall
  obtain ⟨rfl, rfl⟩ := hstreams.unique hcall
  obtain ⟨us, rfl, hproper⟩ := htail.ends
  have htokens := ((Token.streams_tokenizePrefix text).unique hcall).1
  have halong : Token.Along text.toList _ :=
    ⟨hcall.inOrder, fun t ht c hc => Token.mayStart (htokens ▸ ht) hc⟩
  have hnoline : '\n' ∉ text.toList := by
    simp [htext, hscans.notMem_newline, hline]
  have hlines := hcall.ne_line hnoline
  have hline' : ∀ t ∈ (⟨.name, .ofList n.toList, .start⟩ ::
      ⟨.symbol .leftParen, "(", Position.start.after n.toList⟩ :: us : List Token),
      t.kind ≠ .line := fun t ht => hlines t (List.mem_append_left [Token.eof _] ht)
  have hend : ∀ t ∈ us, t.kind ≠ .eof := fun t ht => (hproper t ht).1
  obtain ⟨hderives, hhash⟩ := Module.derives_of_line hline' (by simpa using hend) (by simp) hm
  cases hderives with
  | expr he =>
    obtain ⟨o, vs, hus, -, hargs⟩ := he.call_tokens hline'
    cases hus
    rw [String.ofList_toList] at htokens
    refine ⟨us, _, ?_, htokens, htail, halong.tail.tail, hend, hhash.tail.tail, hargs⟩
    simp [htext, Position.after_offset, Position.start, Nat.add_assoc, Nat.add_comm 1]

/-- **The arguments of a call in one line** are its parts with a comma between each two, in front
of the closing parenthesis. -/
theorem parts_of_call (hn : Lexeme.scan n.toList = .ok (some (.name, n.length)))
    (hline : ∀ e ∈ es, '\n' ∉ e.toList)
    (hparse : Module.parse (callText n es) = .ok ⟨[.expr (.call none name (some args) none)]⟩)
    (hargs : List.Forall₂ (fun a us => Derives (.expr a) us) args
      (startingIn (tokenizePrefix (callText n es)) (n.length + 1) es)) :
    ∃ vs t q, Streams (Position.start.after (n.toList ++ ['('])) (listed es ++ [')'])
        (vs ++ [t, .eof q]) none ∧
      t.position.offset = n.length + 1 + (listed es).length ∧ (∀ u ∈ vs, u.kind ≠ .eof) ∧
      Separated (startingIn (tokenizePrefix (callText n es)) (n.length + 1) es) (es.length - 1) vs ∧
      ∀ us ∈ startingIn (tokenizePrefix (callText n es)) (n.length + 1) es, Matched us := by
  have hnoline : '\n' ∉ listed es ++ [')'] := by
    simp [notMem_listed hline]
  obtain ⟨us, q, hq, htokens, hstreams, halong, hend, hhash, hderives⟩ :=
    tokens_of_call hn (toList_callText n es) hnoline hparse
  have hfront : (n.toList ++ ['(']).length = n.length + 1 := by simp [String.length_toList]
  have hstart : ∀ t ∈ us ++ [.eof q], (n.toList ++ ['(']).length ≤ t.position.offset := by
    intro t ht
    have hle := hstreams.offset_le t ht
    rwa [Position.after_offset, show Position.start.offset = 0 from rfl, Nat.zero_add] at hle
  -- In front of the arguments stand the name and the parenthesis.
  have hstarting : startingIn (tokenizePrefix (callText n es)) (n.length + 1) es =
      startingIn (us ++ [.eof q]) (n.length + 1) es := by
    have hbehind : onward (n.length + 1) (tokenizePrefix (callText n es)) = us ++ [.eof q] := by
      rw [htokens, onward, List.filter_cons_of_neg, List.filter_cons_of_neg]
      · exact Token.onward_eq_self (hfront ▸ hstart)
      · simp [Position.after_offset, Position.start, String.length_toList]
      · simp [Position.start]
    rw [← hbehind, Token.startingIn_onward le_rfl]
  rw [hstarting] at hargs ⊢
  have hsealed : ∀ part ∈ startingIn (us ++ [.eof q]) (n.length + 1) es, Sealed part := by
    refine sealed_of_forall₂ hargs fun part hpart t ht => ?_
    rcases List.mem_append.1 (Token.mem_of_mem_startingIn hpart t ht) with ht | ht
    · exact hhash t ht
    · simp [List.mem_singleton.1 ht, Token.eof]
  have hmatched := fun part hpart => (hsealed part hpart).matched
  obtain ⟨hclosed, hcount⟩ : Closed .rightParen us ∧ args.length ≤ separatingCommas us + 1 :=
    hderives.bracketed hhash
  obtain ⟨m, vs, t, rfl, hk, hplace, hvs⟩ := closed_startingIn (n.toList ++ ['(']) halong hstart es
    (by rw [toList_callText, List.append_assoc, List.singleton_append]) hq hclosed
    (hfront ▸ hmatched)
  rw [hfront] at hplace hvs
  -- As many commas as there are arguments but one are wanted, and there are no more.
  obtain rfl : m = es.length - 1 := by
    have hle := hvs.le
    have hlength := hargs.length_eq
    rw [length_startingIn] at hle hlength
    rw [separatingCommas_append (hvs.matched hmatched), hvs.separatingCommas_eq hsealed,
      separatingCommas_closing rfl hk] at hcount
    omega
  have hproper : ∀ u ∈ vs, u.kind ≠ .eof := fun u hu => hend u (List.mem_append_left [t] hu)
  exact ⟨vs, t, q, by simpa using hstreams, hplace, hproper, hvs, hmatched⟩

end Call

end WrenAnalysis
