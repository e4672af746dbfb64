/-
# Modules joined by a newline

Two files with a newline between them are one file with the statements of both
(`Module.parse_join`).  Several rules of the grammar look behind newlines, and several
constructs swallow them, but none of them joins two complete files: what the second file
starts with continues nothing, and what the first file ends with lacks nothing.
-/

import WrenAnalysis.Proofs.Syntax.Moved
import WrenAnalysis.Proofs.Syntax.Rounds
import WrenAnalysis.Proofs.Token.Joining

namespace WrenAnalysis

open WrenAnalysis.Parser

/-! ### The seam -/

/-- What stands behind the last token of a list: in one reading the end of the text, in
the other a newline and further tokens, which do not continue an earlier line. -/
structure Seam where
  /-- The end of the first text. -/
  mark : Token
  /-- The newline in its place. -/
  line : Token
  /-- The tokens behind the newline. -/
  further : List Token
  stop : Token
  stop' : Token
  mark_kind : mark.kind = .eof
  line_kind : line.kind = .line
  stop_kind : stop.kind = .eof
  stop'_kind : stop'.kind = .eof
  fresh : (Cursor.mk further stop').skipLines.current.kind ∉ [.symbol .dot, .keyword .else_]

namespace Seam

variable (S : Seam)

/-- The end of the text is still to come behind `us`. -/
def before (us : List Token) : Cursor := ⟨us ++ [S.mark], S.stop⟩

/-- The newline and the further tokens are still to come behind `us`. -/
def before' (us : List Token) : Cursor := ⟨us ++ S.line :: S.further, S.stop'⟩

/-- The further tokens, behind newlines. -/
def behind : Cursor := (Cursor.mk S.further S.stop').skipLines

variable {S} {t : Token} {us : List Token}

/-- Newlines in front of the seam are skipped on both sides, and at the seam on the joined one. -/
theorem skipLines_before (us : List Token) :
    (∃ vs, (∀ t ∈ vs, t ∈ us) ∧ (S.before us).skipLines = S.before vs ∧
      (S.before' us).skipLines = S.before' vs) ∨
    (S.before us).skipLines = S.before [] ∧ (S.before' us).skipLines = S.behind := by
  induction us with
  | nil =>
    refine .inr ⟨?_, ?_⟩
    · simp [before, Cursor.skipLines, S.mark_kind]
    · simp [before', behind, Cursor.skipLines, S.line_kind]
  | cons t us ih =>
    by_cases ht : t.kind = .line
    · have hskip : (S.before (t :: us)).skipLines = (S.before us).skipLines := by
        simp [before, Cursor.skipLines, ht]
      have hskip' : (S.before' (t :: us)).skipLines = (S.before' us).skipLines := by
        simp [before', Cursor.skipLines, ht]
      rw [hskip, hskip']
      refine ih.imp_left ?_
      rintro ⟨vs, hvs, h⟩
      exact ⟨vs, fun v hv => List.mem_cons_of_mem t (hvs v hv), h⟩
    · refine .inl ⟨t :: us, fun _ h => h, ?_, ?_⟩
      · simp [before, Cursor.skipLines, ht]
      · simp [before', Cursor.skipLines, ht]

/-- A line in front of the seam is skipped on both sides. -/
theorem skipToLineEnd_before (us : List Token) :
    ∃ vs, (∀ t ∈ vs, t ∈ us) ∧ (S.before us).skipToLineEnd = S.before vs ∧
      (S.before' us).skipToLineEnd = S.before' vs := by
  induction us with
  | nil =>
    refine ⟨[], fun _ h => h, ?_, ?_⟩
    · simp [before, Cursor.skipToLineEnd, S.mark_kind]
    · simp [before', Cursor.skipToLineEnd, S.line_kind]
  | cons t us ih =>
    by_cases ht : t.kind ≠ .line ∧ t.kind ≠ .eof
    · have hskip : (S.before (t :: us)).skipToLineEnd = (S.before us).skipToLineEnd := by
        simp [before, Cursor.skipToLineEnd, ht]
      have hskip' : (S.before' (t :: us)).skipToLineEnd = (S.before' us).skipToLineEnd := by
        simp [before', Cursor.skipToLineEnd, ht]
      rw [hskip, hskip']
      obtain ⟨vs, hvs, h⟩ := ih
      exact ⟨vs, fun v hv => List.mem_cons_of_mem t (hvs v hv), h⟩
    · refine ⟨t :: us, fun _ h => h, ?_, ?_⟩
      · simp only [before, Cursor.skipToLineEnd, List.cons_append]
        rw [List.dropWhile_cons_of_neg (by simpa using ht)]
      · simp only [before', Cursor.skipToLineEnd, List.cons_append]
        rw [List.dropWhile_cons_of_neg (by simpa using ht)]

/-- A token in front of the seam is taken on both sides. -/
theorem advance_before (ht : t.kind ≠ .eof) :
    (S.before (t :: us)).advance = S.before us ∧
      (S.before' (t :: us)).advance = S.before' us := by
  simp [before, before', Cursor.advance, Cursor.atEnd, Cursor.current, ht]

end Seam

/-- Tokens before the end of a text, beside the same tokens before a newline and further
tokens.  Nothing is said of what is refused. -/
def Pairing.ofSeam (S : Seam) : Pairing where
  relabel := id
  Beside c c' := ∃ us, (∀ t ∈ us, t.kind ≠ .eof) ∧ c = S.before us ∧ c' = S.before' us
  Apart c c' := c = S.before [] ∧ c' = S.behind
  Excuses _ _ := True
  surplus := S.further.length
  relabel_kind _ := rfl
  relabel_text _ := rfl
  stop := by
    rintro _ _ ⟨us, -, rfl, rfl⟩
    exact ⟨S.stop_kind, S.stop'_kind⟩
  length := by
    rintro _ _ ⟨us, -, rfl, rfl⟩
    simp [Seam.before, Seam.before']
    omega
  length_apart := by
    rintro _ _ ⟨rfl, rfl⟩
    have hle : S.behind.ahead.length ≤ S.further.length := (List.dropWhile_sublist _).length_le
    omega
  take := by
    rintro _ _ ⟨us, hus, rfl, rfl⟩ hk
    cases us with
    | nil => exact absurd S.mark_kind hk
    | cons t us =>
      obtain ⟨ht, hus⟩ := List.forall_mem_cons.1 hus
      obtain ⟨hadvance, hadvance'⟩ := Seam.advance_before ht
      exact ⟨rfl, us, hus, hadvance, hadvance'⟩
  atEnd := by
    rintro _ _ ⟨us, hus, rfl, rfl⟩ hk
    cases us with
    | nil => exact .inr ⟨S.line_kind, fun _ _ => trivial⟩
    | cons t us => exact absurd hk (hus t List.mem_cons_self)
  skipLines := by
    rintro _ _ ⟨us, hus, rfl, rfl⟩
    refine (Seam.skipLines_before us).imp_left ?_
    rintro ⟨vs, hvs, h, h'⟩
    exact ⟨vs, fun t ht => hus t (hvs t ht), h, h'⟩
  skipToLineEnd := by
    rintro _ _ ⟨us, hus, rfl, rfl⟩
    obtain ⟨vs, hvs, h, h'⟩ := Seam.skipToLineEnd_before us
    exact ⟨vs, fun t ht => hus t (hvs t ht), h, h'⟩
  apart := by
    rintro _ _ ⟨rfl, rfl⟩
    exact ⟨S.mark_kind, S.fresh, fun _ _ => trivial⟩
  excuse _ _ := trivial
  refuse _ _ := trivial

/-! ### Joining -/

namespace Grammar

variable {c d e : Cursor} {ss : List Stmt}

/-- Behind skipped newlines stands no other. -/
theorem skipLines_kind_ne (hstop : c.stop.kind = .eof) : c.skipLines.current.kind ≠ .line := by
  obtain ⟨ts, stop⟩ := c
  induction ts with
  | nil =>
    show stop.kind ≠ .line
    rw [show stop.kind = .eof from hstop]
    exact nofun
  | cons t ts ih =>
    by_cases ht : t.kind = .line
    · have hskip : (Cursor.mk (t :: ts) stop).skipLines = (Cursor.mk ts stop).skipLines := by
        simp [Cursor.skipLines, ht]
      rw [hskip]
      exact ih hstop
    · have hskip : (Cursor.mk (t :: ts) stop).skipLines = ⟨t :: ts, stop⟩ := by
        simp [Cursor.skipLines, ht]
      rw [hskip]
      exact ht

/-- Behind the end of a statement stands no newline. -/
theorem endOfStatement_kind_ne (hstop : d.stop.kind = .eof) (h : endOfStatement d = .ok ((), e)) :
    e.current.kind ≠ .line := by
  obtain ⟨k, d', hkind, h⟩ := bind_eq_ok_iff.1 h
  obtain ⟨rfl, rfl⟩ : d.current.kind = k ∧ d = d' := by simpa [kind] using hkind
  cases hk : d.current.kind with
  | line =>
    rw [hk] at h
    cases h
    exact skipLines_kind_ne hstop
  | eof =>
    rw [hk] at h
    cases h
    exact hk ▸ nofun
  | symbol s =>
    rw [hk] at h
    cases s with
    | rightBrace =>
      cases h
      exact hk ▸ nofun
    | _ => cases h
  | _ =>
    rw [hk] at h
    cases h

variable {S : Seam} {c' : Cursor} {ss' : List Stmt} {depth : Nat}

/-- The statements before the seam are those of the first text, and those behind it are
those of the second. -/
theorem Rounds.join (h : Rounds (.within depth) c ss) (hc : (Pairing.ofSeam S).Ends c c')
    (hline : c'.current.kind ≠ .line) (hbehind : Rounds (.within depth) S.behind ss') :
    Rounds (.within depth) c' (ss ++ ss') := by
  have hnests := (Pairing.ofSeam S).nests_within depth
  -- The first list goes on unless it has come to its mark.
  have hmore : ∀ {c c'}, (Pairing.ofSeam S).Beside c c' → c.atEnd = false → c'.atEnd = false := by
    intro c c' hc hat
    obtain ⟨hstop, hstop'⟩ := (Pairing.ofSeam S).stop hc
    have hk : c.current.kind ≠ .eof := mt Cursor.atEnd_of_kind (by simp [hat])
    rw [← Bool.not_eq_true, Cursor.atEnd_iff hstop', Pairing.Beside.kind hc hk]
    exact hk
  induction h generalizing c' with
  | @done c hat =>
    rcases hc with ⟨_ | ⟨t, us⟩, hus, rfl, rfl⟩ | ⟨rfl, rfl⟩
    · exact absurd S.line_kind hline
    · have hk : (S.before (t :: us)).current.kind = .eof := (Cursor.atEnd_iff S.stop_kind).1 hat
      exact absurd hk (hus t List.mem_cons_self)
    · exact hbehind
  | @attributed c ss hat hk _ ih =>
    rcases hc with hc | ⟨rfl, -⟩
    · have hskip := (Pairing.ofSeam S).skipToLineEnd hc
      have hk' := (Pairing.Beside.symbol_iff hc _).2 hk
      exact .attributed (hmore hc hat) hk' (ih ((Pairing.ofSeam S).skipLines hskip)
        (skipLines_kind_ne ((Pairing.ofSeam S).stop hskip).2))
    · exact absurd (S.mark_kind.symm.trans hk) nofun
  | @definition c d e s ss hat hk hdef hbrace hend hlt _ ih =>
    rcases hc with hc | ⟨rfl, -⟩
    · have hanswer := hnests.definition c c' hc
      rw [hdef] at hanswer
      obtain ⟨d', hdef', hd⟩ := hanswer
      have hanswer := triple_endOfStatement d d' hd
      rw [hend] at hanswer
      obtain ⟨e', hend', he⟩ := hanswer
      have hlt' : e'.ahead.length < c'.ahead.length := by
        have := Pairing.Ends.length_le he
        have := (Pairing.ofSeam S).length hc
        omega
      rw [show (Pairing.ofSeam S).relabel = id from rfl, s.mapTokens_id] at hdef'
      exact .definition (hmore hc hat) (mt (Pairing.Beside.symbol_iff hc _).1 hk) hdef'
        (mt (Pairing.Beside.symbol_iff hd _).1 hbrace) hend' hlt'
        (ih he (endOfStatement_kind_ne ((Pairing.ofSeam S).stop hd).2 hend'))
    · obtain ⟨r, hr⟩ := hnests.hungry.definition (S.before []) S.mark_kind
      rw [hr] at hdef
      cases hdef

/-- What continues a line starts no statement. -/
theorem Rounds.kind_notMem (h : Rounds (.within depth) c ss) (hstop : c.stop.kind = .eof) :
    c.current.kind ∉ [.symbol .dot, .keyword .else_] := by
  cases h with
  | done hat =>
    rw [(Cursor.atEnd_iff hstop).1 hat]
    decide
  | attributed _ hk =>
    rw [hk]
    decide
  | definition _ _ hdef =>
    intro hmem
    have hk : c.current.kind.StartsNothing := List.mem_cons_of_mem _ hmem
    obtain ⟨r, hr⟩ := (Nested.refuses_within hk depth).definition c rfl
    rw [hr] at hdef
    cases hdef

end Grammar

namespace Module

variable {text text' : String} {m m' : Module} {ts : List Token}

/-- A module whose tokens are moved is read as the module moved. -/
theorem rounds_map {f : Token → Token} (hf : Token.KeepsWords f) (h : ofTokens ts = .ok m) :
    Grammar.Rounds (.within Grammar.maxNesting) ((Cursor.ofTokens ts).map f).skipLines
      (m.mapTokens f).statements := by
  obtain ⟨e, he⟩ := Grammar.module_eq_ok_iff.2 (ofTokens_eq_ok_iff.1 h)
  refine Grammar.module_eq_ok_iff.1 ⟨e.map f, ?_⟩
  rw [Grammar.module_map hf Grammar.maxNesting (Cursor.stopOf_kind ts), he]
  rfl

/-- The tokens of two files with a newline between them, the second ones moved by `f`. -/
theorem ofTokens_join {f : Token → Token} (hf : Token.KeepsWords f) {us us' : List Token}
    {p q : Position} (hus : ∀ t ∈ us, t.kind ≠ .eof) (h : ofTokens (us ++ [.eof p]) = .ok m)
    (h' : ofTokens (us' ++ [Token.eof q]) = .ok m') :
    ofTokens (us ++ ⟨.line, "\n", p⟩ :: (us' ++ [Token.eof q]).map f) =
      .ok ⟨m.statements ++ (m'.mapTokens f).statements⟩ := by
  have hfar := rounds_map hf h'
  have hstop : ((Cursor.ofTokens (us' ++ [Token.eof q])).map f).stop.kind = .eof :=
    (hf.kind _).trans (Cursor.stopOf_kind _)
  let S : Seam := {
    mark := .eof p
    line := ⟨.line, "\n", p⟩
    further := (us' ++ [Token.eof q]).map f
    stop := Cursor.stopOf (us ++ [.eof p])
    stop' := f (Cursor.stopOf (us' ++ [Token.eof q]))
    mark_kind := rfl
    line_kind := rfl
    stop_kind := Cursor.stopOf_kind _
    stop'_kind := hstop
    fresh := hfar.kind_notMem hstop }
  have hbeside : (Pairing.ofSeam S).Beside (S.before us) (S.before' us) := ⟨us, hus, rfl, rfl⟩
  have hrounds := (ofTokens_eq_ok_iff.1 h).join ((Pairing.ofSeam S).skipLines hbeside)
    (Grammar.skipLines_kind_ne S.stop'_kind) hfar
  have hend : Cursor.stopOf (us ++ ⟨.line, "\n", p⟩ :: (us' ++ [Token.eof q]).map f) =
      f (Cursor.stopOf (us' ++ [Token.eof q])) := by
    rw [List.map_append, List.map_singleton, ← List.cons_append, ← List.append_assoc,
      Cursor.stopOf_concat _ (hf.kind _), Cursor.stopOf_concat _ rfl]
  have hcursor : Cursor.ofTokens (us ++ ⟨.line, "\n", p⟩ :: (us' ++ [Token.eof q]).map f) =
      S.before' us := congrArg (Cursor.mk _) hend
  rw [ofTokens_eq_ok_iff, hcursor]
  exact hrounds

/-- **Two files joined by a newline** are one file with the statements of both, those of
the second moved. -/
theorem parse_join (h : parse text = .ok m) (h' : parse text' = .ok m')
    (hstart : ¬ ['#', '!'] <+: text'.toList) :
    parse (text ++ "\n" ++ text') = .ok ⟨m.statements ++ (m'.mapTokens
      (.moved (1 + text.toList.count '\n') (text.length + 1))).statements⟩ := by
  obtain ⟨ts, hts, hm⟩ := parse_eq_ok_iff.1 h
  obtain ⟨ts', hts', hm'⟩ := parse_eq_ok_iff.1 h'
  obtain ⟨us, p, rfl, hproper, hjoin⟩ := Token.tokenize_join hts hts' hstart
  obtain ⟨us', rfl, -⟩ := (Token.tokenize_eq_ok_iff.1 hts').ends
  have hf : Token.KeepsWords (.moved (1 + text.toList.count '\n') (text.length + 1)) :=
    ⟨fun _ => rfl, fun _ => rfl⟩
  exact parse_eq_ok_iff.2
    ⟨_, hjoin, ofTokens_join hf (fun t ht => (hproper t ht).1) hm hm'⟩

/-- A first file that an `else` could continue, and a second one that starts with a newline
and goes on behind one. -/
theorem parse_join_of_branch :
    ∃ m m', parse "#!wren\nif (a) b" = .ok m ∧ parse "\nc\n.d" = .ok m' ∧
      parse "#!wren\nif (a) b\n\nc\n.d" =
        .ok ⟨m.statements ++ (m'.mapTokens (.moved 2 16)).statements⟩ := by
  have hm : (parse "#!wren\nif (a) b").isOk = true := by decide +kernel
  have hm' : (parse "\nc\n.d").isOk = true := by decide +kernel
  have htext : "#!wren\nif (a) b\n\nc\n.d" = "#!wren\nif (a) b" ++ "\n" ++ "\nc\n.d" := by
    decide +kernel
  have hlines : 1 + "#!wren\nif (a) b".toList.count '\n' = 2 := by decide +kernel
  have hlength : "#!wren\nif (a) b".length + 1 = 16 := by decide +kernel
  cases h : parse "#!wren\nif (a) b" with
  | error e =>
    rw [h] at hm
    cases hm
  | ok m =>
    cases h' : parse "\nc\n.d" with
    | error e =>
      rw [h'] at hm'
      cases hm'
    | ok m' =>
      have hjoin := parse_join h h' (by decide)
      rw [← htext, hlines, hlength] at hjoin
      exact ⟨m, m', rfl, rfl, hjoin⟩

end Module
end WrenAnalysis
