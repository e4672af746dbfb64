/-
# What a token stream comes to

`Lexer.run` goes on as long as a step gives a token.  `Lexer.Streams` says the same as a
relation with one rule for each way a step can end, on characters cut where the scan cuts
them: blanks and comments, then a token, then the rest.  The two agree
(`Lexer.streams_iff`), so what holds of every stream is proved along these rules.
-/

import WrenAnalysis.Proofs.Token.Scan
import WrenAnalysis.Token.Lexer

namespace WrenAnalysis

namespace Token

/-- What a token is but for its place. -/
def word (t : Token) : Kind × String := (t.kind, t.text)

/-- What comes before the end of a text: a token with at least one character. -/
def Proper (t : Token) : Prop := t.kind ≠ .eof ∧ 1 ≤ t.length

end Token

namespace Lexer

open Lexeme (triviaEnd scan)

/-- The tokens of the characters `cs` that stand at `p`, and the error that ends them, if
one does. -/
inductive Streams : (p : Position) → (cs : List Char) → List Token → Option LexicalError → Prop
  /-- Nothing but blanks and comments is left. -/
  | eof {p : Position} {gap : List Char} :
      triviaEnd (p.offset = 0) gap = .ok gap.length → Streams p gap [.eof (p.after gap)] none
  /-- A token, and what comes behind it. -/
  | token {p : Position} {gap u rest : List Char} {k : Kind} {ts : List Token}
      {e : Option LexicalError} :
      triviaEnd (p.offset = 0) (gap ++ (u ++ rest)) = .ok gap.length →
      scan (u ++ rest) = .ok (some (k, u.length)) →
      Streams (p.after (gap ++ u)) rest ts e →
      Streams p (gap ++ (u ++ rest)) (⟨k, .ofList u, p.after gap⟩ :: ts) e
  /-- A comment has no end. -/
  | openComment {p : Position} {cs : List Char} {e : Lexeme.Failure} :
      triviaEnd (p.offset = 0) cs = .error e →
      Streams p cs [] (some ⟨e.fault, p.after (cs.take e.offset)⟩)
  /-- Behind blanks and comments stands no token. -/
  | noToken {p : Position} {gap cs : List Char} {e : Lexeme.Failure} :
      triviaEnd (p.offset = 0) (gap ++ cs) = .ok gap.length → scan cs = .error e →
      Streams p (gap ++ cs) [] (some ⟨e.fault, p.after (gap ++ cs.take e.offset)⟩)

variable {p : Position} {cs gap u rest : List Char} {k : Kind} {ts : List Token}
  {f : Lexeme.Failure} {e : Option LexicalError}

/-! ### One step -/

/-- A stream that has ended gives nothing. -/
theorem run_of_none {l : Lexer} (h : l.next? = none) : l.run = ([], none) := by
  rw [run.eq_def]
  split
  · rfl
  · next heq => rw [h] at heq; cases heq
  · next heq => rw [h] at heq; cases heq

/-- An error ends a stream. -/
theorem run_of_error {l l' : Lexer} {err : LexicalError}
    (h : l.next? = some (.error err, l')) : l.run = ([], some err) := by
  rw [run.eq_def]
  split
  · next heq => rw [h] at heq; cases heq
  · next heq => rw [h] at heq; cases heq; rfl
  · next heq => rw [h] at heq; cases heq

/-- A token stands in front of those behind it. -/
theorem run_of_ok {l l' : Lexer} {t : Token} (h : l.next? = some (.ok t, l')) :
    l.run = (t :: l'.run.1, l'.run.2) := by
  rw [run.eq_def]
  split
  · next heq => rw [h] at heq; cases heq
  · next heq => rw [h] at heq; cases heq
  · next heq => rw [h] at heq; cases heq; rfl

/-- A step skips blanks and comments and then reads. -/
theorem next?_of_trivia (h : triviaEnd (p.offset = 0) (gap ++ rest) = .ok gap.length) :
    next? ⟨gap ++ rest, p, false⟩ = some (readToken ⟨rest, p.after gap, false⟩) := by
  simp [next?, h, moveBy]

/-- Behind the last blanks and comments a stream gives the end of the text. -/
theorem run_eof (h : triviaEnd (p.offset = 0) gap = .ok gap.length) :
    run ⟨gap, p, false⟩ = ([.eof (p.after gap)], none) := by
  have hnext : next? ⟨gap ++ [], p, false⟩ = some (readToken ⟨[], p.after gap, false⟩) :=
    next?_of_trivia (by rwa [List.append_nil])
  rw [List.append_nil] at hnext
  rw [run_of_ok hnext, run_of_none rfl]

/-- Behind blanks and comments a stream gives the token that the scan finds. -/
theorem run_token (hgap : triviaEnd (p.offset = 0) (gap ++ (u ++ rest)) = .ok gap.length)
    (hscan : scan (u ++ rest) = .ok (some (k, u.length))) :
    run ⟨gap ++ (u ++ rest), p, false⟩ =
      (⟨k, .ofList u, p.after gap⟩ :: (run ⟨rest, p.after (gap ++ u), false⟩).1,
        (run ⟨rest, p.after (gap ++ u), false⟩).2) := by
  have hread : readToken ⟨u ++ rest, p.after gap, false⟩ =
      (.ok ⟨k, .ofList u, p.after gap⟩, ⟨rest, p.after (gap ++ u), false⟩) := by
    simp [readToken, hscan, moveBy, Position.after_append]
  exact run_of_ok ((next?_of_trivia hgap).trans (congrArg some hread))

/-- A comment that has no end is the error of a stream. -/
theorem run_openComment (h : triviaEnd (p.offset = 0) cs = .error f) :
    run ⟨cs, p, false⟩ = ([], some ⟨f.fault, p.after (cs.take f.offset)⟩) := by
  have hnext : next? ⟨cs, p, false⟩ = some (fail ⟨cs, p, false⟩ f) := by
    simp only [next?, h, Bool.false_eq_true, if_false]
  exact run_of_error hnext

/-- What is at fault behind blanks and comments is the error of a stream. -/
theorem run_noToken (hgap : triviaEnd (p.offset = 0) (gap ++ cs) = .ok gap.length)
    (hscan : scan cs = .error f) :
    run ⟨gap ++ cs, p, false⟩ = ([], some ⟨f.fault, p.after (gap ++ cs.take f.offset)⟩) := by
  have hread : readToken ⟨cs, p.after gap, false⟩ = fail ⟨cs, p.after gap, false⟩ f := by
    simp only [readToken, hscan]
  rw [run_of_error ((next?_of_trivia hgap).trans (congrArg some hread)), Position.after_append]
  rfl

/-! ### The whole run -/

/-- What the rules give is what the stream comes to. -/
theorem Streams.run_eq (h : Streams p cs ts e) : run ⟨cs, p, false⟩ = (ts, e) := by
  induction h with
  | eof hgap => exact run_eof hgap
  | token hgap hscan _ ih => rw [run_token hgap hscan, ih]
  | openComment h => exact run_openComment h
  | noToken hgap hscan => exact run_noToken hgap hscan

/-- Only at the end of the text a scan finds nothing. -/
theorem eq_nil_of_scan (h : scan cs = .ok none) : cs = [] := by
  unfold scan at h
  split at h
  · rfl
  · simp at h
  · next ds => cases hs : Lexeme.anyStringEnd ds <;> simp [hs, Except.map] at h
  · split at h
    · simp at h
    · split at h
      · simp at h
      · split at h <;> simp at h

/-- A text can be cut wherever it has a character or ends. -/
theorem exists_cut {n : Nat} (h : n ≤ cs.length) : ∃ u rest, cs = u ++ rest ∧ n = u.length :=
  ⟨cs.take n, cs.drop n, (List.take_append_drop n cs).symm, (List.length_take_of_le h).symm⟩

/-- The characters of every text go by the rules. -/
theorem exists_streams (p : Position) (cs : List Char) : ∃ ts e, Streams p cs ts e := by
  induction hn : cs.length using Nat.strongRecOn generalizing p cs with
  | ind n ih =>
    subst hn
    cases hgap : triviaEnd (p.offset = 0) cs with
    | error f => exact ⟨_, _, .openComment hgap⟩
    | ok m =>
      obtain ⟨gap, rest, rfl, rfl⟩ := exists_cut (Lexeme.triviaEnd_le hgap)
      rcases hscan : scan rest with f | _ | ⟨k, m⟩
      · exact ⟨_, _, .noToken hgap hscan⟩
      · obtain rfl := eq_nil_of_scan hscan
        rw [List.append_nil] at hgap ⊢
        exact ⟨_, _, .eof hgap⟩
      · -- A token takes a character, so less is left behind it.
        have hpos := (Lexeme.scan_bounds hscan).1
        obtain ⟨u, rest, rfl, rfl⟩ := exists_cut (Lexeme.scan_bounds hscan).2
        have hlt : rest.length < (gap ++ (u ++ rest)).length := by
          simp only [List.length_append]; omega
        obtain ⟨ts, e, tail⟩ := ih _ hlt (p.after (gap ++ u)) rest rfl
        exact ⟨_, _, .token hgap hscan tail⟩

/-- The rules say what a stream comes to. -/
theorem streams_iff : Streams p cs ts e ↔ run ⟨cs, p, false⟩ = (ts, e) := by
  refine ⟨Streams.run_eq, fun h => ?_⟩
  obtain ⟨ts', e', hs⟩ := exists_streams p cs
  rw [hs.run_eq, Prod.mk.injEq] at h
  exact h.1 ▸ h.2 ▸ hs

/-! ### The tokens of a run -/

/-- Only the mark of the end has no characters. -/
theorem proper_of_scan (q : Position) (h : scan (u ++ rest) = .ok (some (k, u.length))) :
    Token.Proper ⟨k, .ofList u, q⟩ := by
  refine ⟨(Lexeme.scan_eq_ok_iff.1 h).kind_ne_eof, ?_⟩
  rw [Token.length, String.length_ofList]
  exact (Lexeme.scan_bounds h).1

/-- A stream without an error ends with the mark of the end, behind all characters. -/
theorem Streams.ends (h : Streams p cs ts none) :
    ∃ us, ts = us ++ [.eof (p.after cs)] ∧ ∀ t ∈ us, t.Proper := by
  generalize he : (none : Option LexicalError) = e at h
  induction h with
  | eof => exact ⟨[], rfl, by simp⟩
  | @token p gap u rest k ts e hgap hscan _ ih =>
    obtain ⟨us, rfl, hus⟩ := ih he
    refine ⟨⟨k, .ofList u, p.after gap⟩ :: us, ?_,
      List.forall_mem_cons.2 ⟨proper_of_scan _ hscan, hus⟩⟩
    rw [← List.append_assoc gap u rest, p.after_append (gap ++ u) rest]
    rfl
  | openComment | noToken => cases he

/-- Every token but the mark of the end has been scanned where it stands. -/
theorem Streams.scanned (h : Streams p cs ts e) :
    ∀ t ∈ ts, t = .eof (p.after cs) ∨ ∃ front rest, cs = front ++ (t.text.toList ++ rest) ∧
      t.position = p.after front ∧ Lexeme.Scans (t.text.toList ++ rest) t.kind t.length := by
  induction h with
  | eof => exact List.forall_mem_singleton.2 (.inl rfl)
  | @token p gap u rest k ts e hgap hscan _ ih =>
    refine List.forall_mem_cons.2 ⟨.inr ⟨gap, rest, by simp, rfl, ?_⟩, fun t ht => ?_⟩
    · simpa [Token.length] using Lexeme.scan_eq_ok_iff.1 hscan
    · have hend : (p.after (gap ++ u)).after rest = p.after (gap ++ (u ++ rest)) := by
        rw [← Position.after_append, List.append_assoc]
      rcases ih t ht with rfl | ⟨front, rest, rfl, hposition, hscans⟩
      · exact .inl (congrArg Token.eof hend)
      · refine .inr ⟨gap ++ u ++ front, rest, by simp, ?_, hscans⟩
        rw [hposition, Position.after_append p (gap ++ u)]
  | openComment | noToken => exact nofun

/-- Where a token stands its text is found. -/
theorem Streams.placed (h : Streams p cs ts e) :
    ∀ t ∈ ts, ∃ front rest, cs = front ++ (t.text.toList ++ rest) ∧ t.position = p.after front := by
  intro t ht
  rcases h.scanned t ht with rfl | ⟨front, rest, hcs, hposition, -⟩
  · exact ⟨cs, [], by simp [Token.eof], rfl⟩
  · exact ⟨front, rest, hcs, hposition⟩

end Lexer

namespace Token

variable {text : String} {ts : List Token} {e : LexicalError}

/-- A text tokenizes if its stream has no error, and then to its tokens. -/
theorem tokenize_eq_ok_iff :
    tokenize text = .ok ts ↔ Lexer.Streams .start text.toList ts none := by
  rw [Lexer.streams_iff, tokenize, Lexer.ofText, Lexer.ofChars]
  rcases Lexer.run ⟨text.toList, .start, false⟩ with ⟨us, _ | err⟩ <;> simp

/-- A text does not tokenize if its stream has an error, which stands behind its tokens. -/
theorem tokenize_eq_error_iff :
    tokenize text = .error e ↔
      Lexer.Streams .start text.toList (tokenizePrefix text) (some e) := by
  rw [Lexer.streams_iff, tokenize, tokenizePrefix, Lexer.ofText, Lexer.ofChars]
  rcases Lexer.run ⟨text.toList, .start, false⟩ with ⟨us, _ | err⟩ <;> simp

end Token
end WrenAnalysis
