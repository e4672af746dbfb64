/-
# A text that goes on

A text that is being written grows at its end.  Blanks and comments that end two characters
before the end of the text stay what they are (`Lexeme.triviaEnd_grown`), and so does a token
that ends three characters before it, as a scan looks no further
(`Lexeme.lookahead_grown`).  So only the tokens at the very end of a text can change when
more is typed (`Token.tokenizePrefix_append`).
-/

import WrenAnalysis.Proofs.Token.Exchange
import WrenAnalysis.Proofs.Token.Tiling

namespace WrenAnalysis
namespace Lexeme

variable {cs gap rest : List Char} {k : Kind}

/-- Behind three characters there is nothing more to look at. -/
theorem lookahead_grown (h : 3 ≤ cs.length) (more : List Char) :
    lookahead (cs ++ more) = lookahead cs := by
  unfold lookahead
  rw [List.takeWhile_append]
  split
  · next hall =>
    rw [(List.takeWhile_prefix _).eq_of_length hall]
    exact List.take_append_of_le_length h
  · rfl

/-- A token with three characters behind it is the same in a longer text. -/
theorem scan_grown {u : List Char} (h : scan (u ++ rest) = .ok (some (k, u.length)))
    (hrest : 3 ≤ rest.length) (more : List Char) :
    scan (u ++ (rest ++ more)) = .ok (some (k, u.length)) := by
  refine scan_eq_ok_iff.2 ((scan_eq_ok_iff.1 h).shares (shares_append u ?_))
  rw [lookahead_grown hrest]

/-- Blanks and comments with two characters behind them are the same in a longer text. -/
theorem triviaEnd_grown {atStart : Bool} (h : triviaEnd atStart (gap ++ rest) = .ok gap.length)
    (hrest : 2 ≤ rest.length) (more : List Char) :
    triviaEnd atStart (gap ++ (rest ++ more)) = .ok gap.length := by
  have hprefix : gap ++ rest <+: gap ++ (rest ++ more) :=
    List.append_assoc gap rest more ▸ List.prefix_append (gap ++ rest) more
  have hcut : CutTo (triviaEnd atStart (gap ++ (rest ++ more))) (triviaEnd atStart (gap ++ rest))
      0 (gap ++ rest) := triviaEnd_cutTo hprefix
  rcases hcut with ⟨m, hm, -, hshort⟩ | ⟨-, ⟨e, he⟩ | ⟨gap', rest', hcs, hshort, hrest'⟩⟩
  · rw [hm, ← hshort, h]
  · rw [h] at he
    cases he
  · -- Cut short, at most the first half of a sign would be left.
    have hlen := congrArg List.length hcs
    have hends : gap.length = 0 + gap'.length := Except.ok.inj (h.symm.trans hshort)
    have hhalf : ∀ r ∈ [[], ['/'], ['#']], r.length ≤ 1 := by decide
    have hle := hhalf rest' hrest'
    simp only [List.length_append] at hlen
    omega

end Lexeme

namespace Lexer

variable {p : Position} {cs : List Char} {ts ts' : List Token} {e e' : Option LexicalError}

/-- The tokens that end three characters before the end of a text are the first ones of every
longer text. -/
theorem Streams.grown (h : Streams p cs ts e) {more : List Char}
    (h' : Streams p (cs ++ more) ts' e') :
    ts.filter (fun t => t.range.2 + 3 ≤ p.offset + cs.length) <+: ts' := by
  induction h generalizing ts' e' with
  | @eof p gap hgap =>
    rw [List.filter_cons_of_neg, List.filter_nil]
    · exact List.nil_prefix
    · simp only [Token.range, Token.eof, Position.after_offset, decide_eq_true_eq]
      omega
  | @token p gap u rest k ts e hgap hscan htail ih =>
    have hends : (Token.mk k (.ofList u) (p.after gap)).range.2 =
        p.offset + (gap.length + u.length) := by
      simp [Token.range, Token.length, Nat.add_assoc]
    have hlength : p.offset + (gap ++ (u ++ rest)).length =
        p.offset + (gap.length + u.length) + rest.length := by
      simp only [List.length_append]
      omega
    rw [hlength]
    rcases Nat.lt_or_ge rest.length 3 with hshort | hlong
    · -- Every token behind this one ends later still.
      rw [List.filter_eq_nil_iff.2]
      · exact List.nil_prefix
      · refine List.forall_mem_cons.2 ⟨?_, fun t ht => ?_⟩
        · rw [hends, decide_eq_true_eq]
          omega
        · have hle := htail.offset_le t ht
          rw [Position.after_offset, List.length_append] at hle
          rw [decide_eq_true_eq, Token.range]
          omega
    · have hgap' := Lexeme.triviaEnd_grown hgap
        (by rw [List.length_append]; omega) more
      have hscan' := Lexeme.scan_grown hscan hlong more
      rw [List.append_assoc, List.append_assoc] at h'
      rw [List.append_assoc] at hgap'
      obtain ⟨us, rfl, htail'⟩ := h'.head hgap' hscan'
      rw [List.filter_cons_of_pos (by rw [hends, decide_eq_true_eq]; omega)]
      have hmore := ih htail'
      rw [Position.after_offset, List.length_append] at hmore
      exact List.cons_prefix_cons.2 ⟨rfl, hmore⟩
  | openComment | noToken => exact List.nil_prefix

end Lexer

namespace Token

/-- **Typing more text changes only the last tokens.**  The tokens in front of the first error
that end at least three characters before the end of a text are, kind, text and place, the
first tokens of every text that goes on from there, whether or not there is an error in
either. -/
theorem tokenizePrefix_append (text more : String) :
    (tokenizePrefix text).filter
        (fun t => t.position.offset + t.length + 3 ≤ text.length) <+:
      tokenizePrefix (text ++ more) := by
  have hmore := streams_tokenizePrefix (text ++ more)
  rw [String.toList_append] at hmore
  have hgrown := (streams_tokenizePrefix text).grown hmore
  rwa [String.length_toList, show Position.start.offset = 0 from rfl, Nat.zero_add] at hgrown

/-- Two characters are not enough: in front of `e+` a number ends only if no digit follows. -/
example : (tokenizePrefix "1e+").map range = [(0, 1), (1, 2), (2, 3), (3, 3)] ∧
    (tokenizePrefix ("1e+" ++ "5")).map range = [(0, 4), (4, 4)] := by decide +kernel

end Token
end WrenAnalysis
