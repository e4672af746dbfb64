/-
# Spacing carries no information

The texts of a text's tokens, with one blank between each two, are cut into the same
tokens again (`Token.tokenize_spaced`).  Comments, blanks and the places of the tokens
are all that is lost.  It rests on `Lexeme.Scans.shares`: behind a token, a blank
shows a scan as little as can be.
-/

import WrenAnalysis.Proofs.Token.Scan
import WrenAnalysis.Proofs.Token.Stream
import WrenAnalysis.Proofs.Token.Trivia

namespace WrenAnalysis
namespace Lexeme

variable {cs cs' u rest : List Char} {k : Kind} {n : Nat}

/-- A scan of blanks passes nothing where there are none. -/
theorem gapEnd_of_bare (h : Bare cs) : gapEnd .blank n cs = .ok n := by
  rw [gapEnd]
  · rintro ds rfl
    exact h.blank ' ' rfl (by simp)
  · rintro ds rfl
    exact h.blank '\t' rfl (by simp)
  · rintro ds rfl
    exact h.blank '\r' rfl (by simp)
  · rintro ds rfl
    exact h.line (List.prefix_append ['/', '/'] ds)
  · rintro ds rfl
    exact h.block (List.prefix_append ['/', '*'] ds)

/-- A text with the characters of a token starts with no blank and no comment either. -/
theorem Bare.shares (h : Bare cs) (hs : Shares (n + 1) cs cs') : Bare cs' where
  blank c hc := by
    obtain ⟨ds, rfl⟩ := List.head?_eq_some_iff.1 hc
    obtain ⟨_ | ⟨d, u⟩, v, v', hu, rfl, hv', -⟩ := hs
    · cases hu
    · obtain ⟨rfl, -⟩ := List.cons.inj hv'
      exact h.blank c rfl
  line hpre := h.line (hs.isPrefix (by simp) (by simp [unseen]) hpre)
  block hpre := h.block (hs.isPrefix (by simp) (by simp [unseen]) hpre)

/-- No token goes on behind its `#`. -/
theorem Scans.length_of_hash (h : Scans ('#' :: cs) k n) : n = 1 := by
  cases h with
  | number _ _ hdigit => exact absurd hdigit (by decide)
  | word _ _ _ hname => exact absurd hname (by decide +kernel)
  | @symbol _ _ s _ _ _ _ hread =>
    have hpre := Symbol.spelling_prefix_of_read hread
    cases s <;> first | rfl | (exact absurd hpre (by simp [Symbol.spelling]))

end Lexeme

namespace Token

/-- Every text behind a blank. -/
def blanked (texts : List String) : List Char := texts.flatMap fun w => ' ' :: w.toList

/-- The texts of all tokens but the end. -/
def texts (ts : List Token) : List String := (ts.filter (·.kind ≠ .eof)).map text

/-- The texts of tokens are listed in order, without that of the end. -/
theorem texts_cons {t : Token} (h : t.kind ≠ .eof) (ts : List Token) :
    texts (t :: ts) = t.text :: texts ts := by
  simp [texts, h]

/-- Nothing can be seen behind a token that a blank or the end follows. -/
theorem lookahead_blanked (texts : List String) : Lexeme.lookahead (blanked texts) = [] := by
  cases texts <;> rfl

/-- Texts are joined with a blank in front of each but the first. -/
theorem toList_intercalate_cons (w : String) (texts : List String) :
    (" ".intercalate (w :: texts)).toList = w.toList ++ blanked texts := by
  induction texts generalizing w with
  | nil => simp [blanked]
  | cons v texts ih =>
    rw [String.intercalate_cons_of_ne_nil (by simp), String.toList_append, ih, blanked]
    simp [blanked]

end Token

namespace Lexer

open Lexeme (Scans Shares Bare triviaEnd)

variable {p : Position} {cs gap u rest : List Char} {k : Kind} {ts : List Token}

/-- A token that stands before blanks is the same token. -/
theorem spaced_token {atStart : Bool} (texts : List String)
    (hgap : triviaEnd atStart (gap ++ (u ++ rest)) = .ok gap.length)
    (hscan : Lexeme.scan (u ++ rest) = .ok (some (k, u.length))) :
    Bare (u ++ Token.blanked texts) ∧
      Lexeme.scan (u ++ Token.blanked texts) = .ok (some (k, u.length)) := by
  have hshares : Shares u.length (u ++ rest) (u ++ Token.blanked texts) := by
    refine Lexeme.shares_append u ?_
    rw [Token.lookahead_blanked]
    exact List.nil_prefix
  constructor
  · obtain ⟨n, hn⟩ := Nat.exists_eq_succ_of_ne_zero (Lexeme.scan_bounds hscan).1.ne'
    exact (Lexeme.skipped_of_triviaEnd hgap).2.shares (hn ▸ hshares)
  · exact Lexeme.scan_eq_ok_iff.2 ((Lexeme.scan_eq_ok_iff.1 hscan).shares hshares)

/-- Behind a token, the texts of the tokens to come give the same tokens. -/
theorem Streams.blanked (h : Streams p cs ts none) (p' : Position) :
    ∃ ts', Streams p' (Token.blanked (Token.texts ts)) ts' none ∧
      ts'.map Token.word = ts.map Token.word := by
  generalize he : (none : Option LexicalError) = e at h
  induction h generalizing p' with
  | eof => exact ⟨_, .eof rfl, rfl⟩
  | @token p gap u rest k ts e hgap hscan _ ih =>
    obtain ⟨hbare, hscan'⟩ := spaced_token (Token.texts ts) hgap hscan
    obtain ⟨ts', hts', hwords⟩ := ih (p'.after ([' '] ++ u)) he
    have hkind := (Lexeme.scan_eq_ok_iff.1 hscan).kind_ne_eof
    refine ⟨⟨k, .ofList u, p'.after [' ']⟩ :: ts', ?_, congrArg ((k, String.ofList u) :: ·) hwords⟩
    have hchars : Token.blanked (Token.texts (⟨k, .ofList u, p.after gap⟩ :: ts)) =
        [' '] ++ (u ++ Token.blanked (Token.texts ts)) := by
      rw [Token.texts_cons hkind]
      simp [Token.blanked]
    rw [hchars]
    exact .token (Lexeme.gapEnd_of_bare hbare) hscan' hts'
  | openComment | noToken => cases he

/-- The first token is not taken for the start of a `#!` line: no token goes on behind
its `#`, and a blank follows it. -/
theorem triviaEnd_spaced {texts : List String} (hbare : Bare (u ++ Token.blanked texts))
    (hscan : Lexeme.scan (u ++ Token.blanked texts) = .ok (some (k, u.length))) :
    triviaEnd true (u ++ Token.blanked texts) = .ok 0 := by
  have hhash : ∀ ds, u ++ Token.blanked texts ≠ '#' :: '!' :: ds := by
    intro ds hds
    rw [hds] at hscan
    have hlen := (Lexeme.scan_eq_ok_iff.1 hscan).length_of_hash
    obtain ⟨c, rfl⟩ := List.length_eq_one_iff.1 hlen
    cases texts <;> simp [Token.blanked] at hds
  rw [triviaEnd]
  · exact Lexeme.gapEnd_of_bare hbare
  · exact hhash

/-- At the start of a text, they do so without a blank before them. -/
theorem Streams.spaced (h : Streams p cs ts none) :
    ∃ ts', Streams .start (" ".intercalate (Token.texts ts)).toList ts' none ∧
      ts'.map Token.word = ts.map Token.word := by
  cases h with
  | eof => exact ⟨_, .eof rfl, rfl⟩
  | @token p gap u rest k ts _ hgap hscan htail =>
    obtain ⟨hbare, hscan'⟩ := spaced_token (Token.texts ts) hgap hscan
    obtain ⟨ts', hts', hwords⟩ := htail.blanked (Position.start.after u)
    have hkind := (Lexeme.scan_eq_ok_iff.1 hscan).kind_ne_eof
    refine ⟨⟨k, .ofList u, .start⟩ :: ts', ?_, congrArg ((k, String.ofList u) :: ·) hwords⟩
    have hchars : (" ".intercalate (Token.texts (⟨k, .ofList u, p.after gap⟩ :: ts))).toList =
        [] ++ (u ++ Token.blanked (Token.texts ts)) := by
      rw [Token.texts_cons hkind, Token.toList_intercalate_cons, String.toList_ofList,
        List.nil_append]
    rw [hchars]
    exact .token (triviaEnd_spaced hbare hscan') hscan' hts'

end Lexer

namespace Token

/-- **Spacing carries no information.**  The texts of the tokens of a text, with a blank
between each two, are the same tokens but for their places. -/
theorem tokenize_spaced {text : String} {ts : List Token} (h : tokenize text = .ok ts) :
    ∃ ts', tokenize (" ".intercalate (texts ts)) = .ok ts' ∧ ts'.map word = ts.map word := by
  obtain ⟨ts', hts', hwords⟩ := (tokenize_eq_ok_iff.1 h).spaced
  exact ⟨ts', tokenize_eq_ok_iff.2 hts', hwords⟩

/-- A text with comments, with points behind a number and with a first token that starts
no `#!` line. -/
theorem tokenize_spaced_of_comments :
    ∃ ts', tokenize "# ! 1.5 .. 2 \n \"%(\"b\")\"" = .ok ts' ∧
      ts'.map word = [(.symbol .hash, "#"), (.symbol .bang, "!"), (.number, "1.5"),
        (.symbol .dotDot, ".."), (.number, "2"), (.line, "\n"), (.string, "\"%(\"b\")\""),
        (.eof, "")] := by
  have hts : tokenize " #!1.5..2// #\n\"%(\"b\")\"/*/**/*/" =
      .ok [⟨.symbol .hash, "#", ⟨1, 1, 1⟩⟩, ⟨.symbol .bang, "!", ⟨1, 2, 2⟩⟩,
        ⟨.number, "1.5", ⟨1, 3, 3⟩⟩, ⟨.symbol .dotDot, "..", ⟨1, 6, 6⟩⟩,
        ⟨.number, "2", ⟨1, 8, 8⟩⟩, ⟨.line, "\n", ⟨1, 13, 13⟩⟩,
        ⟨.string, "\"%(\"b\")\"", ⟨2, 0, 14⟩⟩, .eof ⟨2, 16, 30⟩] := by decide +kernel
  exact tokenize_spaced hts

end Token
end WrenAnalysis
