/-
# Blanks and comments

What may stand between two tokens, as a grammar that knows nothing of the scan:
`Lexeme.Trivia gap rest` says that `gap` is made of blanks and comments and that `rest`
may follow it.  Block comments nest (`Lexeme.CommentTail`), and a line comment reaches
to the end of its line.

The scan of a gap passes such characters (`Lexeme.skipped_of_triviaEnd`), and it fails
just at a block comment that has no end (`Lexeme.unclosed_of_triviaEnd`).
-/

import WrenAnalysis.Token.Extent

namespace WrenAnalysis
namespace Lexeme

/-- What stands behind the `/*` of a comment, up to the end of its own `*/`. -/
inductive CommentTail : List Char → Prop
  | close : CommentTail ['*', '/']
  /-- A comment in the comment, and what follows it. -/
  | nested {cs ds : List Char} :
      CommentTail cs → CommentTail ds → CommentTail ('/' :: '*' :: (cs ++ ds))
  /-- A character that opens and closes nothing. -/
  | char {c : Char} {cs : List Char} : ¬ ['/', '*'] <+: c :: cs → ¬ ['*', '/'] <+: c :: cs →
      CommentTail cs → CommentTail (c :: cs)

/-- A line ends before these characters. -/
def LineEnd (rest : List Char) : Prop := ∀ c ∈ rest.head?, c = '\n'

/-- `gap` is made of blanks and comments, in front of `rest`. -/
inductive Trivia : (gap rest : List Char) → Prop
  | nil {rest : List Char} : Trivia [] rest
  | blank {c : Char} {gap rest : List Char} :
      c ∈ [' ', '\t', '\r'] → Trivia gap rest → Trivia (c :: gap) rest
  | line {cs rest : List Char} : '\n' ∉ cs → LineEnd rest → Trivia ('/' :: '/' :: cs) rest
  | block {cs gap rest : List Char} :
      CommentTail cs → Trivia gap rest → Trivia ('/' :: '*' :: (cs ++ gap)) rest

/-- `gap` may be skipped in front of `rest`: it is made of blanks and comments, or it is
a line that starts with `#!` at the start of the text. -/
def Skipped (atStart : Bool) (gap rest : List Char) : Prop :=
  Trivia gap rest ∨ atStart = true ∧ ∃ cs, gap = '#' :: '!' :: cs ∧ '\n' ∉ cs ∧ LineEnd rest

/-- Neither a blank nor a comment starts these characters. -/
structure Bare (cs : List Char) : Prop where
  blank : ∀ c ∈ cs.head?, c ∉ [' ', '\t', '\r']
  line : ¬ ['/', '/'] <+: cs
  block : ¬ ['/', '*'] <+: cs

/-- The comment whose `/*` stands before `body` is never closed. -/
def Unclosed (body : List Char) : Prop := ∀ u, u <+: body → ¬ CommentTail u

/-! ### Open comments

The scan counts the comments that are open.  `depth + 1` open comments end with as many
tails, one behind the other.
-/

/-- A comment that is open before `cs` ends before `rest`. -/
def Closes (cs rest : List Char) : Prop := ∃ u, CommentTail u ∧ cs = u ++ rest

/-- `depth + 1` comments that are open before `cs` end before `rest`. -/
def ClosesAll : (depth : Nat) → (cs rest : List Char) → Prop
  | 0, cs, rest => Closes cs rest
  | depth + 1, cs, rest => ∃ mid, Closes cs mid ∧ ClosesAll depth mid rest

variable {c : Char} {cs gap rest : List Char} {depth : Nat}

/-- A comment is closed by some characters. -/
theorem CommentTail.ne_nil (h : CommentTail cs) : cs ≠ [] := by
  cases h <;> exact List.cons_ne_nil _ _

/-- Nothing closes no comment. -/
theorem not_closes_nil : ¬ Closes [] rest := by
  rintro ⟨u, hu, h⟩
  exact hu.ne_nil (List.append_eq_nil_iff.1 h.symm).1

/-- A comment in a comment is closed before it. -/
theorem closes_open_iff :
    Closes ('/' :: '*' :: cs) rest ↔ ∃ mid, Closes cs mid ∧ Closes mid rest := by
  constructor
  · rintro ⟨u, hu, h⟩
    cases hu with
    | close => simp at h
    | nested ha hb =>
      simp only [List.cons_append, List.append_assoc, List.cons.injEq, true_and] at h
      exact ⟨_, ⟨_, ha, h⟩, _, hb, rfl⟩
    | @char c cs' hopen hclose hu =>
      -- The next character belongs to the same tail, so a comment is opened here.
      obtain ⟨d, ds, rfl⟩ := List.exists_cons_of_ne_nil hu.ne_nil
      simp only [List.cons_append, List.cons.injEq] at h
      obtain ⟨rfl, rfl, -⟩ := h
      exact absurd (List.prefix_append ['/', '*'] ds) hopen
  · rintro ⟨mid, ⟨a, ha, rfl⟩, b, hb, rfl⟩
    exact ⟨_, .nested ha hb, by simp⟩

/-- The end of a comment closes it. -/
theorem closes_close_iff : Closes ('*' :: '/' :: cs) rest ↔ rest = cs := by
  constructor
  · rintro ⟨u, hu, h⟩
    cases hu with
    | close => simpa using h.symm
    | nested ha hb => simp at h
    | @char c cs' hopen hclose hu =>
      obtain ⟨d, ds, rfl⟩ := List.exists_cons_of_ne_nil hu.ne_nil
      simp only [List.cons_append, List.cons.injEq] at h
      obtain ⟨rfl, rfl, -⟩ := h
      exact absurd (List.prefix_append ['*', '/'] ds) hclose
  · rintro rfl
    exact ⟨_, .close, rfl⟩

/-- A character that opens and closes nothing is part of the comment. -/
theorem closes_char_iff (hopen : ¬ ['/', '*'] <+: c :: cs) (hclose : ¬ ['*', '/'] <+: c :: cs) :
    Closes (c :: cs) rest ↔ Closes cs rest := by
  constructor
  · rintro ⟨u, hu, h⟩
    cases hu with
    | close => exact absurd ⟨rest, h.symm⟩ hclose
    | nested ha hb => exact absurd ⟨_, h.symm⟩ hopen
    | char _ _ hu => exact ⟨_, hu, (List.cons.inj h).2⟩
  · rintro ⟨u, hu, rfl⟩
    have hpre : c :: u <+: c :: (u ++ rest) := List.prefix_append (c :: u) rest
    exact ⟨_, .char (fun h => hopen (h.trans hpre)) (fun h => hclose (h.trans hpre)) hu, rfl⟩

/-- Nothing closes no comments. -/
theorem not_closesAll_nil : ¬ ClosesAll depth [] rest := by
  cases depth with
  | zero => exact not_closes_nil
  | succ depth => rintro ⟨mid, h, -⟩; exact not_closes_nil h

/-- A comment in comments is one more to close. -/
theorem closesAll_open_iff :
    ClosesAll depth ('/' :: '*' :: cs) rest ↔ ClosesAll (depth + 1) cs rest := by
  cases depth with
  | zero => exact closes_open_iff
  | succ depth =>
    simp only [ClosesAll, closes_open_iff]
    exact ⟨fun ⟨m, ⟨n, h, h'⟩, h''⟩ => ⟨n, h, m, h', h''⟩,
      fun ⟨n, h, m, h', h''⟩ => ⟨m, ⟨n, h, h'⟩, h''⟩⟩

/-- The end of a comment leaves one less to close. -/
theorem closesAll_close_iff :
    ClosesAll (depth + 1) ('*' :: '/' :: cs) rest ↔ ClosesAll depth cs rest := by
  simp only [ClosesAll, closes_close_iff, exists_eq_left]

/-- A character that opens and closes nothing is part of all comments around it. -/
theorem closesAll_char_iff (hopen : ¬ ['/', '*'] <+: c :: cs)
    (hclose : ¬ ['*', '/'] <+: c :: cs) :
    ClosesAll depth (c :: cs) rest ↔ ClosesAll depth cs rest := by
  cases depth <;> simp only [ClosesAll, closes_char_iff hopen hclose]

/-! ### The scan of a gap

Each way of passing some characters is a lemma on `Gap.Passes`; the scan succeeds and
fails along them.
-/

/-- What a scan of blanks and comments passes from some state on, up to `rest`. -/
def Gap.Passes : Gap → (cs rest : List Char) → Prop
  | .blank, cs, rest => ∃ gap, cs = gap ++ rest ∧ Trivia gap rest
  | .line, cs, rest => ∃ ds, cs = ds ++ rest ∧ '\n' ∉ ds ∧ LineEnd rest
  | .block depth _, cs, rest => ∃ gap, ClosesAll depth cs (gap ++ rest) ∧ Trivia gap rest

section Passes

variable {start : Nat}

/-- Outside of comments nothing needs to be passed. -/
theorem passes_nothing : Gap.Passes .blank rest rest := ⟨[], rfl, .nil⟩

/-- A blank is passed. -/
theorem passes_blank (hc : c ∈ [' ', '\t', '\r']) (h : Gap.Passes .blank cs rest) :
    Gap.Passes .blank (c :: cs) rest := by
  obtain ⟨gap, rfl, hgap⟩ := h
  exact ⟨c :: gap, rfl, .blank hc hgap⟩

/-- A comment of one line is passed with its line. -/
theorem passes_lineComment (h : Gap.Passes .line cs rest) :
    Gap.Passes .blank ('/' :: '/' :: cs) rest := by
  obtain ⟨ds, rfl, hds, hend⟩ := h
  exact ⟨_, rfl, .line hds hend⟩

/-- A comment in signs of its own is passed up to its end. -/
theorem passes_blockComment (h : Gap.Passes (.block 0 start) cs rest) :
    Gap.Passes .blank ('/' :: '*' :: cs) rest := by
  obtain ⟨gap, ⟨u, hu, rfl⟩, hgap⟩ := h
  exact ⟨'/' :: '*' :: (u ++ gap), by simp, .block hu hgap⟩

/-- A character of a line comment is passed with it. -/
theorem passes_lineChar (hc : c ≠ '\n') (h : Gap.Passes .line cs rest) :
    Gap.Passes .line (c :: cs) rest := by
  obtain ⟨ds, rfl, hds, hend⟩ := h
  exact ⟨c :: ds, rfl, by simp [hc.symm, hds], hend⟩

/-- A comment opened in another is passed with it. -/
theorem passes_open (h : Gap.Passes (.block (depth + 1) start) cs rest) :
    Gap.Passes (.block depth start) ('/' :: '*' :: cs) rest := by
  obtain ⟨gap, hcs, hgap⟩ := h
  exact ⟨gap, closesAll_open_iff.2 hcs, hgap⟩

/-- Behind its end, a comment is passed. -/
theorem passes_lastClose (h : Gap.Passes .blank cs rest) :
    Gap.Passes (.block 0 start) ('*' :: '/' :: cs) rest := by
  obtain ⟨gap, rfl, hgap⟩ := h
  exact ⟨gap, closes_close_iff.2 rfl, hgap⟩

/-- The end of an inner comment leads back to the one around it. -/
theorem passes_close (h : Gap.Passes (.block depth start) cs rest) :
    Gap.Passes (.block (depth + 1) start) ('*' :: '/' :: cs) rest := by
  obtain ⟨gap, hcs, hgap⟩ := h
  exact ⟨gap, closesAll_close_iff.2 hcs, hgap⟩

/-- A character that opens and closes nothing is passed with its comment. -/
theorem passes_char (hopen : ¬ ['/', '*'] <+: c :: cs) (hclose : ¬ ['*', '/'] <+: c :: cs)
    (h : Gap.Passes (.block depth start) cs rest) :
    Gap.Passes (.block depth start) (c :: cs) rest := by
  obtain ⟨gap, hcs, hgap⟩ := h
  exact ⟨gap, (closesAll_char_iff hopen hclose).2 hcs, hgap⟩

end Passes

/-- The scan is in comments that have no end, the outermost of them behind `o` characters. -/
def Gap.Stuck : Gap → (o : Nat) → List Char → Prop
  | .block depth start, o, cs => start = o ∧ ∀ rest, ¬ ClosesAll depth cs rest
  | _, _, _ => False

/-- A comment without an end starts behind `o` characters: one that the scan is in, or one
that it comes to. -/
def Gap.Fails (g : Gap) (n : Nat) (cs : List Char) (o : Nat) : Prop :=
  g.Stuck o cs ∨ ∃ body, g.Passes cs ('/' :: '*' :: body) ∧ Unclosed body ∧
    n + cs.length = o + (body.length + 2)

/-- What a scan that has passed `n` characters comes to. -/
def Gap.Ends (g : Gap) (n : Nat) (cs : List Char) : Except Failure Nat → Prop
  | .ok m => ∃ rest, g.Passes cs rest ∧ Bare rest ∧ n + cs.length = m + rest.length
  | .error e => e.fault = .unterminatedComment ∧ g.Fails n cs e.offset

/-- A scan that goes on ends where its next state ends. -/
theorem Gap.Ends.step {g g' : Gap} {n n' : Nat} {cs' : List Char} {r : Except Failure Nat}
    (h : g'.Ends n' cs' r) (hlen : n' + cs'.length = n + cs.length)
    (hpass : ∀ rest, g'.Passes cs' rest → g.Passes cs rest)
    (hstuck : ∀ o, g'.Stuck o cs' → g.Fails n cs o) : g.Ends n cs r := by
  cases r with
  | ok m =>
    obtain ⟨rest, hrest, hbare, hm⟩ := h
    exact ⟨rest, hpass rest hrest, hbare, hlen.symm.trans hm⟩
  | error e =>
    obtain ⟨hfault, hs | ⟨body, hbody, hopen, ho⟩⟩ := h
    · exact ⟨hfault, hstuck _ hs⟩
    · exact ⟨hfault, .inr ⟨body, hpass _ hbody, hopen, hlen.symm.trans ho⟩⟩

/-- Two characters do not start a text. -/
theorem not_prefix_pair {a b : Char} (h : ∀ ds, c = a → cs = b :: ds → False) :
    ¬ [a, b] <+: c :: cs := by
  rintro ⟨ds, hds⟩
  simp only [List.cons_append, List.nil_append, List.cons.injEq] at hds
  exact h ds hds.1.symm hds.2.symm

/-- Neither a blank nor a comment starts an empty text. -/
theorem bare_nil : Bare [] := ⟨by simp, by simp, by simp⟩

/-- A newline is no blank and starts no comment. -/
theorem bare_newline : Bare ('\n' :: cs) := ⟨by simp, by simp, by simp⟩

/-- A scan passes blanks and comments, and fails only at a comment without an end. -/
theorem gapEnd_ends (g : Gap) (n : Nat) (cs : List Char) : g.Ends n cs (gapEnd g n cs) := by
  fun_induction gapEnd g n cs with
  | case1 n cs ih | case2 n cs ih | case3 n cs ih =>
    exact ih.step (by rw [List.length_cons]; omega) (fun _ => passes_blank (by simp))
      fun _ => False.elim
  | case4 n cs ih =>
    exact ih.step (by simp only [List.length_cons]; omega) (fun _ => passes_lineComment)
      fun _ => False.elim
  | case5 n cs ih =>
    refine ih.step (by simp only [List.length_cons]; omega) (fun _ => passes_blockComment) ?_
    -- A comment that is opened here and has no end is the one at fault.
    rintro _ ⟨rfl, hcs⟩
    refine .inr ⟨cs, passes_nothing, ?_, rfl⟩
    rintro u ⟨rest, rfl⟩ hu
    exact hcs rest ⟨u, hu, rfl⟩
  | case6 cs n hblank htab hreturn hline hblock =>
    refine ⟨cs, passes_nothing, ⟨?_, ?_, ?_⟩, rfl⟩
    · intro c hc
      obtain ⟨ds, rfl⟩ := List.head?_eq_some_iff.1 hc
      simp only [List.mem_cons, List.not_mem_nil, or_false]
      rintro (rfl | rfl | rfl)
      · exact hblank ds rfl
      · exact htab ds rfl
      · exact hreturn ds rfl
    · rintro ⟨ds, rfl⟩
      exact hline ds rfl
    · rintro ⟨ds, rfl⟩
      exact hblock ds rfl
  | case7 n => exact ⟨[], ⟨[], rfl, by simp, by simp [LineEnd]⟩, bare_nil, rfl⟩
  | case8 n cs => exact ⟨'\n' :: cs, ⟨[], rfl, by simp, by simp [LineEnd]⟩, bare_newline, rfl⟩
  | case9 n c cs hc ih =>
    exact ih.step (by rw [List.length_cons]; omega) (fun _ => passes_lineChar hc)
      fun _ => False.elim
  | case10 n depth start => exact ⟨rfl, .inl ⟨rfl, fun _ => not_closesAll_nil⟩⟩
  | case11 depth start n cs ih =>
    exact ih.step (by simp only [List.length_cons]; omega) (fun _ => passes_open)
      fun _ hs => .inl ⟨hs.1, fun _ h => hs.2 _ (closesAll_open_iff.1 h)⟩
  | case12 start n cs ih =>
    exact ih.step (by simp only [List.length_cons]; omega) (fun _ => passes_lastClose)
      fun _ => False.elim
  | case13 depth start n cs ih =>
    exact ih.step (by simp only [List.length_cons]; omega) (fun _ => passes_close)
      fun _ hs => .inl ⟨hs.1, fun _ h => hs.2 _ (closesAll_close_iff.1 h)⟩
  | case14 depth start n c cs hopen hlast hclose ih =>
    have hopen : ¬ ['/', '*'] <+: c :: cs := not_prefix_pair hopen
    have hclose : ¬ ['*', '/'] <+: c :: cs := not_prefix_pair (by
      cases depth with
      | zero => exact fun ds => hlast ds rfl
      | succ depth => exact fun ds => hclose depth ds rfl)
    exact ih.step (by rw [List.length_cons]; omega) (fun _ => passes_char hopen hclose)
      fun _ hs => .inl ⟨hs.1, fun _ h => hs.2 _ ((closesAll_char_iff hopen hclose).1 h)⟩

/-! ### In front of a token -/

/-- What is skipped in front of a token are blanks and comments, all there are. -/
theorem skipped_of_triviaEnd {atStart : Bool}
    (h : triviaEnd atStart (gap ++ rest) = .ok gap.length) :
    Skipped atStart gap rest ∧ Bare rest := by
  generalize hcs : gap ++ rest = cs at h
  unfold triviaEnd at h
  split at h
  · next cs =>
    split at h
    · next hstart =>
      obtain ⟨rest', ⟨ds, rfl, hmem, hend⟩, hbare, hlen⟩ := h ▸ gapEnd_ends .line 2 cs
      have hcut : gap ++ rest = ('#' :: '!' :: ds) ++ rest' := hcs
      obtain ⟨rfl, rfl⟩ := List.append_inj hcut (by
        simp only [List.length_append, List.length_cons] at hlen ⊢; omega)
      exact ⟨.inr ⟨hstart, ds, rfl, hmem, hend⟩, hbare⟩
    · have hgap : gap.length = 0 := (Except.ok.inj h).symm
      obtain rfl := List.length_eq_zero_iff.1 hgap
      obtain rfl : rest = '#' :: '!' :: cs := hcs
      exact ⟨.inl .nil, by simp, by simp, by simp⟩
  · obtain ⟨rest', ⟨gap', rfl, htrivia⟩, hbare, hlen⟩ := h ▸ gapEnd_ends .blank 0 _
    obtain ⟨rfl, rfl⟩ := List.append_inj hcs (by simp only [List.length_append] at hlen; omega)
    exact ⟨.inl htrivia, hbare⟩

/-- Where the characters in front of a token cannot be skipped, a comment has no end. -/
theorem unclosed_of_triviaEnd {atStart : Bool} {e : Failure}
    (h : triviaEnd atStart cs = .error e) :
    ∃ gap body, cs = gap ++ '/' :: '*' :: body ∧ gap.length = e.offset ∧
      e.fault = .unterminatedComment ∧ Trivia gap ('/' :: '*' :: body) ∧ Unclosed body := by
  unfold triviaEnd at h
  split at h
  · next cs =>
    split at h
    · -- A line comment ends with its line at the latest.
      obtain ⟨-, hs | ⟨body, ⟨ds, -, -, hend⟩, -⟩⟩ := h ▸ gapEnd_ends .line 2 cs
      · exact hs.elim
      · exact absurd (hend '/' rfl) (by decide)
    · cases h
  · obtain ⟨hfault, hs | ⟨body, ⟨gap, rfl, hgap⟩, hopen, hlen⟩⟩ := h ▸ gapEnd_ends .blank 0 _
    · exact hs.elim
    · refine ⟨gap, body, rfl, ?_, hfault, hgap, hopen⟩
      simp only [List.length_append, List.length_cons] at hlen
      omega

end Lexeme
end WrenAnalysis
