/-
# The nesting counter only rejects

A reading may be seen as one that counts how deep it is (`Counting`): a nested construct is
refused once the count is at its limit, and is else read one deeper, with the count taken back
behind it.  The levels that a construct is given are what is left of this count
(`Counting.ofLevels_constructs`), and a part or a round that follows another one is read at the
depth that the first one leaves (`Counting.ofLevels_bind`, `Counting.ofLevels_iterate`).

Reading with more levels left is a pairing in which a rejection for its depth excuses
everything (`Pairing.deeper`).  So a construct that is not refused for its depth is read the
same at every lesser depth (`Counting.onlyRejects`).
-/

import WrenAnalysis.Proofs.Syntax.Mirrored
import WrenAnalysis.Syntax.Module

namespace WrenAnalysis

/-! ### Counting levels -/

/-- Takes a depth and a cursor to a value, a later cursor and the depth there. -/
def Counting (α : Type) : Type := Nat → Cursor → Except Rejection (α × Cursor × Nat)

namespace Counting

variable {α β : Type}

/-- One reading after another, each at the depth that the one before leaves. -/
instance : Monad Counting where
  pure a := fun depth c => .ok (a, c, depth)
  bind p F := fun depth c =>
    match p depth c with
    | .ok (a, d, depth') => F a depth' d
    | .error r => .error r

/-- Reads one level deeper, unless the depth allowed is used up. -/
def nested (p : Counting α) : Counting α := fun depth c =>
  if Grammar.maxNesting ≤ depth then .error ⟨.shallowerNesting, c⟩
  else
    match p (depth + 1) c with
    | .ok (a, d, depth') => .ok (a, d, depth' - 1)
    | .error r => .error r

/-- A production with the levels that are left at a depth. -/
def ofLevels (P : Nested → Parser α) : Counting α := fun depth c =>
  match P (.within (Grammar.maxNesting - depth)) c with
  | .ok (a, d) => .ok (a, d, depth)
  | .error r => .error r

section

variable {P : Nested → Parser α} {depth : Nat} {c d : Cursor} {a : α} {r : Rejection}

/-- A production that ends well leaves the depth as it was. -/
theorem ofLevels_of_ok (h : P (.within (Grammar.maxNesting - depth)) c = .ok (a, d)) :
    ofLevels P depth c = .ok (a, d, depth) := by
  rw [ofLevels, h]

/-- A production that refuses a token refuses it at any depth that leaves it the same levels. -/
theorem ofLevels_of_error (h : P (.within (Grammar.maxNesting - depth)) c = .error r) :
    ofLevels P depth c = .error r := by
  rw [ofLevels, h]

end

/-- Productions one behind the other are read at one depth. -/
theorem ofLevels_bind (P : Nested → Parser α) (F : α → Nested → Parser β) :
    ofLevels (fun inner => P inner >>= fun a => F a inner) =
      ofLevels P >>= fun a => ofLevels (F a) := by
  funext depth c
  show ofLevels _ depth c = match ofLevels P depth c with
    | .ok (a, d, depth') => ofLevels (F a) depth' d
    | .error r => .error r
  rcases h : P (.within (Grammar.maxNesting - depth)) c with r | ⟨a, d⟩
  · rw [ofLevels_of_error h, ofLevels_of_error (Parser.bind_of_error h)]
  · rw [ofLevels_of_ok h, ofLevels, Parser.bind_of_ok h]
    rfl

/-- A round of a repetition is read at the depth that the round before leaves. -/
theorem ofLevels_iterate {σ : Type} (step : Nested → σ → Parser (Parser.Round σ α)) (s : σ)
    (depth : Nat) (c : Cursor) :
    ofLevels (fun inner => Parser.iterate (step inner) s) depth c =
      match ofLevels (step · s) depth c with
      | .ok (.done a, d, depth') => .ok (a, d, depth')
      | .ok (.again s', d, depth') =>
        if d.ahead.length < c.ahead.length then
          ofLevels (fun inner => Parser.iterate (step inner) s') depth' d
        else .error ⟨.anyToken, d⟩
      | .error r => .error r := by
  rcases h : step (.within (Grammar.maxNesting - depth)) s c with r | ⟨s' | a, d⟩
  · have hround : ofLevels (step · s) depth c = .error r := ofLevels_of_error h
    rw [hround]
    exact ofLevels_of_error (by rw [Parser.iterate, h])
  · have hround : ofLevels (step · s) depth c = .ok (.again s', d, depth) := ofLevels_of_ok h
    rw [hround]
    dsimp only
    split
    · next hlt => rw [ofLevels, Parser.iterate_of_again h hlt, ofLevels]
    · next hstuck => exact ofLevels_of_error (by rw [Parser.iterate, h]; exact if_neg hstuck)
  · have hround : ofLevels (step · s) depth c = .ok (.done a, d, depth) := ofLevels_of_ok h
    rw [hround]
    exact ofLevels_of_ok (Parser.iterate_of_done h)

/-- A construct that is refused at the last level, and otherwise is a production with one level
less, is that production nested. -/
theorem nested_ofLevels {entry body : Nested → Parser α}
    (hzero : entry (.within 0) = .reject .shallowerNesting)
    (hsucc : ∀ depth, entry (.within (depth + 1)) = body (.within depth)) :
    nested (ofLevels body) = ofLevels entry := by
  funext depth c
  unfold nested
  split
  · next hused =>
    rw [ofLevels, Nat.sub_eq_zero_of_le hused, hzero]
    rfl
  · next hleft =>
    obtain ⟨left, hdepth⟩ : ∃ left, Grammar.maxNesting - depth = left + 1 :=
      ⟨Grammar.maxNesting - depth - 1, by omega⟩
    have hnext : Grammar.maxNesting - (depth + 1) = left := by omega
    rw [ofLevels, ofLevels, hdepth, hnext, hsucc]
    cases body (.within left) c <;> rfl

/-- Each construct that may stand one level further in is a production nested. -/
theorem ofLevels_constructs :
    ofLevels Nested.definition = nested (ofLevels Grammar.definition) ∧
    ofLevels Nested.branch = nested (ofLevels Grammar.statement) ∧
    ofLevels Nested.expression = nested (ofLevels Grammar.assignment) ∧
    ofLevels Nested.conditional = nested (ofLevels Grammar.conditional) ∧
    (∀ least, ofLevels (Nested.operand · least) = nested (ofLevels (Grammar.binary · least))) ∧
    ofLevels Nested.unary = nested (ofLevels Grammar.unary) :=
  ⟨(nested_ofLevels rfl fun _ => rfl).symm, (nested_ofLevels rfl fun _ => rfl).symm,
    (nested_ofLevels rfl fun _ => rfl).symm, (nested_ofLevels rfl fun _ => rfl).symm,
    fun _ => (nested_ofLevels rfl fun _ => rfl).symm, (nested_ofLevels rfl fun _ => rfl).symm⟩

/-- A class, an import, a variable or a statement. -/
def definition : Counting Stmt := nested (ofLevels Grammar.definition)

/-- An expression of any kind. -/
def expression : Counting Expr := nested (ofLevels Grammar.assignment)

/-- A statement. -/
def statement : Counting Stmt := ofLevels Grammar.statement

/-- Statements up to the closing brace. -/
def blockBody : Counting (List Stmt) := ofLevels Grammar.blockBody

/-- A reading at some depth that is not refused for its depth is the same at any lesser depth:
it is refused at the same token for the same want, or comes to the same value and place, with
its own depth again. -/
def OnlyRejects (p : Counting α) : Prop :=
  ∀ (ts : List Token) (i depth depth' : Nat), depth' ≤ depth → depth ≤ Grammar.maxNesting →
    (∀ r, p depth ((Cursor.ofTokens ts).drop i) = .error r → r.expected ≠ .shallowerNesting) →
    (∀ r, p depth ((Cursor.ofTokens ts).drop i) = .error r →
      p depth' ((Cursor.ofTokens ts).drop i) = .error r) ∧
    ∀ a d k, p depth ((Cursor.ofTokens ts).drop i) = .ok (a, d, k) →
      k = depth ∧ p depth' ((Cursor.ofTokens ts).drop i) = .ok (a, d, depth')

end Counting

/-! ### More levels -/

/-- The mark of the end lasts. -/
theorem Cursor.lasting_stop : Lasting fun c => c.stop.kind = .eof where
  stop h := h
  advance h := by
    unfold advance
    split <;> exact h
  skipLines h := h
  skipToLineEnd h := h

/-- The same reading with more levels left, where a rejection for its depth may come to
anything. -/
def Pairing.deeper : Pairing :=
  .same _ Cursor.lasting_stop (fun r o => r.expected = .shallowerNesting ∨ o = some r)
    (fun hr _ => .inl (hr.resolve_right nofun)) fun _ _ => .inr rfl

namespace Pairing

variable {α : Type} {g : α → α} {p p' : Parser α} {c : Cursor}

/-- Where the depth is used up, a deeper reading may come to anything. -/
theorem triple_exhausted : deeper.Mirrors g (.reject .shallowerNesting) p :=
  fun _ _ _ => answers_of_refused fun _ => .inl rfl

/-- Every level may be given more levels. -/
theorem nests_deeper {depth depth' : Nat} (h : depth ≤ depth') :
    deeper.Nests (.within depth) (.within depth') := by
  induction depth generalizing depth' with
  | zero =>
    exact ⟨triple_exhausted, triple_exhausted, triple_exhausted, triple_exhausted,
      fun _ => triple_exhausted, triple_exhausted,
      Nested.refuses_within (by simp [Kind.StartsNothing]) 0⟩
  | succ depth ih =>
    obtain ⟨more, rfl⟩ := Nat.exists_eq_add_of_lt h
    exact (ih (Nat.le_add_right depth more)).succ

/-- A reading that is not refused for its depth is the same with more levels. -/
theorem eq_of_mirrors_deeper (h : deeper.Mirrors g p p') (hg : ∀ a, g a = a)
    (hc : c.stop.kind = .eof) (hr : ∀ r, p c = .error r → r.expected ≠ .shallowerNesting) :
    p' c = p c := by
  have hanswer := h c c ⟨rfl, hc⟩
  rcases hp : p c with r | ⟨a, d⟩
  · rw [hp] at hanswer
    rcases hp' : p' c with r' | x
    · rw [hp'] at hanswer
      exact congrArg Except.error (Option.some.inj (hanswer.resolve_left (hr r hp)))
    · rw [hp'] at hanswer
      cases hanswer.resolve_left (hr r hp)
  · rw [hp] at hanswer
    obtain ⟨d', hd', rfl, -⟩ := hanswer
    rw [hd', hg]

end Pairing

/-! ### The counter -/

namespace Counting

variable {α : Type}

/-- A production that is mirrored if the constructs in it are. -/
theorem onlyRejects_ofLevels {P : Nested → Parser α} {g : α → α} (hg : ∀ a, g a = a)
    (hP : ∀ {inner inner' : Nested}, Pairing.deeper.Nests inner inner' →
      Pairing.deeper.Mirrors g (P inner) (P inner')) : OnlyRejects (ofLevels P) := by
  intro ts i depth depth' hle _ hr
  have hnests := Pairing.nests_deeper (Nat.sub_le_sub_left hle Grammar.maxNesting)
  have heq := Pairing.eq_of_mirrors_deeper (hP hnests) hg (c := (Cursor.ofTokens ts).drop i)
    (Cursor.stopOf_kind ts)
  generalize (Cursor.ofTokens ts).drop i = c at hr heq ⊢
  rcases hp : P (.within (Grammar.maxNesting - depth)) c with r | ⟨a, d⟩
  · rw [ofLevels_of_error hp] at hr ⊢
    have hp' := (heq fun r' hr' => hr r' (by cases hp.symm.trans hr'; rfl)).trans hp
    rw [ofLevels_of_error hp']
    exact ⟨fun _ h => h, fun _ _ _ h => nomatch h⟩
  · have hp' := (heq fun r' hr' => by cases hp.symm.trans hr').trans hp
    rw [ofLevels_of_ok hp, ofLevels_of_ok hp']
    constructor
    · intro r h
      cases h
    · rintro _ _ _ ⟨⟩
      exact ⟨rfl, rfl⟩

/-- **The nesting counter only rejects.**  What a definition, an expression, a statement or the
body of a block comes to at some depth, it comes to at any lesser depth, unless it is refused
for its depth. -/
theorem onlyRejects : OnlyRejects definition ∧ OnlyRejects expression ∧ OnlyRejects statement ∧
    OnlyRejects blockBody := by
  obtain ⟨hdefinition, -, hexpression, -⟩ := ofLevels_constructs
  refine ⟨?_, ?_, ?_, ?_⟩
  · rw [definition, ← hdefinition]
    exact onlyRejects_ofLevels Stmt.mapTokens_id fun h => h.definition
  · rw [expression, ← hexpression]
    exact onlyRejects_ofLevels Expr.mapTokens_id fun h => h.expression
  · exact onlyRejects_ofLevels Stmt.mapTokens_id Grammar.mirrors_statement
  · refine onlyRejects_ofLevels (fun ss => ?_) Grammar.mirrors_blockBody
    exact (mapStmts_eq id ss).symm.trans (mapStmts_id ss)

/-- The body of a block, behind its brace, four levels in front of the last and at the first. -/
theorem onlyRejects_of_block :
    ∃ ss d, blockBody 60 ((Cursor.ofTokens (Token.tokenizePrefix "\x7b a = -b\n\x7d")).drop 1) =
        .ok (ss, d, 60) ∧
      blockBody 0 ((Cursor.ofTokens (Token.tokenizePrefix "\x7b a = -b\n\x7d")).drop 1) =
        .ok (ss, d, 0) := by
  have hread : (blockBody 60
      ((Cursor.ofTokens (Token.tokenizePrefix "\x7b a = -b\n\x7d")).drop 1)).isOk = true := by
    decide +kernel
  have honly := onlyRejects.2.2.2 (Token.tokenizePrefix "\x7b a = -b\n\x7d") 1 60 0
    (by decide) (by decide)
  generalize (Cursor.ofTokens _).drop 1 = c at hread honly ⊢
  rcases h : blockBody 60 c with r | ⟨ss, d, k⟩
  · rw [h] at hread
    cases hread
  · obtain ⟨rfl, hfirst⟩ := (honly fun r hr => nomatch h.symm.trans hr).2 ss d k h
    exact ⟨ss, d, rfl, hfirst⟩

end Counting
end WrenAnalysis
