/-
# Parsing does not look at positions

Reading tokens with other positions is a firm pairing (`Pairing.ofMap`), so what is read
there is what was read before with its tokens moved, whether it is a module or a rejection
(`Grammar.module_map`).
-/

import WrenAnalysis.Proofs.Syntax.Mirrored

namespace WrenAnalysis

/-- The function keeps what the grammar looks at. -/
structure Token.KeepsWords (f : Token → Token) : Prop where
  kind : ∀ t, (f t).kind = t.kind
  text : ∀ t, (f t).text = t.text

namespace Cursor

/-- The cursor with `f` applied to each of its tokens. -/
def map (f : Token → Token) (c : Cursor) : Cursor := ⟨c.ahead.map f, f c.stop⟩

variable {f : Token → Token} {c : Cursor}

/-- The current token is changed like the others. -/
theorem current_map : (c.map f).current = f c.current := by
  obtain ⟨_ | ⟨t, ts⟩, stop⟩ := c <;> rfl

/-- Tokens that keep their kinds are taken alike. -/
theorem advance_map (hf : ∀ t, (f t).kind = t.kind) : (c.map f).advance = c.advance.map f := by
  have hend : (c.map f).atEnd = c.atEnd := by
    rw [atEnd, atEnd, current_map, hf]
    simp [map]
  unfold advance
  rw [hend]
  split
  · rfl
  · simp [map]

/-- Newlines among tokens that keep their kinds are skipped alike. -/
theorem skipLines_map (hf : ∀ t, (f t).kind = t.kind) :
    (c.map f).skipLines = c.skipLines.map f := by
  simp [skipLines, map, List.dropWhile_map, Function.comp_def, hf]

/-- Lines of tokens that keep their kinds are skipped alike. -/
theorem skipToLineEnd_map (hf : ∀ t, (f t).kind = t.kind) :
    (c.map f).skipToLineEnd = c.skipToLineEnd.map f := by
  simp [skipToLineEnd, map, List.dropWhile_map, Function.comp_def, hf]

end Cursor

def Rejection.map (f : Token → Token) (r : Rejection) : Rejection := ⟨r.expected, r.cursor.map f⟩

/-- What reading a module comes to. -/
abbrev Module.Reading : Type := Except Rejection (Module × Cursor)

/-- The reading with `f` applied to each of its tokens. -/
def Module.Reading.map (f : Token → Token) : Reading → Reading
  | .ok (m, d) => .ok (m.mapTokens f, d.map f)
  | .error r => .error (r.map f)

/-- Tokens beside the same tokens under `f`.  What is refused is refused at the same place. -/
def Pairing.ofMap (f : Token → Token) (hf : Token.KeepsWords f) : Pairing where
  relabel := f
  Beside c c' := c' = c.map f ∧ c.stop.kind = .eof
  Apart _ _ := False
  Excuses r o := o = some ⟨r.expected, r.cursor.map f⟩
  surplus := 0
  relabel_kind := hf.kind
  relabel_text := hf.text
  stop := by
    rintro c _ ⟨rfl, hstop⟩
    exact ⟨hstop, (hf.kind _).trans hstop⟩
  length := by
    rintro c _ ⟨rfl, -⟩
    simp [Cursor.map]
  length_apart := nofun
  take := by
    rintro c _ ⟨rfl, hstop⟩ -
    refine ⟨Cursor.current_map, Cursor.advance_map hf.kind, ?_⟩
    unfold Cursor.advance
    split <;> exact hstop
  atEnd := by
    rintro c _ ⟨rfl, -⟩ hend
    rw [Cursor.current_map, hf.kind]
    exact .inl hend
  skipLines := by
    rintro c _ ⟨rfl, hstop⟩
    exact .inl ⟨Cursor.skipLines_map hf.kind, hstop⟩
  skipToLineEnd := by
    rintro c _ ⟨rfl, hstop⟩
    exact ⟨Cursor.skipToLineEnd_map hf.kind, hstop⟩
  apart := nofun
  excuse := nofun
  refuse := by
    rintro c _ e ⟨rfl, -⟩
    rfl

/-- A reading beside one with other places is firm. -/
theorem Pairing.firm_ofMap {f : Token → Token} (hf : Token.KeepsWords f) :
    (Pairing.ofMap f hf).Firm where
  beside := by
    rintro c c' (hc | hc)
    · exact hc
    · exact hc.elim
  atEnd := by
    rintro c _ ⟨rfl, -⟩ hend
    rw [Cursor.current_map, hf.kind, hend]

/-- Moving the tokens of a cursor moves what is read there. -/
theorem Grammar.module_map {f : Token → Token} (hf : Token.KeepsWords f) (depth : Nat)
    {c : Cursor} (hc : c.stop.kind = .eof) :
    Grammar.module (.within depth) (c.map f) =
      Module.Reading.map f (Grammar.module (.within depth) c) := by
  have hnests := (Pairing.ofMap f hf).nests_within depth
  have hanswer := (Pairing.firm_ofMap hf).mirrors_module hnests c (c.map f) ⟨rfl, hc⟩
  rcases h : Grammar.module (.within depth) c with r | ⟨m, d⟩
  · rw [h] at hanswer
    rcases h' : Grammar.module (.within depth) (c.map f) with r' | x
    · rw [h'] at hanswer
      exact congrArg Except.error (Option.some.inj hanswer)
    · rw [h'] at hanswer
      cases hanswer
  · rw [h] at hanswer
    obtain ⟨_, hd', rfl, -⟩ := hanswer
    exact hd'

end WrenAnalysis
