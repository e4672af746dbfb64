/-
# Operators group as their precedence says

A tree of binary operators is climbed if each operator binds at least as tightly as the place
it stands at wants, one more to its right than to its left (`Climbed`).  What is read as a
module is grouped so everywhere, and no other climbed tree has the same operands and operators
in the same order: its root can only be the last of the loosest operators
(`Climbed.eq_of_flat`).  The operators are read as far as there are any, so what is read is
the only way to group them (`Module.grouping`).
-/

import WrenAnalysis.Proofs.Syntax.Fitting
import WrenAnalysis.Proofs.Syntax.Soundness

namespace WrenAnalysis

/-- The operands of the binary operators of an expression with the operators between them, in
the order of the text. -/
def Expr.flat : Expr → List (Expr ⊕ Token)
  | .binary left operator right => left.flat ++ .inr operator :: right.flat
  | e => [.inl e]

/-- A tree of binary operators that bind at least as tightly as `least`, where those to the
left of an operator bind at least as tightly as it does and those to its right more tightly. -/
inductive Climbed : (least : Nat) → Expr → Prop
  | operand {least : Nat} {e : Expr} : (∀ l o r, e ≠ .binary l o r) → Climbed least e
  | operator {least p : Nat} {l r : Expr} {o : Token} :
      o.kind.precedence = some p → least ≤ p → Climbed p l → Climbed (p + 1) r →
      Climbed least (.binary l o r)

namespace Climbed

variable {least p p' : Nat} {e e' l r l' r' : Expr} {o o' : Token}

/-- An expression without an operator is an operand. -/
theorem flat_operand (h : ∀ l o r, e ≠ .binary l o r) : e.flat = [.inl e] := by
  unfold Expr.flat
  split
  · exact absurd rfl (h _ _ _)
  · rfl

/-- An operation is its left side, its operator and its right side. -/
theorem flat_operator : (Expr.binary l o r).flat = l.flat ++ .inr o :: r.flat := by
  rw [Expr.flat]

/-- The operator of an operation is one of its chain. -/
theorem mem_flat (l : Expr) (o : Token) (r : Expr) : .inr o ∈ (Expr.binary l o r).flat := by
  rw [flat_operator]
  exact List.mem_append_right _ List.mem_cons_self

/-- The operators of a climbed tree bind at least as tightly as it wants. -/
theorem le_of_mem (h : Climbed least e) (ho : .inr o ∈ e.flat) :
    ∃ p, o.kind.precedence = some p ∧ least ≤ p := by
  induction h with
  | operand hne =>
    rw [flat_operand hne] at ho
    simp at ho
  | operator hp hle _ _ ihl ihr =>
    rw [flat_operator] at ho
    rcases List.mem_append.1 ho with ho | ho
    · obtain ⟨q, hq, hpq⟩ := ihl ho
      exact ⟨q, hq, by omega⟩
    · rcases List.mem_cons.1 ho with ho | ho
      · cases ho
        exact ⟨_, hp, hle⟩
      · obtain ⟨q, hq, hpq⟩ := ihr ho
        exact ⟨q, hq, by omega⟩

/-- Where one sequence is split at the roots of two climbed trees, the first root is not in
front of the second: it would have to bind as tightly as the second, which would have to bind
more tightly than the first. -/
theorem eq_nil_of_split {as xs ys : List (Expr ⊕ Token)} (hl' : Climbed p' l')
    (hr : Climbed (p + 1) r) (ho : o.kind.precedence = some p) (ho' : o'.kind.precedence = some p')
    (hleft : l'.flat = xs ++ as) (hright : .inr o :: r.flat = as ++ .inr o' :: ys) : as = [] := by
  rcases as with _ | ⟨a, as⟩
  · rfl
  · obtain ⟨rfl, htail⟩ := List.cons.inj hright
    obtain ⟨q, hq, hle⟩ := hl'.le_of_mem (o := o) (by simp [hleft])
    obtain ⟨q', hq', hle'⟩ := hr.le_of_mem (o := o') (by simp [htail])
    cases ho.symm.trans hq
    cases ho'.symm.trans hq'
    omega

/-- A climbed tree is determined by its operands and operators and their order. -/
theorem eq_of_flat {least' : Nat} (h : Climbed least e) (h' : Climbed least' e')
    (hflat : e.flat = e'.flat) : e = e' := by
  induction h generalizing least' e' with
  | operand hne =>
    rw [flat_operand hne] at hflat
    cases h' with
    | operand hne' =>
      rw [flat_operand hne'] at hflat
      exact Sum.inl.inj (List.singleton_inj.1 hflat)
    | @operator _ _ l r o =>
      have ho := mem_flat l o r
      rw [← hflat] at ho
      simp at ho
  | @operator least p l r o hp _ hl hr ihl ihr =>
    cases h' with
    | operand hne' =>
      have ho := mem_flat l o r
      rw [hflat, flat_operand hne'] at ho
      simp at ho
    | @operator _ p' l' r' o' hp' _ hl' hr' =>
      rw [flat_operator, flat_operator] at hflat
      have hsplit : l.flat = l'.flat ∧ Sum.inr o :: r.flat = .inr o' :: r'.flat := by
        rcases List.append_eq_append_iff.1 hflat with ⟨as, hleft, hright⟩ | ⟨as, hleft, hright⟩
        · have has := eq_nil_of_split hl' hr hp hp' hleft hright
          subst has
          exact ⟨by rw [hleft, List.append_nil], hright⟩
        · have has := eq_nil_of_split hl hr' hp' hp hleft hright
          subst has
          exact ⟨by rw [hleft, List.append_nil], hright.symm⟩
      obtain ⟨ho, hr'eq⟩ := List.cons.inj hsplit.2
      rw [ihl hl' hsplit.1, Sum.inr.inj ho, ihr hr' hr'eq]

end Climbed

/-- What is grouped everywhere is climbed. -/
theorem Fits.climbed {levels least : Nat} {x : Node} {e : Expr} (h : Fits levels x)
    (hx : x = .expr e) (hleast : e.BindsAtLeast least) : Climbed least e := by
  induction h generalizing e least with
  | mk hgrouped _ _ ihlink ihparts =>
    subst hx
    cases hleast with
    | tight he =>
      refine .operand fun l o r heq => ?_
      subst heq
      cases he
    | binary hp hle =>
      obtain ⟨p, hp', hleft, hright⟩ := hgrouped
      cases hp.symm.trans hp'
      exact .operator hp hle (ihlink _ rfl rfl hleft)
        (ihparts _ List.mem_cons_self rfl hright)

/-- Binary operators are numbered from one. -/
theorem Kind.precedence_pos {k : Kind} {p : Nat} (h : k.precedence = some p) : 1 ≤ p := by
  unfold precedence at h
  split at h <;> first | (cases h; decide) | cases h

namespace Module

/-- **Operators group by precedence, and in one way only.**  Every node of a module that is read
is grouped as precedence demands.  Climbed trees with the same operands and operators in the
same order are equal.  And what is read as operands with operators between them goes on to
where no operator follows, and is the only climbed tree with these operands and operators. -/
theorem grouping :
    (∀ ts m, ofTokens ts = .ok m → ∀ x, m.Has x → Grouped x) ∧
    (∀ least e e', Climbed least e → Climbed least e' → e.flat = e'.flat → e = e') ∧
    ∀ depth c e d, Grammar.binary (.within depth) 1 c = .ok (e, d) →
      d.current.kind.precedence = none ∧
      (c.stop.kind = .eof → ∃ us, c.ahead = us ++ d.ahead ∧ Derives (.expr e) us) ∧
      Climbed 1 e ∧ ∀ e', Climbed 1 e' → e'.flat = e.flat → e' = e := by
  refine ⟨fun ts m hm x hx => ?_, fun least e e' h h' => h.eq_of_flat h', fun depth c e d h => ?_⟩
  · obtain ⟨s, hs, hx⟩ := hx
    exact ((fits_ofTokens hm s hs).of_has hx).grouped
  · obtain ⟨hfits, hleast, hlooser⟩ := Grammar.fits_binary (Nested.fitting_within depth) 1 c e d h
    have hclimbed := hfits.climbed rfl hleast
    refine ⟨?_, fun hstop => ?_, hclimbed, fun e' he' hflat => he'.eq_of_flat hclimbed hflat⟩
    · cases hp : d.current.kind.precedence with
      | none => rfl
      | some p =>
        have hpos := Kind.precedence_pos hp
        have hlt := hlooser p hp
        omega
    · obtain ⟨us, hus, -, hderives⟩ :=
        Grammar.reads_binary (Nested.sound_within depth) 1 c hstop e d h
      exact ⟨us, hus, hderives⟩

/-- Two differences and a product. -/
theorem grouping_of_difference :
    ∃ e d, Grammar.binary (.within 3) 1 (.ofTokens (Token.tokenizePrefix "a - b - c * d")) =
        .ok (e, d) ∧
      d.current.kind.precedence = none ∧ ∀ e', Climbed 1 e' → e'.flat = e.flat → e' = e := by
  have hread : (Grammar.binary (.within 3) 1
      (.ofTokens (Token.tokenizePrefix "a - b - c * d"))).isOk = true := by decide +kernel
  rcases h : Grammar.binary (.within 3) 1 (.ofTokens (Token.tokenizePrefix "a - b - c * d")) with
    r | ⟨e, d⟩
  · rw [h] at hread
    cases hread
  · obtain ⟨hnext, -, -, hunique⟩ := grouping.2.2 3 _ e d h
    exact ⟨e, d, rfl, hnext, hunique⟩

end Module
end WrenAnalysis
