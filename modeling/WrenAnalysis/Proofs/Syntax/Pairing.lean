/-
# Two readings side by side

Many facts about the grammar compare two readings: of the same tokens at other places, of
tokens with more behind them, of the same tokens with more levels of nesting left.  A
`Pairing` says when two cursors go with each other and what the second reading may come to
where the first is refused.  `Pairing.Triple` is the relational triple over it, with a rule
for each way of building a parser.

The one thing that can go apart are newlines: the first cursor may come to its end while
the second goes on behind them.  What is read there has to be refused by the end
(`Parser.Hungry`).
-/

import WrenAnalysis.Proofs.Syntax.Parser

namespace WrenAnalysis

namespace Parser

/-- A round with other states and values. -/
def Round.map {σ τ α β : Type} (g : σ → τ) (h : α → β) : Round σ α → Round τ β
  | .again s => .again (g s)
  | .done a => .done (h a)

end Parser

open WrenAnalysis.Parser

/-- A way to read two lists of tokens side by side. -/
structure Pairing where
  /-- What a token of the first list is in the second. -/
  relabel : Token → Token
  /-- The cursors are at places that go with each other. -/
  Beside : Cursor → Cursor → Prop
  /-- The first cursor is at its end, and the second has gone on behind newlines. -/
  Apart : Cursor → Cursor → Prop
  /-- What the second reading may come to where the first one is refused: another rejection,
  or none if it goes on. -/
  Excuses : Rejection → Option Rejection → Prop
  /-- The number of tokens that the second list has more. -/
  surplus : Nat
  relabel_kind : ∀ t, (relabel t).kind = t.kind
  relabel_text : ∀ t, (relabel t).text = t.text
  stop : ∀ {c c'}, Beside c c' → c.stop.kind = .eof ∧ c'.stop.kind = .eof
  length : ∀ {c c'}, Beside c c' → c'.ahead.length = c.ahead.length + surplus
  length_apart : ∀ {c c'}, Apart c c' → c'.ahead.length ≤ c.ahead.length + surplus
  take : ∀ {c c'}, Beside c c' → c.current.kind ≠ .eof →
    c'.current = relabel c.current ∧ Beside c.advance c'.advance
  /-- Where the first list ends, the second ends or goes on with a newline. -/
  atEnd : ∀ {c c'}, Beside c c' → c.current.kind = .eof →
    c'.current.kind = .eof ∨ c'.current.kind = .line ∧ ∀ r o, Excuses r o
  skipLines : ∀ {c c'}, Beside c c' →
    Beside c.skipLines c'.skipLines ∨ Apart c.skipLines c'.skipLines
  skipToLineEnd : ∀ {c c'}, Beside c c' → Beside c.skipToLineEnd c'.skipToLineEnd
  /-- Nothing that continues an earlier line stands behind the newlines. -/
  apart : ∀ {c c'}, Apart c c' → c.current.kind = .eof ∧
    c'.current.kind ∉ [.symbol .dot, .keyword .else_] ∧ ∀ r o, Excuses r o
  /-- A reading that may go on may end in any way. -/
  excuse : ∀ {r}, Excuses r none → ∀ o, Excuses r o
  refuse : ∀ {c c'} (e : Expectation), Beside c c' → Excuses ⟨e, c⟩ (some ⟨e, c'⟩)

/-! ### One reading beside itself -/

/-- What holds of a cursor in front of an end also holds further on. -/
structure Cursor.Lasting (P : Cursor → Prop) : Prop where
  stop : ∀ {c}, P c → c.stop.kind = .eof
  advance : ∀ {c}, P c → P c.advance
  skipLines : ∀ {c}, P c → P c.skipLines
  skipToLineEnd : ∀ {c}, P c → P c.skipToLineEnd

/-- A token that is left alone keeps its kind. -/
theorem Token.kind_id (t : Token) : (id t).kind = t.kind := rfl

/-- A token that is left alone keeps its text. -/
theorem Token.text_id (t : Token) : (id t).text = t.text := rfl

/-- Cursors that never part have nothing to compare. -/
theorem Cursor.length_of_false {c c' : Cursor} (h : False) :
    c'.ahead.length ≤ c.ahead.length + 0 := h.elim

/-- The same tokens on both sides, at cursors where `P` holds. -/
def Pairing.same (P : Cursor → Prop) (hP : Cursor.Lasting P)
    (Excuses : Rejection → Option Rejection → Prop)
    (hexcuse : ∀ {r}, Excuses r none → ∀ o, Excuses r o)
    (hrefuse : ∀ {c} (e : Expectation), P c → Excuses ⟨e, c⟩ (some ⟨e, c⟩)) : Pairing where
  relabel := id
  Beside c c' := c' = c ∧ P c
  Apart _ _ := False
  Excuses := Excuses
  surplus := 0
  relabel_kind := Token.kind_id
  relabel_text := Token.text_id
  stop := by
    rintro c _ ⟨rfl, hc⟩
    exact ⟨hP.stop hc, hP.stop hc⟩
  length := by
    rintro c _ ⟨rfl, -⟩
    rfl
  length_apart := @Cursor.length_of_false
  take := by
    rintro c _ ⟨rfl, hc⟩ -
    exact ⟨rfl, rfl, hP.advance hc⟩
  atEnd := by
    rintro c _ ⟨rfl, -⟩ hend
    exact .inl hend
  skipLines := by
    rintro c _ ⟨rfl, hc⟩
    exact .inl ⟨rfl, hP.skipLines hc⟩
  skipToLineEnd := by
    rintro c _ ⟨rfl, hc⟩
    exact ⟨rfl, hP.skipToLineEnd hc⟩
  apart := nofun
  excuse := hexcuse
  refuse := by
    rintro c _ e ⟨rfl, hc⟩
    exact hrefuse e hc

namespace Pairing

variable (K : Pairing) {α β γ δ σ τ : Type} {P P' : Cursor → Cursor → Prop}

/-- The second answer goes with the first: with the value that `g` gives, at a place that
`Q` allows. -/
def Answers (g : α → β) (Q : α → Cursor → Cursor → Prop) :
    Except Rejection (α × Cursor) → Except Rejection (β × Cursor) → Prop
  | .ok (a, d), r => ∃ d', r = .ok (g a, d') ∧ Q a d d'
  | .error r, .ok _ => K.Excuses r none
  | .error r, .error r' => K.Excuses r (some r')

/-- From cursors that go with each other by `P`, the second parser answers as the first. -/
def Triple (P : Cursor → Cursor → Prop) (g : α → β) (Q : α → Cursor → Cursor → Prop)
    (p : Parser α) (p' : Parser β) : Prop :=
  ∀ c c', P c c' → K.Answers g Q (p c) (p' c')

/-- The second parser reads as the first, side by side. -/
def Mirrors (g : α → β) (p : Parser α) (p' : Parser β) : Prop :=
  K.Triple K.Beside g (fun _ => K.Beside) p p'

/-- Side by side, with the first cursor at a token of kind `k`. -/
def At (k : Kind) (c c' : Cursor) : Prop := K.Beside c c' ∧ c.current.kind = k

/-- Side by side, but for newlines behind the end of the first list. -/
def Ends (c c' : Cursor) : Prop := K.Beside c c' ∨ K.Apart c c'

variable {K} {g : α → β} {h : γ → δ} {Q : α → Cursor → Cursor → Prop}
  {R : γ → Cursor → Cursor → Prop} {p : Parser α} {p' : Parser β}

/-! ### Structural rules -/

/-- Fewer cursors may be asked for. -/
theorem Triple.mono (hp : K.Triple P g Q p p') (hP : ∀ c c', P' c c' → P c c') :
    K.Triple P' g Q p p' := fun c c' hc => hp c c' (hP c c' hc)

/-- More places may be allowed behind. -/
theorem Triple.post {Q' : α → Cursor → Cursor → Prop} (hp : K.Triple P g Q p p')
    (hQ : ∀ a c c', Q a c c' → Q' a c c') : K.Triple P g Q' p p' := by
  intro c c' hc
  have hpc := hp c c' hc
  rcases hr : p c with r | ⟨a, d⟩ <;> rw [hr] at hpc
  · cases hr' : p' c' <;> rw [hr'] at hpc <;> exact hpc
  · obtain ⟨d', hd', hQd⟩ := hpc
    exact ⟨d', hd', hQ a d d' hQd⟩

/-- What the pairing excuses may come to anything. -/
theorem answers_of_refused {r : Rejection} {x : Except Rejection (β × Cursor)}
    (hr : ∀ o, K.Excuses r o) : K.Answers g Q (.error r) x := by
  cases x with
  | ok a => exact hr none
  | error r' => exact hr (some r')

/-- Values that go with each other answer each other. -/
theorem triple_pure {a : α} {b : β} (hab : b = g a) (hP : ∀ c c', P c c' → Q a c c') :
    K.Triple P g Q (pure a) (pure b) := by
  subst hab
  exact fun c c' hc => ⟨c', rfl, hP c c' hc⟩

/-- Values leave the cursors where they are. -/
theorem triple_value {a : α} {b : β} (hab : b = g a) :
    K.Triple P g (fun _ => P) (pure a) (pure b) := triple_pure hab fun _ _ hc => hc

/-- Parsers side by side are followed by parsers side by side. -/
theorem triple_bind {F : α → Parser γ} {F' : β → Parser δ} (hp : K.Triple P g Q p p')
    (hF : ∀ a, K.Triple (Q a) h R (F a) (F' (g a))) : K.Triple P h R (p >>= F) (p' >>= F') := by
  intro c c' hc
  have hpc := hp c c' hc
  cases hr : p c with
  | ok x =>
    obtain ⟨a, d⟩ := x
    rw [hr] at hpc
    obtain ⟨d', hd', hQ⟩ := hpc
    rw [bind_of_ok hr, bind_of_ok hd']
    exact hF a d d' hQ
  | error r =>
    rw [hr] at hpc
    rw [bind_of_error hr]
    cases hr' : p' c' with
    | ok x =>
      rw [hr'] at hpc
      exact answers_of_refused (K.excuse hpc)
    | error r' =>
      rw [hr'] at hpc
      rw [bind_of_error hr']
      exact hpc

/-- Values that are dressed alike still go with each other. -/
theorem triple_map {f : α → γ} {f' : β → δ} (hp : K.Triple P g Q p p')
    (hf : ∀ a, f' (g a) = h (f a)) (hR : ∀ a c c', Q a c c' → R (f a) c c') :
    K.Triple P h R (f <$> p) (f' <$> p') :=
  triple_bind hp fun a => triple_pure (hf a) (hR a)

/-- What is refused at cursors beside each other is refused alike. -/
theorem triple_reject (e : Expectation) : K.Triple K.Beside g Q (reject e) (reject e) :=
  fun _ _ hc => K.refuse e hc

/-- What refuses the end may be read behind newlines. -/
theorem Triple.ends (hp : K.Triple K.Beside g Q p p') (hungry : Hungry p) :
    K.Triple K.Ends g Q p p' := by
  rintro c c' (hc | hc)
  · exact hp c c' hc
  · obtain ⟨hend, -, hlax⟩ := K.apart hc
    obtain ⟨r, hr⟩ := hungry c hend
    rw [hr]
    exact answers_of_refused (hlax r)

/-! ### One token -/

/-- Cursors beside each other see tokens of one kind, unless the first is at its end. -/
theorem Beside.kind {c c' : Cursor} (hc : K.Beside c c') (hk : c.current.kind ≠ .eof) :
    c'.current.kind = c.current.kind := by
  rw [(K.take hc hk).1, K.relabel_kind]

/-- A kind that is neither the end nor a newline is seen on both sides or on neither. -/
theorem Beside.kind_eq_iff {c c' : Cursor} (hc : K.Beside c c') {k : Kind}
    (hk : k ≠ .eof ∧ k ≠ .line) : c'.current.kind = k ↔ c.current.kind = k := by
  by_cases hend : c.current.kind = .eof
  · have hne : c'.current.kind ≠ k := by
      rcases K.atEnd hc hend with h | ⟨h, -⟩ <;> rw [h]
      · exact hk.1.symm
      · exact hk.2.symm
    exact iff_of_false hne (hend ▸ hk.1.symm)
  · rw [Beside.kind hc hend]

/-- Cursors beside each other see the same symbol. -/
theorem Beside.symbol_iff {c c' : Cursor} (hc : K.Beside c c') (s : Symbol) :
    c'.current.kind = .symbol s ↔ c.current.kind = .symbol s :=
  Beside.kind_eq_iff hc (by simp)

/-- The kind of a token decides on both sides alike.  Behind the end of the first list there
may be a newline. -/
theorem triple_kind {F : Kind → Parser γ} {F' : Kind → Parser δ}
    (hF : ∀ k, K.Triple (K.At k) h R (F k) (F' k))
    (hline : ∀ c c', K.At .eof c c' → c'.current.kind = .line →
      K.Answers h R (F .eof c) (F' .line c')) :
    K.Triple K.Beside h R (kind >>= F) (kind >>= F') := by
  intro c c' hc
  show K.Answers h R (F c.current.kind c) (F' c'.current.kind c')
  by_cases hend : c.current.kind = .eof
  · rcases K.atEnd hc hend with hk | ⟨hk, -⟩
    · rw [hk, ← hend]
      exact hF _ c c' ⟨hc, rfl⟩
    · rw [hk, hend]
      exact hline c c' ⟨hc, hend⟩ hk
  · rw [Beside.kind hc hend]
    exact hF _ c c' ⟨hc, rfl⟩

/-- If a newline decides as the end does, nothing has to be said of it. -/
theorem triple_kind_of_line {F : Kind → Parser γ} {F' : Kind → Parser δ}
    (hline : F' .line = F' .eof) (hF : ∀ k, K.Triple (K.At k) h R (F k) (F' k)) :
    K.Triple K.Beside h R (kind >>= F) (kind >>= F') :=
  triple_kind hF fun c c' hc _ => by rw [hline]; exact hF .eof c c' hc

/-- Tokens beside each other are taken side by side. -/
theorem triple_take {k : Kind} (hk : k ≠ .eof) :
    K.Triple (K.At k) K.relabel (fun _ => K.Beside) Parser.take Parser.take := by
  rintro c c' ⟨hc, rfl⟩
  obtain ⟨hcurrent, hadvance⟩ := K.take hc hk
  exact ⟨c'.advance, by rw [Parser.take, hcurrent], hadvance⟩

/-- A token that may be missing is there on both sides or on none. -/
theorem triple_accept {A B : Parser γ} {A' B' : Parser δ} {k : Kind}
    (hk : k ≠ .eof ∧ k ≠ .line) (hA : K.Triple K.Beside h R A A')
    (hB : K.Triple K.Beside h R B B') :
    K.Triple K.Beside h R (accept k >>= fun b => if b = true then A else B)
      (accept k >>= fun b => if b = true then A' else B') := by
  intro c c' hc
  have hiff := Beside.kind_eq_iff hc hk
  by_cases hck : c.current.kind = k
  · have hyes : accept k c = .ok (true, c.advance) := if_pos hck
    have hyes' : accept k c' = .ok (true, c'.advance) := if_pos (hiff.2 hck)
    rw [bind_of_ok hyes, bind_of_ok hyes']
    exact hA _ _ (K.take hc (hck ▸ hk.1)).2
  · have hno : accept k c = .ok (false, c) := if_neg hck
    have hno' : accept k c' = .ok (false, c') := if_neg (mt hiff.1 hck)
    rw [bind_of_ok hno, bind_of_ok hno']
    exact hB _ _ hc

/-- A part that is there behind a token of kind `k`, and else is missing. -/
theorem triple_optional {A : Parser α} {A' : Parser β} {J : Option α → Parser γ}
    {J' : Option β → Parser δ} {k : Kind} (hk : k ≠ .eof ∧ k ≠ .line)
    (hA : K.Mirrors g A A') (hJ : ∀ o, K.Triple K.Beside h R (J o) (J' (o.map g))) :
    K.Triple K.Beside h R
      (accept k >>= fun b => if b = true then some <$> A >>= J else pure none >>= J)
      (accept k >>= fun b => if b = true then some <$> A' >>= J' else pure none >>= J') :=
  triple_accept hk
    (triple_bind (triple_map hA (fun _ => rfl) fun _ _ _ hc => hc) hJ) (hJ none)

/-- A kind that is neither the end nor a newline is looked for on both sides. -/
theorem triple_kindIf {A B : Parser γ} {A' B' : Parser δ} {k : Kind}
    (hk : k ≠ .eof ∧ k ≠ .line) (hA : K.Triple (K.At k) h R A A')
    (hB : K.Triple K.Beside h R B B') :
    K.Triple K.Beside h R (kind >>= fun k' => if k' = k then A else B)
      (kind >>= fun k' => if k' = k then A' else B') := by
  intro c c' hc
  have hiff := Beside.kind_eq_iff hc hk
  show K.Answers h R ((if c.current.kind = k then A else B) c)
    ((if c'.current.kind = k then A' else B') c')
  by_cases hck : c.current.kind = k
  · rw [if_pos hck, if_pos (hiff.2 hck)]
    exact hA c c' ⟨hc, hck⟩
  · rw [if_neg hck, if_neg (mt hiff.1 hck)]
    exact hB c c' hc

/-- A token that is expected is there on both sides or on none. -/
theorem mirrors_expect {k : Kind} (e : Expectation) (hk : k ≠ .eof ∧ k ≠ .line) :
    K.Mirrors K.relabel (expect k e) (expect k e) := by
  intro c c' hc
  have hiff := Beside.kind_eq_iff hc hk
  unfold expect
  by_cases hck : c.current.kind = k
  · obtain ⟨hcurrent, hadvance⟩ := K.take hc (hck ▸ hk.1)
    rw [if_pos hck, if_pos (hiff.2 hck)]
    exact ⟨c'.advance, by rw [hcurrent], hadvance⟩
  · rw [if_neg hck, if_neg (mt hiff.1 hck)]
    exact K.refuse e hc

/-- A name that is expected is there on both sides or on none. -/
theorem mirrors_name (e : Expectation) : K.Mirrors K.relabel (name e) (name e) :=
  mirrors_expect e (by simp)

/-- The token behind one of kind `k'` is looked at on both sides. -/
theorem triple_secondIf {A B : Parser γ} {A' B' : Parser δ} {k k' : Kind} (hk' : k' ≠ .eof)
    (hk : k ≠ .eof ∧ k ≠ .line)
    (hA : K.Triple (fun c c' => K.At k' c c' ∧ K.At k c.advance c'.advance) h R A A')
    (hB : K.Triple (K.At k') h R B B') :
    K.Triple (K.At k') h R (secondKind >>= fun k'' => if k'' = k then A else B)
      (secondKind >>= fun k'' => if k'' = k then A' else B') := by
  rintro c c' ⟨hc, rfl⟩
  obtain ⟨hstop, hstop'⟩ := K.stop hc
  have hadvance := (K.take hc hk').2
  have hiff := Beside.kind_eq_iff hadvance hk
  rw [Cursor.current_advance hstop hk',
    Cursor.current_advance hstop' (Beside.kind hc hk' ▸ hk')] at hiff
  show K.Answers h R ((if c.second.kind = k then A else B) c)
    ((if c'.second.kind = k then A' else B') c')
  by_cases hsecond : c.second.kind = k
  · rw [if_pos hsecond, if_pos (hiff.2 hsecond)]
    refine hA c c' ⟨⟨hc, rfl⟩, hadvance, ?_⟩
    rw [Cursor.current_advance hstop hk', hsecond]
  · rw [if_neg hsecond, if_neg (mt hiff.1 hsecond)]
    exact hB c c' ⟨hc, rfl⟩

/-- The end of the first list is refused where the rest is read. -/
theorem triple_unlessAtEnd {A : Parser γ} {A' : Parser δ} (e : Expectation)
    (hA : K.Triple K.Beside h R A A') :
    K.Triple K.Beside h R (Parser.atEnd >>= fun b => if b = true then reject e else A)
      (Parser.atEnd >>= fun b => if b = true then reject e else A') := by
  intro c c' hc
  obtain ⟨hstop, hstop'⟩ := K.stop hc
  have hat : Parser.atEnd c = .ok (c.atEnd, c) := rfl
  have hat' : Parser.atEnd c' = .ok (c'.atEnd, c') := rfl
  rw [bind_of_ok hat, bind_of_ok hat']
  by_cases hend : c.current.kind = .eof
  · rw [Cursor.atEnd_of_kind hend]
    rcases K.atEnd hc hend with hk | ⟨-, hlax⟩
    · rw [Cursor.atEnd_of_kind hk]
      exact K.refuse e hc
    · exact answers_of_refused (hlax _)
  · have hno : c.atEnd = false := by
      rw [← Bool.not_eq_true, Cursor.atEnd_iff hstop]
      exact hend
    have hno' : c'.atEnd = false := by
      rw [← Bool.not_eq_true, Cursor.atEnd_iff hstop', Beside.kind hc hend]
      exact hend
    rw [hno, hno']
    exact hA c c' hc

/-! ### Newlines -/

/-- Newlines are skipped side by side, but for those behind the end of the first list. -/
theorem triple_skipLines :
    K.Triple K.Beside id (fun _ => K.Ends) Parser.skipLines Parser.skipLines :=
  fun _ c' hc => ⟨c'.skipLines, rfl, K.skipLines hc⟩

/-- What follows newlines refuses the end. -/
theorem triple_skipLines_bind {A : Parser γ} {A' : Parser δ} (hA : K.Triple K.Beside h R A A')
    (hungry : Hungry A) :
    K.Triple K.Beside h R (Parser.skipLines >>= fun _ => A) (Parser.skipLines >>= fun _ => A') :=
  triple_bind triple_skipLines fun _ => hA.ends hungry

/-- Attributes are skipped side by side. -/
theorem mirrors_skipAttribute : K.Mirrors id skipAttribute skipAttribute :=
  fun _ c' hc => ⟨c'.skipToLineEnd, rfl, K.skipToLineEnd hc⟩

/-- Behind newlines, both sides see what continues a line, or neither does. -/
theorem skipLines_kind_iff {c c' : Cursor} (hc : K.Beside c c') {k : Kind}
    (hk : k ∈ [.symbol .dot, .keyword .else_]) :
    c'.skipLines.current.kind = k ↔ c.skipLines.current.kind = k := by
  have hne : k ≠ .eof ∧ k ≠ .line := by
    simp only [List.mem_cons, List.not_mem_nil, or_false] at hk
    rcases hk with rfl | rfl <;> exact ⟨by decide, by decide⟩
  rcases K.skipLines hc with hs | hs
  · exact Beside.kind_eq_iff hs hne
  · obtain ⟨hend, hno, -⟩ := K.apart hs
    exact iff_of_false (fun h => hno (h ▸ hk)) (hend ▸ hne.1.symm)

/-- Behind the end of the first list, nothing continues its last line. -/
theorem skipLinesBefore_of_atEnd {c c' : Cursor} (hc : K.At .eof c c') {k : Kind}
    (hk : k ∈ [.symbol .dot, .keyword .else_]) : skipLinesBefore k c' = .ok (false, c') := by
  have hno : c'.skipLines.current.kind ≠ k := by
    rw [Ne, skipLines_kind_iff hc.1 hk, Cursor.skipLines_of_kind hc.2, hc.2]
    rintro rfl
    simp at hk
  exact if_neg fun h => hno h.2

/-- Newlines before some token are skipped on both sides or on none. -/
theorem mirrors_skipLinesBefore {k : Kind} (hk : k ∈ [.symbol .dot, .keyword .else_]) :
    K.Mirrors id (skipLinesBefore k) (skipLinesBefore k) := by
  intro c c' hc
  have hiff := skipLines_kind_iff hc hk
  by_cases hend : c.current.kind = .eof
  · have hno : skipLinesBefore k c = .ok (false, c) := if_neg fun h => by simp [hend] at h
    rw [hno, skipLinesBefore_of_atEnd ⟨hc, hend⟩ hk]
    exact ⟨c', rfl, hc⟩
  · unfold skipLinesBefore
    rw [Beside.kind hc hend]
    by_cases hline : c.current.kind = .line ∧ c.skipLines.current.kind = k
    · rw [if_pos hline, if_pos ⟨hline.1, hiff.2 hline.2⟩]
      rcases K.skipLines hc with hs | hs
      · exact ⟨c'.skipLines, rfl, hs⟩
      · have hkind := (K.apart hs).1
        rw [hline.2] at hkind
        simp [hkind] at hk
    · rw [if_neg hline, if_neg fun h => hline ⟨h.1, hiff.1 h.2⟩]
      exact ⟨c', rfl, hc⟩

/-! ### Repetition -/

/-- Where a round ends: another one may follow from `P`. -/
def roundEnds (P : Cursor → Cursor → Prop) (K : Pairing) :
    Round σ α → Cursor → Cursor → Prop
  | .again _ => P
  | .done _ => K.Beside

/-- A round that asks for another one. -/
theorem triple_again {f : σ → τ} {s : σ} {t : τ} (hst : t = f s) :
    K.Triple P (Round.map f g) (roundEnds P K) (pure (.again s)) (pure (.again t)) :=
  triple_pure (congrArg Round.again hst) fun _ _ hc => hc

/-- The last round. -/
theorem triple_done {f : σ → τ} {a : α} {b : β} (hab : b = g a) :
    K.Triple K.Beside (Round.map f g) (roundEnds P K) (pure (.done a)) (pure (.done b)) :=
  triple_pure (congrArg Round.done hab) fun _ _ hc => hc

variable {step : σ → Parser (Round σ α)} {step' : τ → Parser (Round τ β)} (f : σ → τ)

/-- Where the first list ends, the second has no more ahead than its surplus. -/
theorem Ends.length_le {c c' : Cursor} (hc : K.Ends c c') :
    c'.ahead.length ≤ c.ahead.length + K.surplus :=
  hc.elim (fun h => Nat.le_of_eq (K.length h)) K.length_apart

/-- A round that takes no token takes none on the other side, or may end there in any way. -/
theorem answers_iterate_of_stuck {c c' d d' : Cursor} (hc : K.Beside c c') (hd : K.Ends d d')
    (hstuck : ¬ d.ahead.length < c.ahead.length) (x : Except Rejection (β × Cursor)) :
    K.Answers g Q (.error ⟨.anyToken, d⟩)
      (if d'.ahead.length < c'.ahead.length then x else .error ⟨.anyToken, d'⟩) := by
  rcases hd with hd | hd
  · have hlen := K.length hc
    have hlen' := K.length hd
    rw [if_neg (by omega)]
    exact K.refuse _ hd
  · exact answers_of_refused ((K.apart hd).2.2 _)

/-- Rounds that start side by side, or are refused at their start. -/
theorem triple_iterate
    (hstep : ∀ s, K.Triple P (Round.map f g) (roundEnds P K) (step s) (step' (f s)))
    (hbeside : ∀ s c c' a d, P c c' → step s c = .ok (a, d) → K.Beside c c')
    (hends : ∀ c c', P c c' → K.Ends c c') (s : σ) :
    K.Triple P g (fun _ => K.Beside) (iterate step s) (iterate step' (f s)) := by
  intro c
  -- Each round has fewer tokens ahead than the one before.
  induction hn : c.ahead.length using Nat.strongRecOn generalizing s c with
  | ind n ih =>
    subst hn
    intro c' hc
    have hround := hstep s c c' hc
    rw [iterate]
    cases hr : step s c with
    | error r =>
      rw [hr] at hround
      rw [iterate]
      cases hr' : step' (f s) c' with
      | ok x =>
        rw [hr'] at hround
        exact answers_of_refused (K.excuse hround)
      | error r' =>
        rw [hr'] at hround
        exact hround
    | ok x =>
      obtain ⟨a, d⟩ := x
      have hside := hbeside s c c' a d hc hr
      rw [hr] at hround
      obtain ⟨d', hd', hQ⟩ := hround
      rw [iterate, hd']
      cases a with
      | done a => exact ⟨d', rfl, hQ⟩
      | again s' =>
        by_cases hlt : d.ahead.length < c.ahead.length
        · have hlt' : d'.ahead.length < c'.ahead.length := by
            have := Ends.length_le (hends d d' hQ)
            have := K.length hside
            omega
          simp only [Round.map, if_pos hlt, if_pos hlt']
          exact ih _ hlt s' d rfl d' hQ
        · simp only [Round.map, if_neg hlt]
          exact answers_iterate_of_stuck hside (hends d d' hQ) hlt _

/-- Rounds that stay side by side. -/
theorem mirrors_iterate
    (hstep : ∀ s, K.Triple K.Beside (Round.map f g) (roundEnds K.Beside K) (step s) (step' (f s)))
    (s : σ) : K.Mirrors g (iterate step s) (iterate step' (f s)) :=
  triple_iterate f hstep (fun _ _ _ _ _ hc _ => hc) (fun _ _ => .inl) s

/-- Rounds that may end behind newlines, and refuse to start at the end. -/
theorem mirrors_iterate_hungry
    (hstep : ∀ s, K.Triple K.Beside (Round.map f g) (roundEnds K.Ends K) (step s) (step' (f s)))
    (hungry : ∀ s, Hungry (step s)) (s : σ) :
    K.Mirrors g (iterate step s) (iterate step' (f s)) := by
  have hiterate := triple_iterate f (fun s => (hstep s).ends (hungry s))
    (fun s c c' a d hc hr => ?_)
    (fun _ _ h => h) s
  · exact hiterate.mono fun _ _ => .inl
  · rcases hc with hc | hc
    · exact hc
    · obtain ⟨r, hr'⟩ := hungry s c (K.apart hc).1
      rw [hr'] at hr
      cases hr

end Pairing
end WrenAnalysis
