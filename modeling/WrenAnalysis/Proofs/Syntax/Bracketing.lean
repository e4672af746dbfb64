/-
# Brackets as they are read

A parser goes on only while the tokens it has taken are the front of tokens whose brackets
match.  `Parser.Leads` follows the closing brackets that are wanted through a parser, whether
it ends well or not; there is a rule for each way of building a parser and a lemma for each
production.  So what a module is read from matches, and a closing bracket that nothing opened
is refused where it stands, if not before (`Module.brackets_ofTokens`).

Attributes are passed without a look at their brackets.  `Cursor.Clear` keeps them out:
either none starts ahead, or one that starts reaches to the end of the text, where the
construct around it has no end.
-/

import WrenAnalysis.Proofs.Syntax.Brackets
import WrenAnalysis.Proofs.Syntax.Soundness
import WrenAnalysis.Proofs.Token.Tiling

namespace WrenAnalysis

open WrenAnalysis.Parser

/-- No construct that ends well has an attribute in it. -/
structure Cursor.Clear (c : Cursor) : Prop where
  stop : c.stop.kind = .eof
  ahead : Hashless c.ahead ∨ ∀ t ∈ c.ahead, t.kind ≠ .line

/-- Behind some tokens nothing ahead is new, so a clear cursor stays clear. -/
theorem Cursor.Clear.later {c d : Cursor} (h : c.Clear) {us : List Token}
    (hahead : c.ahead = us ++ d.ahead) (hstop : d.stop = c.stop) : d.Clear := by
  have hmem : ∀ t ∈ d.ahead, t ∈ c.ahead := fun t ht => by simp [hahead, ht]
  exact ⟨hstop ▸ h.stop,
    h.ahead.imp (fun hh t ht => hh t (hmem t ht)) fun hl t ht => hl t (hmem t ht)⟩

namespace Parser

variable {α β σ : Type}

/-- From `c`, the parser leads from the wanted brackets `before` to `after`; if it refuses a
token, those in front of it lead to some brackets as well. -/
structure Leads (p : Parser α) (c : Cursor) (before : List Symbol) (after : α → List Symbol) :
    Prop where
  ok : c.Clear → ∀ a d, p c = .ok (a, d) →
    ∃ us, c.ahead = us ++ d.ahead ∧ d.stop = c.stop ∧ Opens before us (after a)
  error : c.Clear → Hashless c.ahead → ∀ r, p c = .error r →
    ∃ us ws, c.ahead = us ++ r.cursor.ahead ∧ Opens before us ws

/-- The parser leaves the wanted brackets as they are. -/
def Keeps (p : Parser α) : Prop := ∀ c ws, p.Leads c ws fun _ => ws

/-- The parser takes the wanted bracket `s`. -/
def Closes (s : Symbol) (p : Parser α) : Prop := ∀ c ws, p.Leads c (s :: ws) fun _ => ws

variable {p : Parser α} {F : α → Parser β} {A B : Parser β} {c : Cursor} {k : Kind}
  {before ws : List Symbol} {mid : List Symbol} {after : β → List Symbol}

/-- A value takes no brackets. -/
theorem leads_pure {b : β} (h : after b = before) : (pure b : Parser β).Leads c before after where
  ok := by
    intro _ b' d hb
    cases hb
    exact ⟨[], rfl, rfl, h ▸ .nil⟩
  error := by
    intro _ _ r hr
    cases hr

/-- What is refused at once is refused in front of all tokens. -/
theorem leads_reject (e : Expectation) : (reject e : Parser β).Leads c before after where
  ok := by
    intro _ b d hb
    cases hb
  error := by
    intro _ _ r hr
    cases hr
    exact ⟨[], before, rfl, .nil⟩

/-- Tokens are taken, and a parser follows. -/
theorem Leads.behind {q : Parser β} {d : Cursor} {us : List Token} (hF : q.Leads d mid after)
    (hahead : c.ahead = us ++ d.ahead) (hstop : d.stop = c.stop) (hus : Opens before us mid)
    {p : Parser β} (hp : p c = q d) : p.Leads c before after where
  ok := by
    intro hc b e hb
    obtain ⟨vs, hvs, he, hopens⟩ := hF.ok (hc.later hahead hstop) b e (hp ▸ hb)
    exact ⟨us ++ vs, by rw [hahead, hvs, List.append_assoc], he.trans hstop, hus.append hopens⟩
  error := by
    intro hc hhash r hr
    have hhash : Hashless d.ahead := fun t ht => hhash t (by simp [hahead, ht])
    obtain ⟨vs, ws, hvs, hopens⟩ := hF.error (hc.later hahead hstop) hhash r (hp ▸ hr)
    exact ⟨us ++ vs, ws, by rw [hahead, hvs, List.append_assoc], hus.append hopens⟩

/-- A parser has to be followed from clear cursors only. -/
theorem leads_of_clear {p : Parser β} (h : c.Clear → p.Leads c before after) :
    p.Leads c before after := ⟨fun hc => (h hc).ok hc, fun hc => (h hc).error hc⟩

/-- Of two parsers, the second begins among the tokens that are ahead of the first. -/
theorem leads_bind_later {mid : α → List Symbol} (hp : p.Leads c before mid)
    (hF : ∀ a d, d.ahead <:+ c.ahead → (F a).Leads d (mid a) after) :
    (p >>= F).Leads c before after := by
  refine leads_of_clear fun hc => ?_
  rcases hpc : p c with r | ⟨a, d⟩
  · have hbind : (p >>= F) c = .error r := bind_of_error hpc
    constructor
    · intro _ b e hb
      rw [hbind] at hb
      cases hb
    · intro _ hhash r' hr
      rw [hbind] at hr
      cases hr
      exact hp.error hc hhash r hpc
  · obtain ⟨us, hus, hd, hopens⟩ := hp.ok hc a d hpc
    have hF := hF a d (hus ▸ List.suffix_append us d.ahead)
    exact hF.behind hus hd hopens (bind_of_ok hpc)

/-- Two parsers lead from one to the other. -/
theorem leads_bind {mid : α → List Symbol} (hp : p.Leads c before mid)
    (hF : ∀ a d, (F a).Leads d (mid a) after) : (p >>= F).Leads c before after :=
  leads_bind_later hp fun a d _ => hF a d

/-- A parser whose value is only dressed. -/
theorem leads_map {f : α → β} (hp : p.Leads c before fun a => after (f a)) :
    (p >>= fun a => pure (f a)).Leads c before after := leads_bind hp fun _ _ => leads_pure rfl

/-- A parser refuses with an attribute ahead. -/
theorem leads_of_error {p : Parser β} (hhash : ¬ Hashless c.ahead) (hp : ∃ r, p c = .error r) :
    p.Leads c before after where
  ok := by
    intro _ b d hb
    obtain ⟨r, hr⟩ := hp
    rw [hr] at hb
    cases hb
  error _ h := absurd h hhash

/-! ### One token -/

/-- A look at the kind of the token takes no bracket. -/
theorem leads_kind {F : Kind → Parser β} (h : (F c.current.kind).Leads c before after) :
    (kind >>= F).Leads c before after := ⟨h.ok, h.error⟩

/-- A look at the kind of the second token takes no bracket. -/
theorem leads_secondKind {F : Kind → Parser β} (h : (F c.second.kind).Leads c before after) :
    (secondKind >>= F).Leads c before after := ⟨h.ok, h.error⟩

/-- Either way of a choice leads on. -/
theorem leads_ite {P : Prop} [Decidable P] (hA : P → A.Leads c before after)
    (hB : ¬ P → B.Leads c before after) : (if P then A else B).Leads c before after := by
  split
  · next h => exact hA h
  · next h => exact hB h

/-- A look for the end takes no bracket. -/
theorem leads_atEnd (hA : A.Leads c before after) (hB : B.Leads c before after) :
    (atEnd >>= fun b => if b = true then A else B).Leads c before after := by
  have h : (if c.atEnd = true then A else B).Leads c before after :=
    leads_ite (fun _ => hA) fun _ => hB
  exact ⟨h.ok, h.error⟩

/-- A token is taken, and a parser follows. -/
theorem leads_advance {p q : Parser β} (hk : c.current.kind.Turns before mid)
    (hq : q.Leads c.advance mid after) (hp : p c = q c.advance) : p.Leads c before after := by
  have hopens : Opens before [c.current] mid := .cons hk .nil
  refine leads_of_clear fun hc => ?_
  obtain ⟨hahead, hd⟩ := c.ahead_eq hc.stop hk.ne.1
  exact hq.behind hahead hd hopens hp

/-- The token that is taken turns what is wanted as its kind does. -/
theorem leads_take {F : Token → Parser β} (hc : c.current.kind = k) (hk : k.Turns before mid)
    (hF : ∀ t d, (F t).Leads d mid after) : (take >>= F).Leads c before after :=
  leads_advance (hc ▸ hk) (hF c.current c.advance) rfl

/-- Two tokens, of which the second is seen before the first is taken. -/
theorem leads_takeBoth {k' : Kind} {mid' : List Symbol} (hc : c.current.kind = k)
    (hk : k.Turns before mid) (hc' : c.second.kind = k') (hk' : k'.Turns mid mid')
    (hA : ∀ d, A.Leads d mid' after) :
    (take >>= fun _ => take >>= fun _ => A).Leads c before after := by
  refine leads_of_clear fun hclear => ?_
  rw [← Cursor.current_advance hclear.stop (hc ▸ hk.ne.1)] at hc'
  exact leads_advance (hc ▸ hk) (leads_take hc' hk' fun _ d => hA d) rfl

/-- A token that may be missing turns what is wanted if it is there. -/
theorem leads_accept (hk : k.Turns before mid) (hA : ∀ d, A.Leads d mid after)
    (hB : B.Leads c before after) :
    (accept k >>= fun b => if b = true then A else B).Leads c before after := by
  by_cases hck : c.current.kind = k
  · have hyes : accept k c = .ok (true, c.advance) := if_pos hck
    exact leads_advance (hck ▸ hk) (hA c.advance) (bind_of_ok hyes)
  · have hno : accept k c = .ok (false, c) := if_neg hck
    exact hB.behind rfl rfl .nil (bind_of_ok hno)

/-- A token that is expected turns what is wanted, or is refused where it should stand. -/
theorem leads_expect (hk : k.Turns before mid) (e : Expectation) :
    (expect k e).Leads c before fun _ => mid := by
  by_cases hck : c.current.kind = k
  · have hyes : expect k e c = .ok (c.current, c.advance) := if_pos hck
    have hpure : (pure c.current : Parser Token).Leads c.advance mid fun _ => mid := leads_pure rfl
    exact leads_advance (hck ▸ hk) hpure hyes
  · have hno : expect k e c = .error ⟨e, c⟩ := if_neg hck
    exact (leads_reject e).behind rfl rfl .nil hno

/-- Behind a token that is expected the next parser leads on. -/
theorem leads_expect_bind (hk : k.Turns before mid) (e : Expectation) {F : Token → Parser β}
    (hF : ∀ t d, (F t).Leads d mid after) : (expect k e >>= F).Leads c before after :=
  leads_bind (leads_expect hk e) hF

/-- Behind a name the same brackets are wanted. -/
theorem leads_name_bind (e : Expectation) {F : Token → Parser β}
    (hF : ∀ t d, (F t).Leads d before after) : (name e >>= F).Leads c before after :=
  leads_expect_bind (.inner rfl) e hF

/-- A part that is there behind a token of kind `k`, and else is missing. -/
theorem leads_optional (hk : k.Turns before mid) {A : Parser α} {J : Option α → Parser β}
    (hA : ∀ d, A.Leads d mid fun _ => before) (hJ : ∀ o d, (J o).Leads d before after) :
    (accept k >>= fun b => if b = true then some <$> A >>= J else pure none >>= J).Leads
      c before after :=
  leads_accept hk (fun d => leads_bind (leads_map (f := some) (hA d)) hJ) (hJ none c)

/-! ### Newlines -/

/-- Behind newlines the same brackets are wanted. -/
theorem leads_skipLines (hA : A.Leads c.skipLines before after) :
    (skipLines >>= fun _ => A).Leads c before after := by
  refine leads_of_clear fun hc => ?_
  obtain ⟨ls, hahead, hstop, hlines⟩ := reads_skipLines c hc.stop () c.skipLines rfl
  exact hA.behind hahead hstop (.lines hlines before) rfl

/-- Skipping newlines takes no bracket. -/
theorem keeps_skipLines : skipLines.Keeps := fun c ws => by
  have hdone : (pure () : Parser Unit).Leads c.skipLines ws fun _ => ws := leads_pure rfl
  exact (leads_skipLines hdone).behind rfl rfl .nil rfl

/-- Skipping newlines before some token takes no bracket. -/
theorem keeps_skipLinesBefore : (skipLinesBefore k).Keeps := fun c ws => {
  ok := by
    intro hc b d hd
    obtain ⟨us, hus, hstop, hlines⟩ := reads_skipLinesBefore c hc.stop b d hd
    exact ⟨us, hus, hstop, .lines hlines ws⟩
  error := by
    intro _ _ r hr
    unfold skipLinesBefore at hr
    split at hr <;> cases hr }

/-! ### Repetition -/

/-- The brackets wanted behind a round: those of the repetition, unless it is over. -/
def wantedBehind (again : List Symbol) (after : α → List Symbol) : Round σ α → List Symbol
  | .again _ => again
  | .done a => after a

/-- What follows a round of a repetition: the next round has to have fewer tokens ahead. -/
def behindRound (step : σ → Parser (Round σ α)) (ahead : Nat) : Round σ α → Parser α
  | .done a => pure a
  | .again s => fun d => if d.ahead.length < ahead then iterate step s d else reject .anyToken d

/-- A repetition is a round and what follows it. -/
theorem iterate_eq_bind (step : σ → Parser (Round σ α)) (s : σ) (c : Cursor) :
    iterate step s c = (step s >>= behindRound step c.ahead.length) c := by
  rw [iterate]
  rcases hr : step s c with r | ⟨s' | a, d⟩
  · rw [bind_of_error hr]
  · rw [bind_of_ok hr]
    rfl
  · rw [bind_of_ok hr]
    rfl

/-- A repetition leads where its rounds do, unless one is known to fail at last. -/
theorem leads_iterate_later {step : σ → Parser (Round σ α)} {after : α → List Symbol}
    (hstep : ∀ s d, d.ahead <:+ c.ahead → (iterate step s).Leads d before after ∨
      (step s).Leads d before (wantedBehind before after)) (s : σ) :
    (iterate step s).Leads c before after := by
  induction hn : c.ahead.length using Nat.strongRecOn generalizing s c with
  | ind n ih =>
    subst hn
    rcases hstep s c List.suffix_rfl with hwhole | hround
    · exact hwhole
    · have hiter := iterate_eq_bind step s c
      refine (leads_bind_later hround fun r d hd => ?_).behind rfl rfl .nil hiter
      rcases r with s' | a
      · by_cases hlt : d.ahead.length < c.ahead.length
        · have hrest := ih _ hlt (fun s e he => hstep s e (he.trans hd)) s' rfl
          exact hrest.behind rfl rfl .nil (if_pos hlt)
        · exact (leads_reject .anyToken).behind rfl rfl .nil (if_neg hlt)
      · exact leads_pure rfl

/-- A repetition leads where its rounds do. -/
theorem leads_iterate {step : σ → Parser (Round σ α)} {after : α → List Symbol}
    (hstep : ∀ s d, (step s).Leads d before (wantedBehind before after)) (s : σ) (c : Cursor) :
    (iterate step s).Leads c before after :=
  leads_iterate_later (fun s d _ => .inr (hstep s d)) s

end Parser

/-! ### Blocks and lists -/

/-- The constructs leave the wanted brackets as they are. -/
structure Nested.Keeping (inner : Nested) : Prop where
  definition : inner.definition.Keeps
  branch : inner.branch.Keeps
  expression : inner.expression.Keeps
  conditional : inner.conditional.Keeps
  operand : ∀ least, (inner.operand least).Keeps
  unary : inner.unary.Keeps

namespace Grammar

variable {inner : Nested} {c : Cursor} {ws : List Symbol}

/-- The end of a statement leaves a closing brace where it is. -/
theorem keeps_endOfStatement : endOfStatement.Keeps := by
  refine fun c ws => leads_kind ?_
  split
  · exact keeps_skipLines c ws
  · exact leads_pure rfl
  · exact leads_pure rfl
  · exact leads_reject _

section Braced

variable {A : Type}

/-- Items up to the closing brace, with attributes between them. -/
def bracedRound (unclosed : Expectation) (item : List A → Parser (Round (List A) (List A)))
    (items : List A) : Parser (Round (List A) (List A)) := do
  skipLines
  if ← accept (.symbol .rightBrace) then
    return .done items
  else if ← atEnd then
    reject unclosed
  else if (← kind) = .symbol .hash then
    skipAttribute
    return .again items
  else
    item items

/-- The rounds of a block are those of a body in braces. -/
theorem blockBody_eq (inner : Nested) : blockBody inner =
    iterate (bracedRound .blockEnd fun body => do
      let s ← inner.definition
      endOfStatement
      return .again (body ++ [s])) [] := rfl

/-- The rounds of a class are those of a body in braces. -/
theorem classBody_eq (inner : Nested) : classBody inner =
    iterate (bracedRound .classEnd fun methods => do
      let m ← method inner
      endOfStatement
      return .again (methods ++ [m])) [] := rfl

variable {unclosed : Expectation} {item : List A → Parser (Round (List A) (List A))}
  {items : List A}

/-- A body in braces is not over at the end of the text. -/
theorem hungry_bracedRound : Hungry (bracedRound unclosed item items) :=
  hungry_skipLines (hungry_accept (hungry_unlessAtEnd _))

/-- A round that passes an attribute. -/
theorem bracedRound_of_hash (hc : c.skipLines.current.kind = .symbol .hash)
    (hat : c.skipLines.atEnd = false) :
    bracedRound unclosed item items c = .ok (.again items, c.skipLines.skipToLineEnd) := by
  have hskip : skipLines c = .ok ((), c.skipLines) := rfl
  have hno : accept (.symbol .rightBrace) c.skipLines = .ok (false, c.skipLines) :=
    if_neg (by simp [hc])
  have hmore : atEnd c.skipLines = .ok (false, c.skipLines) := by rw [Parser.atEnd, hat]
  have hkind : kind c.skipLines = .ok (.symbol .hash, c.skipLines) := by rw [Parser.kind, hc]
  rw [bracedRound, bind_of_ok hskip, bind_of_ok hno, if_neg (by simp), bind_of_ok hmore,
    if_neg (by simp), bind_of_ok hkind, if_pos rfl]
  rfl

/-- An attribute that is passed reaches to the end, which the next round refuses. -/
theorem iterate_bracedRound_error (hc : c.Clear) (hlines : ∀ t ∈ c.ahead, t.kind ≠ .line)
    (hk : c.skipLines.current.kind = .symbol .hash) :
    ∃ r, iterate (bracedRound unclosed item) items c = .error r := by
  have hstop : c.skipLines.stop.kind = .eof := hc.stop
  have hat : c.skipLines.atEnd = false := by
    rw [← Bool.not_eq_true, Cursor.atEnd_iff hstop, hk]
    exact nofun
  have hround : bracedRound unclosed item items c = _ := bracedRound_of_hash hk hat
  have hend : c.skipLines.skipToLineEnd.current.kind = .eof := by
    obtain ⟨ls, hahead, -, -⟩ := reads_skipLines c hc.stop () c.skipLines rfl
    rcases htail : c.skipLines.skipToLineEnd.ahead with _ | ⟨t, ts⟩
    · rw [Cursor.current, htail]
      exact hc.stop
    · have ht : t ∈ c.skipLines.ahead :=
        (List.dropWhile_sublist _).subset (htail ▸ List.mem_cons_self)
      have hline := hlines t (by rw [hahead]; exact List.mem_append_right ls ht)
      have hlast := List.head?_dropWhile_not
        (fun t : Token => decide (t.kind ≠ .line ∧ t.kind ≠ .eof)) c.skipLines.ahead
      rw [show c.skipLines.ahead.dropWhile _ = t :: ts from htail] at hlast
      rw [Cursor.current, htail]
      simpa [hline] using hlast
  rw [iterate, hround]
  dsimp only
  split
  · exact hungry_iterate hungry_bracedRound _ hend
  · exact ⟨_, rfl⟩

/-- A body in braces takes the brace that it wants, if its items leave it. -/
theorem closes_braced (hitem : ∀ items d ws,
      (item items).Leads d (.rightBrace :: ws) (wantedBehind (.rightBrace :: ws) fun _ => ws)) :
    Closes .rightBrace (iterate (bracedRound unclosed item) items) := by
  refine fun c ws => leads_iterate_later (fun items c _ => ?_) items
  by_cases hk : c.skipLines.current.kind = .symbol .hash
  · refine .inl (leads_of_clear fun hc => ?_)
    obtain ⟨ls, hahead, -, -⟩ := reads_skipLines c hc.stop () c.skipLines rfl
    have hstop : c.skipLines.stop.kind = .eof := hc.stop
    obtain ⟨hnext, -⟩ := Cursor.ahead_eq hstop (by simp [hk])
    have hhash : ¬ Hashless c.ahead := fun h =>
      h c.skipLines.current (by rw [hahead, hnext]; simp) hk
    exact leads_of_error hhash (iterate_bracedRound_error hc (hc.ahead.resolve_left hhash) hk)
  · have hround : (bracedRound unclosed item items).Leads c (.rightBrace :: ws)
        (wantedBehind (.rightBrace :: ws) fun _ => ws) := by
      refine leads_skipLines (leads_accept (.closing rfl) (fun d => leads_pure rfl) ?_)
      refine leads_atEnd (leads_reject _) (leads_kind ?_)
      rw [if_neg hk]
      exact hitem items c.skipLines ws
    exact .inr hround

end Braced

/-- A block takes its closing brace. -/
theorem closes_blockBody (h : inner.Keeping) : (blockBody inner).Closes .rightBrace := by
  rw [blockBody_eq]
  refine closes_braced fun body c ws => ?_
  refine leads_bind (h.definition c _) fun s d => ?_
  refine leads_bind (keeps_endOfStatement d _) fun _ e => ?_
  exact leads_pure rfl

/-- Arguments take their closing bracket. -/
theorem closes_argumentsUntil (h : inner.Keeping) {s : Symbol}
    (hs : (Kind.symbol s).isClosing = true) (e : Expectation) :
    (argumentsUntil inner s e).Closes s := by
  refine fun c ws => leads_iterate (fun arguments c => ?_) [] c
  refine leads_skipLines (leads_accept (.closing hs) (fun d => leads_pure rfl) ?_)
  refine leads_bind (h.expression _ _) fun a d => leads_skipLines ?_
  refine leads_accept (.inner rfl) (fun d => leads_pure rfl) ?_
  exact leads_expect_bind (.closing hs) _ fun t d => leads_pure rfl

/-- A map takes its closing brace. -/
theorem closes_mapEntries (h : inner.Keeping) : (mapEntries inner).Closes .rightBrace := by
  refine fun c ws => leads_iterate (fun entries c => ?_) [] c
  refine leads_skipLines (leads_accept (.closing rfl) (fun d => leads_pure rfl) ?_)
  refine leads_bind (h.expression _ _) fun key d => leads_skipLines ?_
  refine leads_expect_bind (.inner rfl) _ fun k d => leads_skipLines ?_
  refine leads_bind (h.expression _ _) fun value d => leads_skipLines ?_
  refine leads_accept (.inner rfl) (fun d => leads_pure rfl) ?_
  exact leads_expect_bind (.closing rfl) _ fun t d => leads_pure rfl

/-- A list of names takes its closing bracket. -/
theorem closes_namesUntil {s : Symbol} (hs : (Kind.symbol s).isClosing = true)
    (e : Expectation) : (namesUntil s e).Closes s := by
  refine fun c ws => leads_skipLines (leads_accept (.closing hs) (fun d => leads_pure rfl) ?_)
  refine leads_iterate (fun names c => ?_) [] _
  refine leads_name_bind _ fun n d => leads_skipLines ?_
  refine leads_accept (.inner rfl) (fun d => leads_skipLines (leads_pure rfl)) ?_
  exact leads_expect_bind (.closing hs) _ fun t d => leads_pure rfl

/-- The bars around block parameters are no brackets. -/
theorem keeps_blockParameters : blockParameters.Keeps := by
  refine fun c ws => leads_iterate (fun names c => ?_) [] c
  refine leads_name_bind _ fun n d => leads_accept (.inner rfl) (fun d => leads_pure rfl) ?_
  exact leads_expect_bind (.inner rfl) _ fun t d => leads_pure rfl

/-- A block behind a call takes its closing brace, with parameters or without. -/
theorem closes_blockArgument (h : inner.Keeping) : (blockArgument inner).Closes .rightBrace := by
  have hbody := closes_blockBody h
  refine fun c ws => leads_accept (.inner rfl) (fun d => leads_map (hbody d ws)) ?_
  refine leads_accept (.inner rfl) (fun d => ?_) (leads_map (hbody c ws))
  exact leads_bind (keeps_blockParameters d _) fun ns d => leads_map (hbody d ws)

/-! ### Expressions -/

/-- Behind a name, arguments and a block close what they open. -/
theorem keeps_callTail (h : inner.Keeping) : (callTail inner).Keeps := by
  intro c ws
  refine leads_optional (.opening rfl) (fun d => ?_) fun arguments d => ?_
  · exact closes_argumentsUntil h rfl _ d ws
  refine leads_optional (.opening rfl) (fun d => ?_) fun block d => leads_pure rfl
  exact closes_blockArgument h d ws

/-- A name that may be missing takes no bracket. -/
theorem keeps_optionalName {k : Kind} (hk : k.isInner = true) (e : Expectation) {β : Type}
    {J : Option Token → Parser β} {after : β → List Symbol}
    (hJ : ∀ o d, (J o).Leads d ws after) :
    (accept k >>= fun b => if b = true then some <$> name e >>= J else pure none >>= J).Leads
      c ws after :=
  leads_optional (.inner hk) (fun _ => leads_expect (.inner rfl) e) hJ

/-- A call of `super` closes what it opens. -/
theorem leads_superCall (h : inner.Keeping) (hc : c.current.kind = .keyword .super_) :
    (superCall inner).Leads c ws fun _ => ws := by
  refine leads_take hc (.inner rfl) fun t d => keeps_optionalName rfl _ fun n d => ?_
  exact leads_map (keeps_callTail h d ws)

/-- A name closes what it is called with. -/
theorem leads_named (h : inner.Keeping) (hc : c.current.kind = .name) :
    (named inner).Leads c ws fun _ => ws := by
  refine leads_take hc (.inner rfl) fun t d => ?_
  split
  · exact leads_pure rfl
  · exact leads_pure rfl
  · exact leads_map (keeps_callTail h d ws)

/-- A group closes its parenthesis. -/
theorem leads_group (h : inner.Keeping) (hc : c.current.kind = .symbol .leftParen) :
    (group inner).Leads c ws fun _ => ws := by
  refine leads_take hc (.opening rfl) fun t d => leads_skipLines ?_
  refine leads_bind (h.expression _ _) fun e d => leads_skipLines ?_
  exact leads_expect_bind (.closing rfl) _ fun t d => leads_pure rfl

/-- A token that is an expression by itself. -/
theorem leads_literal {A : Type} {make : Token → A} (hc : c.current.kind.isInner = true) :
    (make <$> take).Leads c ws fun _ => ws :=
  leads_take rfl (.inner hc) fun _ _ => leads_pure rfl

/-- Primaries close what they open. -/
theorem keeps_primary (h : inner.Keeping) : (primary inner).Keeps := by
  refine fun c ws => leads_kind ?_
  split
  · next hc => exact leads_literal (hc ▸ rfl)
  · next hc => exact leads_literal (hc ▸ rfl)
  · next hc => exact leads_literal (hc ▸ rfl)
  · next hc => exact leads_literal (hc ▸ rfl)
  · next hc => exact leads_literal (hc ▸ rfl)
  · next hc => exact leads_literal (hc ▸ rfl)
  · next hc => exact leads_superCall h hc
  · next hc => exact leads_named h hc
  · next hc => exact leads_group h hc
  · next hc =>
    refine leads_take hc (.opening rfl) fun t d => ?_
    exact leads_map (closes_argumentsUntil h rfl _ d ws)
  · next hc =>
    exact leads_take hc (.opening rfl) fun t d => leads_map (closes_mapEntries h d ws)
  · exact leads_reject _

/-- Calls and subscripts behind a primary close what they open. -/
theorem keeps_postfixed (h : inner.Keeping) : (postfixed inner).Keeps := by
  intro c ws
  refine leads_bind (keeps_primary h c ws) fun e d => ?_
  refine leads_iterate (fun e c => leads_kind ?_) e d
  split
  · next hc =>
    refine leads_take hc (.inner rfl) fun t d => leads_skipLines ?_
    refine leads_name_bind _ fun n d => leads_bind (keeps_callTail h d ws) fun tail d => ?_
    exact leads_pure rfl
  · next hc =>
    refine leads_take hc (.opening rfl) fun t d => ?_
    refine leads_bind (closes_argumentsUntil h rfl _ d ws) fun es d => ?_
    exact leads_pure rfl
  · refine leads_bind (keeps_skipLinesBefore c ws) fun b d => ?_
    split
    · exact leads_pure rfl
    · exact leads_pure rfl
  · exact leads_pure rfl

/-- Unary operators are no brackets. -/
theorem keeps_unary (h : inner.Keeping) : (unary inner).Keeps := by
  refine fun c ws => leads_kind ?_
  split
  · next hc => exact leads_take hc (.inner rfl) fun t d => leads_map (h.unary d ws)
  · next hc => exact leads_take hc (.inner rfl) fun t d => leads_map (h.unary d ws)
  · next hc => exact leads_take hc (.inner rfl) fun t d => leads_map (h.unary d ws)
  · exact keeps_postfixed h c ws

/-- No binary operator is a bracket. -/
theorem Kind.isInner_of_precedence {k : Kind} {p : Nat} (h : k.precedence = some p) :
    k.isInner = true := by
  unfold Kind.precedence at h
  split at h <;> first | rfl | cases h

/-- Binary operators and their operands close what they open. -/
theorem keeps_binary (h : inner.Keeping) (least : Nat) : (binary inner least).Keeps := by
  intro c ws
  refine leads_bind (keeps_unary h c ws) fun e d => ?_
  refine leads_iterate (fun left c => leads_kind ?_) e d
  split
  · exact leads_pure rfl
  · next p hp =>
    refine leads_ite (fun _ => leads_pure rfl) fun _ => ?_
    refine leads_take rfl (.inner (Kind.isInner_of_precedence hp)) fun t d => leads_skipLines ?_
    exact leads_bind (h.operand _ _ ws) fun right d => leads_pure rfl

/-- A choice between expressions closes what its parts open. -/
theorem keeps_conditional (h : inner.Keeping) : (conditional inner).Keeps := by
  intro c ws
  refine leads_bind (keeps_binary h 1 c ws) fun e d => ?_
  refine leads_accept (.inner rfl) (fun d => leads_skipLines ?_) (leads_pure rfl)
  refine leads_bind (h.conditional _ ws) fun a d => leads_skipLines ?_
  refine leads_expect_bind (.inner rfl) _ fun k d => leads_skipLines ?_
  exact leads_map (h.conditional _ ws)

/-- An assignment closes what its sides open. -/
theorem keeps_assignment (h : inner.Keeping) : (assignment inner).Keeps := by
  refine fun c ws => leads_bind (keeps_conditional h c ws) fun e d => leads_kind ?_
  refine leads_ite (fun hk => ?_) fun _ => leads_pure rfl
  split
  · exact leads_reject _
  · exact leads_take hk (.inner rfl) fun q d => leads_skipLines (leads_map (h.expression _ ws))

/-! ### Statements -/

/-- A condition closes its parenthesis. -/
theorem keeps_condition (h : inner.Keeping) (keyword : Keyword) :
    (condition inner keyword).Keeps := by
  refine fun c ws => leads_expect_bind (.opening rfl) _ fun o d => leads_skipLines ?_
  refine leads_bind (h.expression _ _) fun e d => leads_skipLines ?_
  exact leads_expect_bind (.closing rfl) _ fun t d => leads_pure rfl

/-- The parts of `if` close what they open. -/
theorem leads_ifElse (h : inner.Keeping) (hc : c.current.kind = .keyword .if_) :
    (ifElse inner).Leads c ws fun _ => ws := by
  refine leads_take hc (.inner rfl) fun k d => ?_
  refine leads_bind (keeps_condition h _ d ws) fun e d => ?_
  refine leads_bind (h.branch d ws) fun s d => ?_
  refine leads_bind (keeps_skipLinesBefore d ws) fun _ d => ?_
  exact leads_accept (.inner rfl) (fun d => leads_map (h.branch d ws)) (leads_pure rfl)

/-- The parts of `while` close what they open. -/
theorem leads_whileLoop (h : inner.Keeping) (hc : c.current.kind = .keyword .while_) :
    (whileLoop inner).Leads c ws fun _ => ws := by
  refine leads_take hc (.inner rfl) fun k d => ?_
  refine leads_bind (keeps_condition h _ d ws) fun e d => ?_
  exact leads_map (h.branch d ws)

/-- The parts of `for` close what they open. -/
theorem leads_forLoop (h : inner.Keeping) (hc : c.current.kind = .keyword .for_) :
    (forLoop inner).Leads c ws fun _ => ws := by
  refine leads_take hc (.inner rfl) fun k d => ?_
  refine leads_expect_bind (.opening rfl) _ fun o d => ?_
  refine leads_skipLines (leads_name_bind _ fun n d => ?_)
  refine leads_expect_bind (.inner rfl) _ fun i d => ?_
  refine leads_skipLines (leads_bind (h.expression _ _) fun e d => leads_skipLines ?_)
  exact leads_expect_bind (.closing rfl) _ fun t d => leads_map (h.branch d ws)

/-- A value that is returned closes what it opens. -/
theorem leads_returning (h : inner.Keeping) (hc : c.current.kind = .keyword .return_) :
    (returning inner).Leads c ws fun _ => ws := by
  refine leads_take hc (.inner rfl) fun k d => leads_kind ?_
  split
  · exact leads_pure rfl
  · exact leads_pure rfl
  · exact leads_pure rfl
  · exact leads_map (h.expression d ws)

/-- Statements close what they open. -/
theorem keeps_statement (h : inner.Keeping) : (statement inner).Keeps := by
  refine fun c ws => leads_kind ?_
  split
  · next hc => exact leads_ifElse h hc
  · next hc => exact leads_whileLoop h hc
  · next hc => exact leads_forLoop h hc
  · next hc => exact leads_returning h hc
  · next hc => exact leads_literal (hc ▸ rfl)
  · next hc => exact leads_literal (hc ▸ rfl)
  · next hc =>
    exact leads_take hc (.opening rfl) fun b d => leads_map (closes_blockBody h d ws)
  · exact leads_map (h.expression c ws)

/-! ### Definitions -/

/-- The parameter of a setter closes its parenthesis. -/
theorem keeps_setterValue : setterValue.Keeps := by
  intro c ws
  refine leads_expect_bind (.opening rfl) _ fun o d => ?_
  refine leads_name_bind _ fun value d => ?_
  exact leads_expect_bind (.closing rfl) _ fun t d => leads_pure rfl

/-- A parameter list closes its parenthesis. -/
theorem keeps_parameters : parameters.Keeps := fun _ ws =>
  leads_accept (.opening rfl) (fun d => leads_map (closes_namesUntil rfl _ d ws)) (leads_pure rfl)

/-- No operator that names a method is a bracket. -/
theorem Kind.isInner_of_isOperatorName {k : Kind} (h : k.isOperatorName = true) :
    k.isInner = true := by
  unfold Kind.isOperatorName at h
  split at h <;> first | rfl | cases h

/-- The head of a method closes what it opens, the bracket of a subscript included. -/
theorem keeps_methodHead : methodHead.Keeps := by
  refine fun c ws => leads_kind ?_
  refine leads_ite (fun hc => ?_) fun _ => ?_
  · refine leads_take hc (.inner rfl) fun n d => ?_
    refine leads_accept (.inner rfl) (fun d => ?_) (leads_map (keeps_parameters d ws))
    exact leads_map (keeps_setterValue d ws)
  refine leads_ite (fun hc => ?_) fun _ => ?_
  · refine leads_take hc (.opening rfl) fun b d => ?_
    refine leads_bind (closes_namesUntil rfl _ d ws) fun ns d => ?_
    refine leads_accept (.inner rfl) (fun d => ?_) (leads_pure rfl)
    exact leads_map (keeps_setterValue d ws)
  refine leads_ite (fun hc => ?_) fun _ => leads_reject _
  · refine leads_take rfl (.inner (Kind.isInner_of_isOperatorName hc)) fun o d => ?_
    exact leads_map (keeps_parameters d ws)

/-- The words in front of a method are no brackets. -/
theorem keeps_modifiers : modifiers.Keeps := by
  refine fun c ws => leads_iterate (fun found c => leads_kind ?_) _ c
  split
  · next hc => exact leads_take hc (.inner rfl) fun t d => leads_pure rfl
  · next hc => exact leads_take hc (.inner rfl) fun t d => leads_pure rfl
  · next hc => exact leads_take hc (.inner rfl) fun t d => leads_pure rfl
  · exact leads_pure rfl

/-- A method closes what its head and its body open. -/
theorem keeps_method (h : inner.Keeping) : (method inner).Keeps := by
  intro c ws
  refine leads_bind (keeps_modifiers c ws) fun found d => ?_
  refine leads_bind (keeps_methodHead d ws) fun head d => ?_
  refine leads_accept (.opening rfl) (fun d => leads_map (closes_blockBody h d ws)) ?_
  exact leads_ite (fun _ => leads_pure rfl) fun _ => leads_reject _

/-- A class takes its closing brace. -/
theorem closes_classBody (h : inner.Keeping) : (classBody inner).Closes .rightBrace := by
  rw [classBody_eq]
  refine closes_braced fun methods c ws => ?_
  refine leads_bind (keeps_method h c _) fun m d => ?_
  refine leads_bind (keeps_endOfStatement d _) fun _ e => ?_
  exact leads_pure rfl

/-- A class closes the brace that it opens. -/
theorem keeps_classDef (h : inner.Keeping) (isForeign : Bool) :
    (classDef inner isForeign).Keeps := by
  intro c ws
  refine leads_name_bind _ fun className d => ?_
  refine keeps_optionalName rfl _ fun parent d => ?_
  refine leads_expect_bind (.opening rfl) _ fun b d => ?_
  exact leads_map (closes_classBody h d ws)

/-- Imported names have no brackets. -/
theorem keeps_importedNames : importedNames.Keeps := by
  refine fun c ws => leads_iterate (fun names c => leads_skipLines ?_) [] c
  refine leads_name_bind _ fun n d => keeps_optionalName rfl _ fun a d => ?_
  exact leads_accept (.inner rfl) (fun d => leads_pure rfl) (leads_pure rfl)

/-- An import has no brackets. -/
theorem keeps_importing : importing.Keeps := by
  intro c ws
  refine leads_expect_bind (.inner rfl) _ fun path d => ?_
  refine leads_accept (.inner rfl) (fun d => ?_) (leads_pure rfl)
  exact leads_map (keeps_importedNames d ws)

/-- A variable closes what its value opens. -/
theorem keeps_variableDef (h : inner.Keeping) : (variableDef inner).Keeps := by
  intro c ws
  refine leads_name_bind _ fun name d => ?_
  refine leads_accept (.inner rfl) (fun d => ?_) (leads_pure rfl)
  exact leads_skipLines (leads_map (h.expression _ ws))

/-- Definitions close what they open. -/
theorem keeps_definition (h : inner.Keeping) : (definition inner).Keeps := by
  refine fun c ws => leads_kind ?_
  split
  · next hc => exact leads_take hc (.inner rfl) fun k d => keeps_classDef h false d ws
  · next hc =>
    refine leads_secondKind (leads_ite (fun hk => ?_) fun _ => keeps_statement h c ws)
    exact leads_takeBoth hc (.inner rfl) hk (.inner rfl) fun d => keeps_classDef h true d ws
  · next hc => exact leads_take hc (.inner rfl) fun k d => keeps_importing d ws
  · next hc => exact leads_take hc (.inner rfl) fun k d => keeps_variableDef h d ws
  · exact keeps_statement h c ws

/-! ### Modules -/

/-- Without attributes, a module leaves no bracket wanted. -/
theorem leads_module (h : inner.Keeping) (hhash : Hashless c.ahead) :
    (Grammar.module inner).Leads c [] fun _ => [] := by
  rw [module_eq]
  refine leads_bind_later (keeps_skipLines c []) fun _ d hd => ?_
  refine leads_iterate_later (fun ss e he => .inr (leads_of_clear fun hclear => ?_)) []
  refine leads_atEnd (leads_pure rfl) (leads_kind ?_)
  have hk : e.current.kind ≠ .symbol .hash := by
    intro hk
    obtain ⟨hahead, -⟩ := e.ahead_eq hclear.stop (by simp [hk])
    have hmem : e.current ∈ e.ahead := hahead ▸ List.mem_cons_self
    exact hhash _ ((he.trans hd).subset hmem) hk
  rw [if_neg hk]
  refine leads_bind (h.definition e []) fun s f => leads_kind ?_
  refine leads_ite (fun _ => leads_reject _) fun _ => ?_
  refine leads_bind (keeps_endOfStatement f []) fun _ _ => ?_
  exact leads_pure rfl

/-- A module is read up to the end. -/
theorem atEnd_of_module {d : Cursor} {m : Module} (h : Grammar.module inner c = .ok (m, d)) :
    d.atEnd = true := by
  have hskip : skipLines c = .ok ((), c.skipLines) := rfl
  rw [module_eq, bind_of_ok hskip] at h
  refine iterate_induction (motive := fun _ _ => d.atEnd = true) h (fun s c hdone => ?_)
    fun _ _ _ _ _ _ hrest => hrest
  rcases moduleRound_cases hdone with ⟨hat, hround⟩ | ⟨-, -, hround, -⟩ |
    ⟨_, _, -, -, -, -, -, hround⟩
  · rw [moduleRound_done hat] at hdone
    cases hdone
    exact hat
  · cases hround
  · cases hround

end Grammar

open Grammar in
/-- The constructs leave the wanted brackets as they are, as deep as they may nest. -/
theorem Nested.keeping_within (depth : Nat) : (Nested.within depth).Keeping := by
  induction depth with
  | zero =>
    exact ⟨fun _ _ => leads_reject _, fun _ _ => leads_reject _, fun _ _ => leads_reject _,
      fun _ _ => leads_reject _, fun _ _ _ => leads_reject _, fun _ _ => leads_reject _⟩
  | succ depth ih =>
    exact ⟨keeps_definition ih, keeps_statement ih, keeps_assignment ih, keeps_conditional ih,
      keeps_binary ih, keeps_unary ih⟩

namespace Module

variable {text : String} {ts : List Token}

/-- What a module is read from matches. -/
theorem matched_of_ofTokens {m : Module} (hts : ts <+: Token.tokenizePrefix text)
    (hhash : Hashless ts) (h : ofTokens ts = .ok m) : Matched ts := by
  have hclear : (Cursor.ofTokens ts).Clear := ⟨Cursor.stopOf_kind ts, .inl hhash⟩
  unfold ofTokens at h
  split at h
  · next m' d hm =>
    obtain ⟨us, hus, hstop, hopens⟩ :=
      (Grammar.leads_module (Nested.keeping_within _) hhash).ok hclear m' d hm
    have hus : ts = us ++ d.ahead := hus
    have hat := (Cursor.atEnd_iff (hstop ▸ hclear.stop)).1 (Grammar.atEnd_of_module hm)
    have hrest : ∀ t ∈ d.ahead.head?, t.kind = .eof := by
      intro t ht
      rwa [Cursor.current, List.headD_eq_head?_getD, Option.mem_def.1 ht] at hat
    rw [hus]
    refine hopens.matched.append ?_
    obtain hnil | ⟨t, hend, ht⟩ := Token.rest_eq_nil_or_end (hus ▸ hts) hrest
    · exact hnil ▸ .nil
    · exact hend ▸ .single (ht ▸ rfl)
  · cases h

/-- In front of a token that is refused stands the front of tokens that match. -/
theorem prefix_of_ofTokens_error {e : SyntaxError} (hhash : Hashless ts)
    (h : ofTokens ts = .error e) :
    ∃ us vs, us ++ vs = ts ∧ (∃ ws, Matched (us ++ ws)) ∧
      ∀ t ∈ vs.head?, e.position = t.position := by
  have hclear : (Cursor.ofTokens ts).Clear := ⟨Cursor.stopOf_kind ts, .inl hhash⟩
  unfold ofTokens at h
  split at h
  · cases h
  · next r hr =>
    cases h
    obtain ⟨us, ws, hus, hopens⟩ :=
      (Grammar.leads_module (Nested.keeping_within _) hhash).error hclear hhash r hr
    refine ⟨us, r.cursor.ahead, hus.symm, hopens.exists_matched, fun t ht => ?_⟩
    show r.cursor.current.position = t.position
    rw [Cursor.current, List.headD_eq_head?_getD, Option.mem_def.1 ht, Option.getD_some]

/-- **Brackets match, and one that does not is refused in time.**  The tokens of a text without
attributes, all of them or the first few, that are read as a module have brackets that match;
and if those up to some token are not the front of any tokens whose brackets match, they are
refused at that token or before it. -/
theorem brackets_ofTokens (hts : ts <+: Token.tokenizePrefix text)
    (hhash : ∀ t ∈ ts, t.kind ≠ .symbol .hash) :
    (∀ m, ofTokens ts = .ok m → Matched ts) ∧
    ∀ k (hk : k < ts.length), (¬ ∃ vs, Matched (ts.take (k + 1) ++ vs)) →
      ∃ e, ofTokens ts = .error e ∧ ∃ j, ∃ hj : j ≤ k, e.position = ts[j].position ∧
        e.position.offset ≤ ts[k].position.offset := by
  refine ⟨fun m => matched_of_ofTokens hts hhash, fun k hk hstray => ?_⟩
  rcases h : ofTokens ts with e | m
  · obtain ⟨us, vs, hus, ⟨ws, hws⟩, hposition⟩ := prefix_of_ofTokens_error hhash h
    have hlen : us.length + vs.length = ts.length := by rw [← hus, List.length_append]
    -- Else the tokens up to the stray one stand in front of the refused one.
    have hj : us.length ≤ k := by
      by_contra hlt
      have htake : ts.take (k + 1) = us.take (k + 1) := by
        rw [← hus, List.take_append_of_le_length (by omega)]
      refine hstray ⟨us.drop (k + 1) ++ ws, ?_⟩
      rwa [htake, ← List.append_assoc, List.take_append_drop]
    have hlt : us.length < ts.length := by omega
    have hfound : vs.head? = some ts[us.length] := by
      cases vs with
      | nil => exact absurd hlen (by simp; omega)
      | cons t vs => simp [← hus]
    refine ⟨e, rfl, us.length, hj, hposition _ hfound, ?_⟩
    rw [hposition _ hfound, hts.getElem hlt, hts.getElem hk]
    have htiling := ((Token.streams_tokenizePrefix text).tiling [] rfl).1
    exact htiling.offset_le hj (Nat.lt_of_lt_of_le hk hts.length_le)
  · refine absurd ⟨ts.drop (k + 1), ?_⟩ hstray
    rw [List.take_append_drop]
    exact matched_of_ofTokens hts hhash h

/-- A square bracket that is closed, and one that a parenthesis closes. -/
theorem brackets_ofTokens_of_list :
    Matched (Token.tokenizePrefix "f([a])") ∧
      ∃ e, ofTokens (Token.tokenizePrefix "f([a)") = .error e ∧ e.position.offset ≤ 4 := by
  constructor
  · have hread : (ofTokens (Token.tokenizePrefix "f([a])")).isOk = true := by decide +kernel
    cases h : ofTokens (Token.tokenizePrefix "f([a])") with
    | ok m => exact (brackets_ofTokens List.prefix_rfl (by decide +kernel)).1 m h
    | error e =>
      rw [h] at hread
      cases hread
  · have hstray : wanted? [] ((Token.tokenizePrefix "f([a)").take 5) = none := by decide +kernel
    obtain ⟨e, he, -, -, -, hle⟩ :=
      (brackets_ofTokens List.prefix_rfl (by decide +kernel)).2 4
        (by decide +kernel) (not_matched_of_wanted? hstray)
    exact ⟨e, he, hle.trans (by decide +kernel)⟩

end Module
end WrenAnalysis
