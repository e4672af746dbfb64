/-
# The parser loses nothing

The tokens that a module is read from have the words that its tree is rendered with, in
their order, up to newlines, modifiers, commas before closing brackets and empty parameter
lists (`Module.render_ofTokens`).  The rendering of a tree leaves open one thing, which trees
do not tell: whether a foreign method without statements has braces
(`Module.no_exact_render`).
-/

import WrenAnalysis.Proofs.Syntax.Edges
import WrenAnalysis.Proofs.Syntax.Rendering
import WrenAnalysis.Proofs.Syntax.Soundness

namespace WrenAnalysis

variable {t : Token} {us vs ls : List Token}

/-! ### Tokens that a tree is written with -/

/-- Tokens of a text without attributes come to what the pieces are written with. -/
def Renders (ps : List Piece) (us : List Token) : Prop :=
  (∀ t ∈ us, t.Spelled ∧ t.kind ≠ .symbol .hash) →
    ∃ ws, Written ps ws ∧ Same (wordsOf us) (spoken ws)

namespace Renders

variable {ps qs : List Piece} {us' : List Token}

/-- No tokens come to no pieces. -/
theorem nil : Renders [] [] := fun _ => ⟨[], .nil, .refl _⟩

/-- Tokens one behind the other come to their pieces one behind the other. -/
theorem append (h : Renders ps us) (h' : Renders qs vs) : Renders (ps ++ qs) (us ++ vs) := by
  intro hplain
  obtain ⟨hus, hvs⟩ := List.forall_mem_append.1 hplain
  obtain ⟨ws, hws, hsame⟩ := h hus
  obtain ⟨ws', hws', hsame'⟩ := h' hvs
  refine ⟨ws ++ ws', hws.append hws', ?_⟩
  rw [wordsOf_append, spoken, List.filter_append]
  exact hsame.append hsame'

/-- The tokens may be other ones that stand for these. -/
theorem same (h : Renders ps us) (hsub : us ⊆ us') (hsame : Same (wordsOf us') (wordsOf us)) :
    Renders ps us' := by
  intro hplain
  obtain ⟨ws, hws, hwords⟩ := h fun t ht => hplain t (hsub ht)
  exact ⟨ws, hws, hsame.trans hwords⟩

/-- A token that is spelled in one way comes to its word. -/
theorem word {w : Word} (ht : t.Spelled → t.word = w) (h : Renders ps us) :
    Renders (.word w :: ps) (t :: us) := by
  have hone : Renders [.word w] [t] := by
    intro hplain
    obtain ⟨hspelled, -⟩ := List.forall_mem_singleton.1 hplain
    refine ⟨[w], .word .nil, ?_⟩
    rw [← ht hspelled]
    exact .refl _
  exact hone.append h

/-- A token that is kept comes to itself. -/
theorem token (h : Renders ps us) : Renders (.token t :: ps) (t :: us) := h.word fun _ => rfl

/-- A symbol comes to its word, wherever it stands. -/
theorem symbol {s : Symbol} (ht : t.kind = .symbol s) (h : Renders ps us) :
    Renders (.symbol s :: ps) (t :: us) :=
  h.word fun hspelled => hspelled.1 s ht

/-- A keyword comes to its word, wherever it stands. -/
theorem keyword {k : Keyword} (ht : t.kind = .keyword k) (h : Renders ps us) :
    Renders (.keyword k :: ps) (t :: us) :=
  h.word fun hspelled => hspelled.2 k ht

/-- Newlines in front come to nothing. -/
theorem lines (hls : Lines ls) (h : Renders ps us) : Renders ps (ls ++ us) := by
  refine h.same (List.subset_append_right ls us) ?_
  rw [wordsOf_append, wordsOf_lines hls, List.nil_append]
  exact .refl _

/-- Newlines behind come to nothing. -/
theorem linesBehind (h : Renders ps us) (hls : Lines ls) : Renders ps (us ++ ls) := by
  refine h.same (List.subset_append_left us ls) ?_
  rw [wordsOf_append, wordsOf_lines hls, List.append_nil]
  exact .refl _

/-- Two words that may be left out are there. -/
theorem present {w w' : Word} (h : Renders [.word w, .word w'] us) :
    Renders [.perhaps [w, w']] us := by
  intro hplain
  obtain ⟨_, hws, hsame⟩ := h hplain
  cases hws with
  | word hws =>
    cases hws with
    | word hws =>
      cases hws
      exact ⟨_, .present .nil, hsame⟩

/-- Words that may be left out are missing. -/
theorem absent (ws : List Word) : Renders [.perhaps ws] [] :=
  fun _ => ⟨[], .absent .nil, .refl _⟩

/-- There are no attributes. -/
theorem attributed (hus : Attribute us) (vs : List Token) : Renders ps (us ++ vs) := by
  intro hplain
  obtain ⟨t, us, rfl, ht⟩ := hus.head
  exact absurd ht (hplain t (by simp)).2

/-- A comma stands behind the last item. -/
theorem trailing {c : Token} {ls' : List Token} {close : Symbol} (h : Renders ps us)
    (hends : Ends us) (hls : Lines ls) (ht : t.kind = .symbol .comma) (hls' : Lines ls')
    (hc : c.kind = .symbol close) (hclose : (Kind.symbol close).isClosing = true) :
    Renders (ps ++ [.symbol close]) (us ++ (ls ++ t :: (ls' ++ [c]))) := by
  have hclosed : Renders (ps ++ [.symbol close]) (us ++ [c]) := h.append (.symbol hc .nil)
  refine hclosed.same (by grind) ?_
  obtain ⟨ws, w, hw, hcomma⟩ := hends
  have hsame : Same (ws ++ [w, t.word, c.word]) (ws ++ [w, c.word]) :=
    (Same.refl ws).append (same_trailing hcomma ht (by rwa [Token.word, hc]))
  have hlong : wordsOf (us ++ (ls ++ t :: (ls' ++ [c]))) = ws ++ [w, t.word, c.word] := by
    rw [wordsOf_append, wordsOf_append, wordsOf_cons_symbol ht, wordsOf_append,
      wordsOf_lines hls, wordsOf_lines hls', wordsOf_cons_symbol hc, hw, List.append_assoc]
    rfl
  have hshort : wordsOf (us ++ [c]) = ws ++ [w, c.word] := by
    rw [wordsOf_append, wordsOf_cons_symbol hc, hw, List.append_assoc]
    rfl
  rwa [hlong, hshort]

/-- An empty parameter list stands at the front of a block. -/
theorem bars {o : Token} (ho : o.kind = .symbol .leftBrace) (ht : t.kind = .symbol .pipePipe)
    (hbegins : Begins us) (h : Renders ps (o :: us)) : Renders ps (o :: t :: us) := by
  refine h.same (by grind) ?_
  obtain ⟨w, ws, hw, hbar⟩ := hbegins
  have hsame : Same ([o.word, t.word, w] ++ ws) ([o.word, w] ++ ws) :=
    (same_bars ho ht hbar).append (Same.refl ws)
  rwa [wordsOf_cons_symbol ho, wordsOf_cons_symbol ht, wordsOf_cons_symbol ho, hw]

end Renders

/-! ### Names and heads -/

/-- A list of names comes to the names with commas between them. -/
theorem NameList.renders {close : Symbol} {ns : List Token} (h : NameList close ns us) :
    Renders (renderNames close ns) us := by
  induction h with
  | last _ hls ht => exact .token (.lines hls (.symbol ht .nil))
  | @more n t ls ls' ns us _ hls ht hls' hns ih =>
    have hmore : separator ns = [.symbol .comma] := by cases hns <;> rfl
    rw [renderNames, hmore]
    exact .token (.lines hls (.symbol ht (.lines hls' ih)))

/-- Names that may be missing come to the names with commas between them. -/
theorem Names.renders {close : Symbol} {ns : List Token} (h : Names close ns us) :
    Renders (renderNames close ns) us := by
  cases h with
  | none hls ht => exact .lines hls (.symbol ht .nil)
  | some hls hns => exact .lines hls hns.renders

/-- A name that may be missing comes to what leads to it and to itself. -/
theorem OptionalName.renders {k : Kind} {lead : Piece} {n : Option Token}
    (h : OptionalName k n us)
    (hlead : ∀ {t ps us}, t.kind = k → Renders ps us → Renders (lead :: ps) (t :: us)) :
    Renders (renderOptional lead n) us := by
  cases h with
  | none => exact .nil
  | some ht _ => exact hlead ht (.token .nil)

/-- Parameters come to a list in parentheses, or to nothing. -/
theorem Parameters.renders {ps : Option (List Token)} (h : Parameters ps us) :
    Renders (renderParameters ps) us := by
  cases h with
  | none => exact .nil
  | some ht hns => exact .symbol ht hns.renders

/-- Imported names come to the names with commas between them, old and new. -/
theorem ImportList.renders {ns : List ImportedName} (h : ImportList ns us) :
    Renders (renderImportList ns) us := by
  induction h with
  | last hls _ ha =>
    refine .lines hls (.token ?_)
    simpa [separator, renderImportList] using ha.renders .keyword
  | @more n t a ls us vs ns hls _ ha ht hns ih =>
    have hmore : separator ns = [.symbol .comma] := by cases hns <;> rfl
    rw [renderImportList, hmore]
    exact .lines hls (.token ((ha.renders .keyword).append (.symbol ht ih)))

/-- The parameter of a setter comes to an equals sign and a list of one. -/
theorem SetterValue.renders {v : Token} (h : SetterValue v us) :
    Renders (.symbol .eq :: renderParameters (some [v])) us := by
  cases h with
  | mk he ho _ hc => exact .symbol he (.symbol ho (.token (.symbol hc .nil)))

/-- A head comes to its name and its parameters, in the brackets of its kind. -/
theorem Heads.renders {n : Token} {k : MethodKind} {ps : Option (List Token)}
    (h : Heads n k ps us) (isConstruct isForeign isStatic : Bool) :
    Renders (MethodHead.render ⟨n, k, ps, isConstruct, isForeign, isStatic⟩) us := by
  cases h with
  | named _ hps => exact .token hps.renders
  | setter _ hv => exact .token hv.renders
  | operator _ hps => exact .token hps.renders
  | subscript _ hns => exact .token hns.renders
  | subscriptSetter _ hns hv =>
    refine .token ?_
    simpa using hns.renders.append hv.renders

/-- The words in front of a class come to themselves. -/
theorem ClassHead.renders {isForeign : Bool} (h : ClassHead isForeign us) :
    Renders (renderClassHead isForeign) us := by
  cases h with
  | plain hk => exact .keyword hk .nil
  | foreign hf hk => exact .keyword hf (.keyword hk .nil)

/-- The words in front of a method are left out on both sides. -/
theorem Modifies.renders {start found : Grammar.Modifiers} (h : Modifies start found us)
    (head : MethodHead) : Renders (head.marks.map .keyword) us := by
  refine fun _ => ⟨head.marks.map Keyword.word, written_keywords head.marks, ?_⟩
  have hsilent : spoken (head.marks.map Keyword.word) = [] := by
    obtain ⟨_, _, _, _ | _, _ | _, _ | _⟩ := head <;> rfl
  rw [wordsOf_modifiers h, hsilent]
  exact .refl _

/-- The braces and the parameters of a block, with its body between them. -/
theorem BlockHead.renders {o : Token} {ns : List Token} {ps : List Piece} (h : BlockHead ns us)
    (ho : o.kind = .symbol .leftBrace) (hbegins : Begins vs) (hbody : Renders ps vs) :
    Renders (.symbol .leftBrace :: (renderBlockHead ns ++ ps)) (o :: (us ++ vs)) := by
  cases h with
  | none => exact .symbol ho hbody
  | bars ht => exact .bars ho ht hbegins (.symbol ho hbody)
  | some ht hns =>
    have hsome : renderBlockHead ns = .symbol .pipe :: renderNames .pipe ns := by cases hns <;> rfl
    rw [hsome]
    exact .symbol ho (.symbol ht (hns.renders.append hbody))

/-! ### Constructs -/

/-- What closes a bracket is a closing bracket. -/
theorem Bracket.isClosing_close (r : Bracket) : (Kind.symbol r.close).isClosing = true := by
  cases r <;> rfl

/-- Each construct is rendered with the words of its tokens. -/
theorem Derives.renders {p : Phrase} (h : Derives p us) : Renders p.render us := by
  induction h with
  | null | bool | num | str | thisValue | field | staticField => exact .token .nil
  | name _ _ _ ih => exact .token ih
  | superCall _ hn _ ih => exact .token ((hn.renders .symbol).append ih)
  | group ho hls _ hls' hc ih =>
    exact .symbol ho (.lines hls (ih.append (.lines hls' (.symbol hc .nil))))
  | list _ _ ih | map _ _ ih => exact .token ih
  | continued _ hls ih => exact ih.linesBehind hls
  | call _ hd hls _ _ ih ihtail => exact ih.append (.symbol hd (.lines hls (.token ihtail)))
  | subscript _ _ _ ih ihs => exact ih.append (.token ihs)
  | unary _ _ ih => exact .token ih
  | binary _ _ hls _ ihl ihr => exact ihl.append (.token (.lines hls ihr))
  | conditional _ hq hls _ hls₁ hk hls₂ _ ihe iha ihb =>
    exact ihe.append (.symbol hq (.lines hls (iha.append (.lines hls₁ (.symbol hk
      (.lines hls₂ ihb))))))
  | assign _ htarget hq hls _ ihe ihv =>
    rw [Phrase.render, Expr.render, Expr.render_of_target? htarget]
    exact ihe.append (.symbol hq (.lines hls ihv))
  | argumentsEnd hls ht => exact .lines hls (.symbol ht .nil)
  | argumentsLast hls _ hls' ht ih =>
    exact .lines hls (ih.append (.lines hls' (.symbol ht .nil)))
  | @argumentsMore r t e es ls us ls' vs hls he hls' ht hes ihe ihs =>
    refine .lines hls ?_
    -- A comma behind the last item is not rendered.
    cases es with
    | nil =>
      cases hes with
      | argumentsEnd hls₁ hc => exact ihe.trailing he.edged.2 hls' ht hls₁ hc r.isClosing_close
    | cons e' es => exact ihe.append (.lines hls' (.symbol ht ihs))
  | entriesEnd hls ht => exact .lines hls (.symbol ht .nil)
  | entriesLast hls _ hls₁ hk hls₂ _ hls₃ ht ihk ihv =>
    exact .lines hls (ihk.append (.lines hls₁ (.symbol hk (.lines hls₂ (ihv.append
      (.lines hls₃ (.symbol ht .nil)))))))
  | @entriesMore k t key value es ls us ls₁ ls₂ vs ls₃ ws hls _ hls₁ hk hls₂ hv hls₃ ht hes ihk
      ihv ihs =>
    refine .lines hls (ihk.append (.lines hls₁ (.symbol hk (.lines hls₂ ?_))))
    cases es with
    | nil =>
      cases hes with
      | entriesEnd hls₄ hc => exact ihv.trailing hv.edged.2 hls₃ ht hls₄ hc rfl
    | cons e es => exact ihv.append (.lines hls₃ (.symbol ht ihs))
  | tailNone => exact .nil
  | @tailArguments o es us ho _ ih =>
    have hcall : Renders (renderCall (some es)) (o :: us) := .symbol ho ih
    simpa [Phrase.render, renderBlock] using hcall
  | @tailBlock o as ps ss us vs ws _ ho hps hss ih ihs =>
    have hcall : Renders (renderCall as) us := by simpa [Phrase.render, renderBlock] using ih
    exact hcall.append (hps.renders ho hss.edged.1 ihs)
  | condition ho hls _ hls' hc ih =>
    exact .symbol ho (.lines hls (ih.append (.lines hls' (.symbol hc .nil))))
  | expr _ ih => exact ih
  | block hb _ ih => exact .symbol hb ih
  | ifThen _ _ _ hls ihe ihs => exact .token (ihe.append (ihs.linesBehind hls))
  | ifElse _ _ _ hls ht _ ihe ihs ihs' =>
    exact .token (ihe.append (ihs.append (.lines hls (.keyword ht ihs'))))
  | whileLoop _ _ _ ihe ihs => exact .token (ihe.append ihs)
  | forLoop _ ho hls _ hi hls₁ _ hls₂ hc _ ihe ihs =>
    exact .token (.symbol ho (.lines hls (.token (.keyword hi (.lines hls₁ (ihe.append
      (.lines hls₂ (.symbol hc ihs))))))))
  | returning | breaking | continuing => exact .token .nil
  | returningValue _ _ ih => exact .token ih
  | importing hk => exact .keyword hk (.token .nil)
  | @importingNames k p f ns us hk _ hf hns =>
    have hsome : renderImports ns = .keyword .for_ :: renderImportList ns := by cases hns <;> rfl
    rw [Phrase.render, Stmt.render, hsome]
    exact .keyword hk (.token (.keyword hf hns.renders))
  | var hk => exact .keyword hk (.token .nil)
  | varValue hk _ hq hls _ ih => exact .keyword hk (.token (.symbol hq (.lines hls ih)))
  | classDef hhead _ hparent hb _ ih =>
    exact hhead.renders.append (.token ((hparent.renders .keyword).append (.symbol hb ih)))
  | bodyEnd hls ht => exact .lines hls (.symbol ht .nil)
  | bodyAttribute hls hus _ _ => exact .lines hls (.attributed hus _)
  | bodyMore hls _ hls' _ ihs ih => exact .lines hls (ihs.append (.lines hls' ih))
  | @methodBody n b k ps ss found us vs ws hfound hhead hb _ ih =>
    refine (hfound.renders _).append ((hhead.renders _ _ _).append ?_)
    split
    · next hempty =>
      obtain rfl : ss = [] := by simpa using (Bool.and_eq_true_iff.1 hempty).2
      exact .present (.symbol hb ih)
    · exact .symbol hb ih
  | @methodForeign n k ps found us vs hfound hforeign hhead =>
    have hboth := (hhead.renders found.isConstruct found.isForeign found.isStatic).append
      (.absent [Symbol.leftBrace.word, Symbol.rightBrace.word])
    rw [List.append_nil] at hboth
    refine (hfound.renders _).append ?_
    simpa [hforeign] using hboth
  | methodsEnd hls ht => exact .lines hls (.symbol ht .nil)
  | methodsAttribute hls hus _ _ => exact .lines hls (.attributed hus _)
  | methodsMore hls _ hls' _ ihm ih => exact .lines hls (ihm.append (.lines hls' ih))

/-! ### Modules -/

/-- Statements come to their pieces, one behind the other. -/
theorem Statements.renders {ss : List Stmt} (h : Statements ss us) :
    Renders (ss.flatMap Stmt.render) us := by
  induction h with
  | nil => exact .nil
  | attributed hus => exact .attributed hus _
  | definition hs hls _ ih => exact hs.renders.append (.lines hls ih)

/-- No words stand behind the end of a text. -/
theorem wordsOf_rest {text : String} {rest : List Token}
    (hts : us ++ rest <+: Token.tokenizePrefix text) (hrest : ∀ t ∈ rest.head?, t.kind = .eof) :
    wordsOf rest = [] := by
  obtain rfl | ⟨t, rfl, ht⟩ := Token.rest_eq_nil_or_end hts hrest
  · rfl
  · exact wordsOf_cons_of_silent (by simp [ht, Kind.isSilent]) []

namespace Module

/-- **The parser loses nothing and makes up nothing.**  The tokens of a text without
attributes, all of them or the first few, that are read as a module have the words that the
module is rendered with.  The braces of a foreign method without statements are the only
ones that the tree does not tell. -/
theorem render_ofTokens {text : String} {ts : List Token} {m : Module}
    (hts : ts <+: Token.tokenizePrefix text) (hplain : ∀ t ∈ ts, t.kind ≠ .symbol .hash)
    (h : ofTokens ts = .ok m) :
    ∃ ws, Written m.render ws ∧ core (ts.map Token.word) = core ws := by
  obtain ⟨ls, us, rest, rfl, hls, hss, hrest⟩ := statements_of_ofTokens h
  have hspelled : ∀ t ∈ ls ++ us, t.Spelled ∧ t.kind ≠ .symbol .hash := by
    intro t ht
    have hmem : t ∈ ls ++ (us ++ rest) := by
      rw [← List.append_assoc]
      exact List.mem_append_left rest ht
    exact ⟨(Token.streams_tokenizePrefix text).spelled t (hts.subset hmem), hplain t hmem⟩
  obtain ⟨ws, hws, hsame⟩ := hss.renders.lines hls hspelled
  refine ⟨ws, hws, ?_⟩
  rw [← List.append_assoc] at hts ⊢
  calc core ((ls ++ us ++ rest).map Token.word)
    _ = tidy (wordsOf (ls ++ us) ++ wordsOf rest) := congrArg tidy (wordsOf_append ..)
    _ = tidy (wordsOf (ls ++ us)) := by rw [wordsOf_rest hts hrest, List.append_nil]
    _ = core ws := hsame.tidy_eq

/-- The tokens before a stray bracket: foreign methods with and without a body, a setter, a
comma behind the last item and a block with an empty parameter list. -/
theorem render_ofTokens_of_comma :
    ∃ ts m ws, ts = (Token.tokenizePrefix
      "class A \x7b\nforeign a\nforeign b \x7b\x7d\nc=(d) \x7b[1,].e \x7b|| f\x7d\x7d\x7d\n)").take
      31 ∧ ofTokens ts = .ok m ∧ Written m.render ws ∧ core (ts.map Token.word) = core ws := by
  have hm : (ofTokens ((Token.tokenizePrefix
      "class A \x7b\nforeign a\nforeign b \x7b\x7d\nc=(d) \x7b[1,].e \x7b|| f\x7d\x7d\x7d\n)").take
      31)).isOk = true := by decide +kernel
  generalize hts : (Token.tokenizePrefix _).take 31 = ts at hm
  cases h : ofTokens ts with
  | error e =>
    rw [h] at hm
    cases hm
  | ok m =>
    obtain ⟨ws, hws, hcore⟩ :=
      render_ofTokens (hts ▸ List.take_prefix 31 _) (by rw [← hts]; decide +kernel) h
    exact ⟨ts, m, ws, rfl, h, hws, hcore⟩

/-- What is read is a class `n` with one method `h`, which has no statements. -/
def isLoneMethod (n : Token) (h : MethodHead) : Except SyntaxError Module → Bool
  | .ok ⟨[.classDef false n' none [.mk h' []]]⟩ => n' = n && h' = h
  | _ => false

/-- Only a class with one method and nothing else passes the test for it. -/
theorem eq_of_isLoneMethod {n : Token} {h : MethodHead} {r : Except SyntaxError Module}
    (hr : isLoneMethod n h r = true) : r = .ok ⟨[.classDef false n none [.mk h []]]⟩ := by
  unfold isLoneMethod at hr
  split at hr
  · simp only [Bool.and_eq_true, decide_eq_true_eq] at hr
    rw [hr.1, hr.2]
  · cases hr

/-- The tree of a foreign method without statements does not tell whether its braces were
written, so no words that are rendered from the tree alone are always those of the text. -/
theorem no_exact_render : ¬ ∃ render : Module → List Word,
    ∀ (text : String) (ts : List Token) (m : Module), ts <+: Token.tokenizePrefix text →
      (∀ t ∈ ts, t.kind ≠ .symbol .hash) → ofTokens ts = .ok m →
      core (ts.map Token.word) = core (render m) := by
  rintro ⟨render, hrender⟩
  let n : Token := ⟨.name, "A", ⟨1, 6, 6⟩⟩
  let h : MethodHead := ⟨⟨.name, "b", ⟨1, 16, 16⟩⟩, .named, none, false, true, false⟩
  have hwithout := eq_of_isLoneMethod (n := n) (h := h)
    (r := ofTokens (Token.tokenizePrefix "class A\x7bforeign b\x7d")) (by decide +kernel)
  have hwith := eq_of_isLoneMethod (n := n) (h := h)
    (r := ofTokens (Token.tokenizePrefix "class A\x7bforeign b\x7b\x7d\x7d")) (by decide +kernel)
  have heq := (hrender _ _ _ List.prefix_rfl (by decide +kernel) hwithout).trans
    (hrender _ _ _ List.prefix_rfl (by decide +kernel) hwith).symm
  exact absurd heq (by decide +kernel)

end Module
end WrenAnalysis
