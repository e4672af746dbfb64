/-
# What a label tells

A label is written from the modifiers, the class, the kind, the name and the parameters of a
method.  Names have characters of their own, so a reader can tell where each part ends: the
class in front of a point or a bracket (`MethodHead.label_front`), the list of parameters
(`MethodHead.commaSeparated_inj`), and the name with what makes it an operator or a setter
(`MethodHead.Stem.unique`).  So methods with one label differ in their bodies only
(`Module.label_eq_iff`).
-/

import WrenAnalysis.Proofs.Syntax.Line
import WrenAnalysis.Proofs.Syntax.Retained
import WrenAnalysis.Proofs.Syntax.WellFormed
import WrenAnalysis.Syntax.Outline

namespace WrenAnalysis

/-! ### Names -/

/-- The characters are a name, by themselves. -/
def IsName (cs : List Char) : Prop := Lexeme.Scans cs .name cs.length

namespace IsName

variable {cs : List Char}

/-- What a label has between its parts is in no name. -/
theorem notMem (h : IsName cs) {c : Char} (hc : c ∈ [' ', ',', '.', '(', '[', ']', '=']) :
    c ∉ cs := fun hmem => by
  have hmarks : [' ', ',', '.', '(', '[', ']', '='].all (fun c => !Text.isNamePart c) = true := by
    decide +kernel
  have hpart := h.name_part c hmem
  have hmark := List.all_eq_true.1 hmarks c hc
  rw [hpart] at hmark
  cases hmark

/-- A name has a character. -/
theorem ne_nil (h : IsName cs) : cs ≠ [] := by
  obtain ⟨c, ds, rfl, -⟩ := h.name_start
  exact List.cons_ne_nil c ds

/-- A symbol is no name, nor does it start with one. -/
theorem ne_symbol (h : IsName cs) (s : Symbol) (ds : List Char) : cs ++ ds ≠ s.spelling := by
  have hsymbols : ∀ s : Symbol, (s.spelling.all fun c => !Text.isNamePart c) = true := by
    intro s
    cases s <;> decide +kernel
  intro hs
  obtain ⟨c, es, rfl, hstart⟩ := h.name_start
  have hpart := List.all_eq_true.1 (hsymbols s) c (by simp [← hs])
  rw [Lexeme.isNamePart_of_isNameStart hstart] at hpart
  cases hpart

/-- A reserved word is no name. -/
theorem ne_is (h : IsName cs) : cs ≠ Keyword.is_.spelling.toList := by
  rintro rfl
  have hscan := Lexeme.scan_eq_ok_iff.2 h
  revert hscan
  decide +kernel

end IsName

/-- A token of a text is the same token by itself. -/
theorem Token.scans_of_mem {text : String} {t : Token} (ht : t ∈ tokenizePrefix text)
    (hk : t.kind ≠ .eof) : Lexeme.Scans t.text.toList t.kind t.text.toList.length := by
  rcases (streams_tokenizePrefix text).scanned t ht with rfl | ⟨front, rest, -, -, hscans⟩
  · exact absurd rfl hk
  · rw [length, ← String.length_toList] at hscans
    have hshares : Lexeme.Shares t.text.toList.length (t.text.toList ++ rest)
        (t.text.toList ++ []) := Lexeme.shares_append _ List.nil_prefix
    rw [List.append_nil] at hshares
    exact hscans.shares hshares

/-! ### Where a part of a label ends -/

/-- Two runs of a class of characters that end before others are the same. -/
theorem run_unique {p : Char → Bool} {xs ys as bs : List Char} (hx : ∀ c ∈ xs, p c = true)
    (hy : ∀ c ∈ ys, p c = true) (ha : ∀ c ∈ as.head?, p c = false)
    (hb : ∀ c ∈ bs.head?, p c = false) (h : xs ++ as = ys ++ bs) : xs = ys ∧ as = bs := by
  have htake : ∀ zs cs : List Char, (∀ c ∈ zs, p c = true) → (∀ c ∈ cs.head?, p c = false) →
      (zs ++ cs).takeWhile p = zs := by
    intro zs cs hz hc
    rw [List.takeWhile_append_of_pos hz]
    cases cs with
    | nil => exact List.append_nil zs
    | cons c cs => rw [List.takeWhile_cons_of_neg (by simp [hc c rfl]), List.append_nil]
  obtain rfl : xs = ys := by rw [← htake xs as hx ha, h, htake ys bs hy hb]
  exact ⟨rfl, List.append_cancel_left h⟩

/-- Two runs of a class of characters that start behind others are the same. -/
theorem run_unique_behind {p : Char → Bool} {xs ys as bs : List Char}
    (hx : ∀ c ∈ xs.getLast?, p c = false) (hy : ∀ c ∈ ys.getLast?, p c = false)
    (ha : ∀ c ∈ as, p c = true) (hb : ∀ c ∈ bs, p c = true) (h : xs ++ as = ys ++ bs) :
    xs = ys ∧ as = bs := by
  have hreverse := congrArg List.reverse h
  rw [List.reverse_append, List.reverse_append] at hreverse
  obtain ⟨has, hxs⟩ := run_unique (p := p) (by simpa using ha) (by simpa using hb)
    (by rwa [List.head?_reverse]) (by rwa [List.head?_reverse]) hreverse
  exact ⟨List.reverse_injective hxs, List.reverse_injective has⟩

namespace MethodHead

variable {g h : MethodHead} {a b : String} {names names' : List String}

/-- Without its blanks a list of names is cut at its commas. -/
theorem filter_commaSeparated (hn : ∀ n ∈ names, IsName n.toList) :
    (commaSeparated names).toList.filter (· ≠ ' ') =
      [','].intercalate (names.map String.toList) := by
  have hname : ∀ n ∈ names, n.toList.filter (· ≠ ' ') = n.toList := fun n hmem =>
    List.filter_eq_self.2 fun c hc => by
      simpa using fun hblank => (hn n hmem).notMem (by simp) (hblank ▸ hc)
  rw [commaSeparated, String.toList_intercalate]
  induction names with
  | nil => rfl
  | cons n names ih =>
    obtain ⟨hhead, htail⟩ := List.forall_mem_cons.1 hname
    cases names with
    | nil => simpa using hhead
    | cons m names =>
      have hmore := ih (fun n hn' => hn n (List.mem_cons_of_mem _ hn')) htail
      simp only [List.map_cons, List.intercalate_cons_cons, List.filter_append] at hmore ⊢
      rw [hhead, hmore]
      rfl

/-- **A list of names is read back.** -/
theorem commaSeparated_inj (hn : ∀ n ∈ names, IsName n.toList)
    (hn' : ∀ n ∈ names', IsName n.toList)
    (heq : commaSeparated names = commaSeparated names') : names = names' := by
  have hsplit : ∀ ns : List String, ns ≠ [] → (∀ n ∈ ns, IsName n.toList) →
      ((commaSeparated ns).toList.filter (· ≠ ' ')).splitOn ',' = ns.map String.toList := by
    intro ns hne hns
    rw [filter_commaSeparated hns]
    refine List.splitOn_intercalate ',' (fun cs hcs => ?_) (by simpa using hne)
    obtain ⟨n, hmem, rfl⟩ := List.mem_map.1 hcs
    exact (hns n hmem).notMem (by simp)
  -- No name is empty, so no list of names but the empty one is written with nothing.
  have hempty : ∀ ns : List String, ns ≠ [] → (∀ n ∈ ns, IsName n.toList) →
      commaSeparated [] ≠ commaSeparated ns := by
    intro ns hne hns hnil
    have hnone := hsplit ns hne hns
    rw [← hnil] at hnone
    obtain ⟨n, ns, rfl⟩ := List.exists_cons_of_ne_nil hne
    exact (hns n List.mem_cons_self).ne_nil (List.cons.inj hnone).1.symm
  rcases eq_or_ne names [] with rfl | hne <;> rcases eq_or_ne names' [] with rfl | hne'
  · rfl
  · exact absurd heq (hempty names' hne' hn')
  · exact absurd heq.symm (hempty names hne hn)
  · have hmap := hsplit names hne hn
    rw [heq, hsplit names' hne' hn'] at hmap
    exact (List.map_injective_iff.2 (fun _ _ => String.toList_injective) hmap).symm

/-! ### The parts of a head -/

/-- The head is one that is read: well formed, and each of its tokens is such a token by
itself. -/
structure Written (h : MethodHead) : Prop where
  wellFormed : h.WellFormed
  scans : ∀ t ∈ h.tokens, Lexeme.Scans t.text.toList t.kind t.text.toList.length

/-- Heads that tell the same of a method. -/
structure Alike (g h : MethodHead) : Prop where
  isConstruct : g.isConstruct = h.isConstruct
  isForeign : g.isForeign = h.isForeign
  isStatic : g.isStatic = h.isStatic
  kind : g.kind = h.kind
  name : g.name.text = h.name.text
  /-- Both have a parameter list, or none of them has one. -/
  listed : g.parameters.isSome = h.parameters.isSome
  parameterNames : g.parameterNames = h.parameterNames

/-- The names in a head are spelled as names are. -/
theorem Written.isName (hw : h.Written) {t : Token} (ht : t ∈ h.tokens) (hk : t.kind = .name) :
    IsName t.text.toList := by
  have hscans := hw.scans t ht
  rwa [hk] at hscans

/-- Parameters are spelled as names are. -/
theorem Written.isName_parameter (hw : h.Written) : ∀ n ∈ h.parameterNames, IsName n.toList := by
  intro n hn
  obtain ⟨t, ht, rfl⟩ := List.mem_map.1 hn
  refine hw.isName (List.mem_cons_of_mem _ ht) ?_
  cases hps : h.parameters with
  | none => simp [hps] at ht
  | some ps => exact hw.wellFormed.1 ps hps t (by simpa [hps] using ht)

/-- The list of the parameters in its parentheses, if there is one. -/
def listing (h : MethodHead) : List Char :=
  if h.parameters.isSome then '(' :: ((commaSeparated h.parameterNames).toList ++ [')']) else []

/-- What a label has in front of the parameter list for the name of a method. -/
inductive Stem : MethodKind → (name stem : List Char) → Prop
  | named {u : List Char} : IsName u → Stem .named u u
  | setter {u : List Char} : IsName u → Stem .setter u (u ++ ['='])
  | symbol {s : Symbol} : s ≠ .leftParen → Stem .operator s.spelling s.spelling
  | is : Stem .operator Keyword.is_.spelling.toList Keyword.is_.spelling.toList

/-- No parenthesis stands in front of a parameter list. -/
theorem Stem.notMem {k : MethodKind} {u w : List Char} (hs : Stem k u w) : '(' ∉ w := by
  cases hs with
  | named hu => exact hu.notMem (by simp)
  | setter hu => exact List.not_mem_append (hu.notMem (by simp)) (by decide)
  | @symbol s hne => cases s <;> first | exact absurd rfl hne | decide
  | is => decide

/-- **The stem tells the kind and the name.** -/
theorem Stem.unique {k k' : MethodKind} {u u' w : List Char} (hs : Stem k u w)
    (hs' : Stem k' u' w) : k = k' ∧ u = u' := by
  have hequals : ∀ v : List Char, v ++ ['='] ≠ Keyword.is_.spelling.toList := fun v hv => by
    have hlast := congrArg List.getLast? hv
    rw [List.getLast?_concat] at hlast
    revert hlast
    decide
  generalize hw : w = w' at hs'
  cases hs with
  | named hu =>
    cases hs' with
    | named => exact ⟨rfl, hw⟩
    | setter => exact absurd (by rw [hw]; simp) (hu.notMem (c := '=') (by simp))
    | @symbol s => exact absurd ((List.append_nil u).trans hw) (hu.ne_symbol s [])
    | is => exact absurd hw hu.ne_is
  | setter hu =>
    cases hs' with
    | named hu' => exact absurd (by rw [← hw]; simp) (hu'.notMem (c := '=') (by simp))
    | setter => exact ⟨rfl, List.append_cancel_right hw⟩
    | @symbol s => exact absurd hw (hu.ne_symbol s ['='])
    | is => exact absurd hw (hequals u)
  | @symbol s =>
    cases hs' with
    | named hu' => exact absurd ((List.append_nil u').trans hw.symm) (hu'.ne_symbol s [])
    | setter hu' => exact absurd hw.symm (hu'.ne_symbol s ['='])
    | symbol | is => exact ⟨rfl, hw⟩
  | is =>
    cases hs' with
    | named hu' => exact absurd hw.symm hu'.ne_is
    | setter => exact absurd hw.symm (hequals _)
    | symbol | is => exact ⟨rfl, hw⟩

/-- What stands behind the class, by the kind of the method. -/
inductive Shape (h : MethodHead) : List Char → Prop
  | call {w : List Char} : Stem h.kind h.name.text.toList w → Shape h ('.' :: (w ++ h.listing))
  | subscript : h.kind = .subscript → h.name.text = "[" → h.parameters.isSome = true →
      Shape h ('[' :: ((commaSeparated h.parameterNames).toList ++ [']']))
  | subscriptSetter {ns : List String} {n : String} : h.kind = .subscriptSetter →
      h.name.text = "[" → h.parameters.isSome = true → h.parameterNames = ns ++ [n] →
      Shape h ('[' :: ((commaSeparated ns).toList ++ (']' :: '=' :: '(' :: (n.toList ++ [')']))))

/-- The tokens of a head are spelled as their kinds say. -/
theorem Written.spelled (hw : h.Written) {t : Token} (ht : t ∈ h.tokens) : t.Spelled := by
  have hspelled := (hw.scans t ht).spelled t.position
  rwa [List.take_length, String.ofList_toList] at hspelled

/-- A method with an operator for a name is named by a symbol or by `is`. -/
theorem symbol_or_is_of_isOperatorName {k : Kind} (hk : k.isOperatorName = true) :
    (∃ s, k = .symbol s ∧ s ≠ .leftParen) ∨ k = .keyword .is_ := by
  cases k with
  | symbol s => exact .inl ⟨s, rfl, by rintro rfl; cases hk⟩
  | keyword w => cases w <;> first | exact .inr rfl | cases hk
  | _ => cases hk

/-- The name of a subscript is its opening bracket. -/
theorem Written.text_of_bracket (hw : h.Written) (hk : h.name.kind = .symbol .leftBracket) :
    h.name.text = "[" :=
  String.toList_injective ((hw.spelled List.mem_cons_self).text_eq hk)

/-- The shape of a call is made of a stem and a list, as the head is written. -/
theorem Written.shape (hw : h.Written) : Shape h h.callShape.toList := by
  have hmem : h.name ∈ h.tokens := List.mem_cons_self
  have hlisting : ∀ u, ("." ++ u ++ if h.parameters.isSome = true then
      "(" ++ commaSeparated h.parameterNames ++ ")" else "").toList =
        '.' :: (u.toList ++ h.listing) := by
    intro u
    unfold listing
    split <;> simp
  obtain ⟨-, hkind⟩ := hw.wellFormed
  cases hk : h.kind with
  | named =>
    rw [hk] at hkind
    have hstem : Stem h.kind h.name.text.toList h.name.text.toList :=
      hk ▸ Stem.named (hw.isName hmem hkind)
    simp only [callShape, hk]
    rw [hlisting]
    exact .call hstem
  | setter =>
    rw [hk] at hkind
    obtain ⟨hname, v, hv⟩ := hkind
    have hstem : Stem h.kind h.name.text.toList (h.name.text.toList ++ ['=']) :=
      hk ▸ Stem.setter (hw.isName hmem hname)
    have hcall := Shape.call hstem
    simpa [callShape, hk, listing, hv] using hcall
  | operator =>
    rw [hk] at hkind
    have hstem : Stem h.kind h.name.text.toList h.name.text.toList := by
      rw [hk]
      rcases symbol_or_is_of_isOperatorName hkind with ⟨s, hs, hne⟩ | his
      · rw [(hw.spelled hmem).text_eq hs]
        exact .symbol hne
      · rw [show h.name.text = Keyword.is_.spelling from
          congrArg Prod.snd ((hw.spelled hmem).2 _ his)]
        exact .is
    simp only [callShape, hk]
    rw [hlisting]
    exact .call hstem
  | subscript =>
    rw [hk] at hkind
    obtain ⟨hbracket, ns, hns⟩ := hkind
    have hsubscript := Shape.subscript hk (hw.text_of_bracket hbracket) (by rw [hns]; rfl)
    simpa [callShape, hk] using hsubscript
  | subscriptSetter =>
    rw [hk] at hkind
    obtain ⟨hbracket, ns, hns, hpos⟩ := hkind
    have hne : h.parameterNames ≠ [] := by
      rw [parameterNames, hns]
      simpa using List.length_pos_iff.1 hpos
    have hsetter := Shape.subscriptSetter hk (hw.text_of_bracket hbracket) (by rw [hns]; rfl)
      (List.dropLast_concat_getLast hne).symm
    simpa [callShape, hk, List.getLast?_eq_some_getLast hne] using hsetter

/-- The parameter list of a label tells the parameters. -/
theorem listing_inj (hg : g.Written) (hh : h.Written) (heq : g.listing = h.listing) :
    g.parameters.isSome = h.parameters.isSome ∧ g.parameterNames = h.parameterNames := by
  unfold listing at heq
  split at heq <;> split at heq
  · next hsome hsome' =>
    rw [List.cons_inj_right, List.append_left_inj] at heq
    exact ⟨hsome.trans hsome'.symm, commaSeparated_inj hg.isName_parameter hh.isName_parameter
      (String.toList_injective heq)⟩
  · cases heq
  · cases heq
  · next hnone hnone' =>
    simp only [Option.not_isSome_iff_eq_none] at hnone hnone'
    simp [parameterNames, hnone, hnone']

/-- What stands behind the class tells the rest. -/
theorem Shape.unique {cs : List Char} (hg : g.Written) (hh : h.Written) (hs : Shape g cs)
    (hs' : Shape h cs) : g.kind = h.kind ∧ g.name.text = h.name.text ∧
      g.parameters.isSome = h.parameters.isSome ∧ g.parameterNames = h.parameterNames := by
  generalize hcs : cs = ds at hs'
  cases hs with
  | call hstem =>
    cases hs' with
    | call hstem' =>
      have hparen : ∀ f : MethodHead, ∀ c ∈ f.listing.head?, decide (c ≠ '(') = false := by
        intro f
        unfold listing
        split <;> simp
      have hstems : ∀ {k u w}, Stem k u w → ∀ c ∈ w, decide (c ≠ '(') = true := fun hw c hc =>
        decide_eq_true fun hparen => hw.notMem (hparen ▸ hc)
      obtain ⟨rfl, hlist⟩ := run_unique (hstems hstem) (hstems hstem') (hparen g) (hparen h)
        (List.cons.inj hcs).2
      obtain ⟨hkind, hname⟩ := hstem.unique hstem'
      exact ⟨hkind, String.toList_injective hname, listing_inj hg hh hlist⟩
    | subscript | subscriptSetter => cases hcs
  | subscript hk hn hsome =>
    cases hs' with
    | call => cases hcs
    | subscript hk' hn' hsome' =>
      rw [List.cons_inj_right, List.append_left_inj] at hcs
      exact ⟨hk.trans hk'.symm, hn.trans hn'.symm, hsome.trans hsome'.symm,
        commaSeparated_inj hg.isName_parameter hh.isName_parameter (String.toList_injective hcs)⟩
    | subscriptSetter =>
      have hlast := congrArg List.getLast? hcs
      simp [List.getLast?_cons, List.getLast?_append] at hlast
  | @subscriptSetter ns n hk hn hsome hns =>
    cases hs' with
    | call => cases hcs
    | subscript =>
      have hlast := congrArg List.getLast? hcs
      simp [List.getLast?_cons, List.getLast?_append] at hlast
    | @subscriptSetter ns' n' hk' hn' hsome' hns' =>
      have hnames := hns ▸ hg.isName_parameter
      have hnames' := hns' ▸ hh.isName_parameter
      rw [List.forall_mem_append, List.forall_mem_singleton] at hnames hnames'
      have hopen : ∀ {m : String}, IsName m.toList → ∀ c ∈ m.toList, decide (c ≠ '(') = true :=
        fun hm c hc => decide_eq_true fun hparen => hm.notMem (by simp) (hparen ▸ hc)
      have hinside : (commaSeparated ns).toList ++ [']', '=', '('] ++ n.toList =
          (commaSeparated ns').toList ++ [']', '=', '('] ++ n'.toList := by
        rw [← List.append_left_inj [')']]
        simpa using hcs
      obtain ⟨hsub, hvalue⟩ := run_unique_behind (by simp) (by simp) (hopen hnames.2)
        (hopen hnames'.2) hinside
      rw [List.append_left_inj] at hsub
      refine ⟨hk.trans hk'.symm, hn.trans hn'.symm, hsome.trans hsome'.symm, ?_⟩
      rw [hns, hns', commaSeparated_inj hnames.1 hnames'.1 (String.toList_injective hsub),
        String.toList_injective hvalue]

/-! ### Whole labels -/

/-- The modifiers, if there are any, end with a blank, and none has a point or a bracket. -/
theorem modifiers_chars (h : MethodHead) :
    (∀ c ∈ h.modifiers.toList.getLast?, c = ' ') ∧
      ∀ c ∈ h.modifiers.toList, c ≠ '.' ∧ c ≠ '[' := by
  unfold modifiers
  cases h.isConstruct <;> cases h.isForeign <;> cases h.isStatic <;> simp

/-- The words in front of a label tell the modifiers. -/
theorem modifiers_inj (heq : g.modifiers = h.modifiers) : g.isConstruct = h.isConstruct ∧
    g.isForeign = h.isForeign ∧ g.isStatic = h.isStatic := by
  unfold modifiers at heq
  revert heq
  cases g.isConstruct <;> cases g.isForeign <;> cases g.isStatic <;> cases h.isConstruct <;>
    cases h.isForeign <;> cases h.isStatic <;> decide

/-- The shape of a call begins with a dot or a bracket. -/
theorem Written.callShape_head (hw : h.Written) :
    ∀ c ∈ h.callShape.toList.head?, decide (c ≠ '.' ∧ c ≠ '[') = false := by
  have hshape := hw.shape
  generalize h.callShape.toList = cs at hshape ⊢
  cases hshape <;> simp

/-- What a label has in front of a point or a bracket is the modifiers and the class. -/
theorem label_front (ha : IsName a.toList) (hb : IsName b.toList) (hg : g.Written)
    (hh : h.Written) (heq : g.label a = h.label b) :
    g.modifiers = h.modifiers ∧ a = b ∧ g.callShape = h.callShape := by
  have hfront : ∀ (f : MethodHead) (n : String), IsName n.toList →
      ∀ c ∈ f.modifiers.toList ++ n.toList, decide (c ≠ '.' ∧ c ≠ '[') = true := by
    intro f n hn c hc
    rw [decide_eq_true_iff]
    rcases List.mem_append.1 hc with hc | hc
    · exact f.modifiers_chars.2 c hc
    · exact ⟨fun hpoint => hn.notMem (by simp) (hpoint ▸ hc),
        fun hbracket => hn.notMem (by simp) (hbracket ▸ hc)⟩
  have hblank : ∀ (f : MethodHead), ∀ c ∈ f.modifiers.toList.getLast?,
      decide (c ≠ ' ') = false := fun f c hc => by simpa using f.modifiers_chars.1 c hc
  have hname : ∀ n : String, IsName n.toList → ∀ c ∈ n.toList, decide (c ≠ ' ') = true :=
    fun n hn c hc => decide_eq_true fun hblank => hn.notMem (by simp) (hblank ▸ hc)
  have hchars := congrArg String.toList heq
  simp only [label, String.toList_append] at hchars
  obtain ⟨hfronts, hshape⟩ := run_unique (hfront g a ha) (hfront h b hb) hg.callShape_head
    hh.callShape_head hchars
  obtain ⟨hmodifiers, hab⟩ := run_unique_behind (hblank g) (hblank h) (hname a ha) (hname b hb)
    hfronts
  exact ⟨String.toList_injective hmodifiers, String.toList_injective hab,
    String.toList_injective hshape⟩

/-- A label is written from what heads tell of a method. -/
theorem Alike.label_eq (hg : g.Alike h) (a : String) : g.label a = h.label a := by
  simp only [label, modifiers, callShape, hg.isConstruct, hg.isForeign, hg.isStatic, hg.kind,
    hg.name, hg.listed, hg.parameterNames]

/-- **A label is read back**, up to what is not written in it. -/
theorem label_iff (ha : IsName a.toList) (hb : IsName b.toList) (hg : g.Written)
    (hh : h.Written) : g.label a = h.label b ↔ a = b ∧ g.Alike h := by
  refine ⟨fun heq => ?_, fun ⟨hab, halike⟩ => hab ▸ halike.label_eq a⟩
  obtain ⟨hmodifiers, hab, hcall⟩ := label_front ha hb hg hh heq
  obtain ⟨hconstruct, hforeign, hstatic⟩ := modifiers_inj hmodifiers
  obtain ⟨hkind, hname, hlisted, hparameters⟩ := (hcall ▸ hg.shape).unique hg hh hh.shape
  exact ⟨hab, hconstruct, hforeign, hstatic, hkind, hname, hlisted, hparameters⟩

end MethodHead

/-! ### Methods of a module -/

namespace Module

/-- The module has a class of this name, at the top level or in a block, with this method. -/
def Declares (m : Module) (className : Token) (x : Method) : Prop :=
  ∃ isForeign superclass methods,
    m.Has (.stmt (.classDef isForeign className superclass methods)) ∧ x ∈ methods

variable {ts ts' : List Token} {m m' : Module} {c c' : Token} {x x' : Method}

/-- The classes of the index are among those. -/
theorem declares_of_mem_classes {d : ClassDef} (hd : d ∈ m.classes) (hx : x ∈ d.methods) :
    m.Declares d.name x := by
  obtain ⟨s, hs, hclass⟩ := List.mem_filterMap.1 hd
  unfold Stmt.classDef? at hclass
  split at hclass
  · cases hclass
    exact ⟨_, _, _, ⟨_, hs, .self⟩, hx⟩
  · cases hclass

/-- A class that is read has a name, and its methods have heads as they are read. -/
theorem written_of_declares (hts : ∀ t ∈ ts, ∃ text, t ∈ Token.tokenizePrefix text)
    (hm : ofTokens ts = .ok m) (hx : m.Declares c x) :
    IsName c.text.toList ∧ x.head.Written := by
  obtain ⟨isForeign, superclass, methods, ⟨s, hs, hclass⟩, hx⟩ := hx
  have hmethod : (Node.stmt s).Has (.method x) :=
    hclass.trans (.child (List.mem_append_right _ (List.mem_map_of_mem hx)) .self)
  have hwellFormed := fun y hy => wellFormed_ofTokens hm y ⟨s, hs, hy⟩
  have hkept := kept_of_ofTokens hm
  -- What the tree keeps of a token of a text is that token by itself.
  have hscans : ∀ y, (Node.stmt s).Has y → ∀ t ∈ y.tokens,
      Lexeme.Scans t.text.toList t.kind t.text.toList.length := by
    intro y hy t ht
    have hmem : t ∈ m.tokens := (Has.tokens_sublist ⟨s, hs, hy⟩).subset ht
    obtain ⟨text, htext⟩ := hts t (hkept.sublist.subset hmem)
    exact Token.scans_of_mem htext (hkept.solid t hmem).2
  constructor
  · have hname := hscans _ hclass c List.mem_cons_self
    rwa [(hwellFormed _ hclass).1] at hname
  · refine ⟨hwellFormed _ hmethod, fun t ht => hscans _ hmethod t ?_⟩
    obtain ⟨head, body⟩ := x
    exact List.mem_append_left _ ht

/-- **Labels tell methods apart.**  Two methods of classes in modules that are read from tokens
of texts, from whole texts or not, have the same label if and only if their classes have one
name and the heads agree in the modifiers, the kind, the name, in whether there is a parameter
list, and in the names of the parameters. -/
theorem label_eq_iff (hts : ∀ t ∈ ts, ∃ text, t ∈ Token.tokenizePrefix text)
    (hts' : ∀ t ∈ ts', ∃ text, t ∈ Token.tokenizePrefix text) (hm : ofTokens ts = .ok m)
    (hm' : ofTokens ts' = .ok m') (hx : m.Declares c x) (hx' : m'.Declares c' x') :
    x.head.label c.text = x'.head.label c'.text ↔
      c.text = c'.text ∧ x.head.Alike x'.head := by
  obtain ⟨hc, hwritten⟩ := written_of_declares hts hm hx
  obtain ⟨hc', hwritten'⟩ := written_of_declares hts' hm' hx'
  exact MethodHead.label_iff hc hc' hwritten hwritten'

/-- A foreign setter of a subscript with a body, and one on two lines without. -/
theorem label_eq_iff_of_setter :
    ∃ m m' c c' x x',
      ofTokens (Token.tokenizePrefix "class A \x7b static foreign [a, b]=(c) \x7b a \x7d \x7d") =
        .ok m ∧
      ofTokens (Token.tokenizePrefix
        "class A is B \x7b\n foreign static [a, // one\n b]=(c)\n\x7d $") = .ok m' ∧
      m.Declares c x ∧ m'.Declares c' x' ∧
      x.head.label c.text = x'.head.label c'.text ∧
      c.text = c'.text ∧ x.head.Alike x'.head := by
  have hlabels : (ofTokens (Token.tokenizePrefix
      "class A \x7b static foreign [a, b]=(c) \x7b a \x7d \x7d")).toOption.map
        (fun m => m.classes.flatMap fun d => d.methods.map fun x => x.head.label d.name.text) =
      some ["foreign static A[a, b]=(c)"] := by decide +kernel
  have hlabels' : (ofTokens (Token.tokenizePrefix
      "class A is B \x7b\n foreign static [a, // one\n b]=(c)\n\x7d $")).toOption.map
        (fun m => m.classes.flatMap fun d => d.methods.map fun x => x.head.label d.name.text) =
      some ["foreign static A[a, b]=(c)"] := by decide +kernel
  have hdeclares : ∀ {m : Module} {l : String},
      (m.classes.flatMap fun d => d.methods.map fun x => x.head.label d.name.text) = [l] →
        ∃ c x, m.Declares c x ∧ x.head.label c.text = l := by
    intro m l hl
    obtain ⟨d, hd, hx⟩ := List.mem_flatMap.1 (hl ▸ List.mem_singleton_self l)
    obtain ⟨x, hx, hlabel⟩ := List.mem_map.1 hx
    exact ⟨d.name, x, declares_of_mem_classes hd hx, hlabel⟩
  obtain ⟨m, hm, hlist⟩ := exists_of_toOption_map hlabels
  obtain ⟨m', hm', hlist'⟩ := exists_of_toOption_map hlabels'
  obtain ⟨c, x, hx, hlabel⟩ := hdeclares hlist
  obtain ⟨c', x', hx', hlabel'⟩ := hdeclares hlist'
  have heq := hlabel.trans hlabel'.symm
  exact ⟨m, m', c, c', x, x', hm, hm', hx, hx', heq,
    (label_eq_iff (fun t ht => ⟨_, ht⟩) (fun t ht => ⟨_, ht⟩) hm hm' hx hx').1 heq⟩

end Module
end WrenAnalysis
