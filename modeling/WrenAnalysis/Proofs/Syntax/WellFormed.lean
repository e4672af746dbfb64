/-
# Trees are well formed

What a node says of its own tokens and parts is `Node.WellFormed`: names are names, a method
has the parameters that its kind asks for, a field has one underscore in front and a static
field more, and a setter assigns to a subscript or to a plain call on a receiver.  The rules
of the grammar give it for each node they build (`Derives.wellFormed`), however deep it
stands, so it holds of every node of a module that is read (`Module.wellFormed_ofTokens`).
-/

import Mathlib.Tactic.SplitIfs
import WrenAnalysis.Proofs.Syntax.Fitting
import WrenAnalysis.Proofs.Syntax.Soundness

namespace WrenAnalysis

/-! ### Underscores -/

/-- The number of underscores in front. -/
def Token.underscores (t : Token) : Nat := (t.text.toList.takeWhile (· = '_')).length

/-- The class of a name is read off its underscores. -/
theorem Token.nameClass_eq (t : Token) :
    t.nameClass = if t.underscores = 0 then .plain
      else if t.underscores = 1 then .field else .staticField := by
  rw [nameClass, NameClass.of, underscores]
  cases t.text.toList with
  | nil => rfl
  | cons c cs =>
    by_cases hc : c = '_'
    · subst hc
      cases cs with
      | nil => rfl
      | cons d cs => by_cases hd : d = '_' <;> simp [NameClass.ofChars, hd]
    · simp [NameClass.ofChars, hc]

namespace Token

variable {t : Token}

/-- A plain name starts with no underscore. -/
theorem nameClass_eq_plain_iff : t.nameClass = .plain ↔ t.underscores = 0 := by
  rw [nameClass_eq]
  split_ifs with h <;> simp [h]

/-- A field starts with one underscore. -/
theorem nameClass_eq_field_iff : t.nameClass = .field ↔ t.underscores = 1 := by
  rw [nameClass_eq]
  split_ifs with h h' <;> simp_all

/-- A static field starts with two underscores or more. -/
theorem nameClass_eq_staticField_iff : t.nameClass = .staticField ↔ 2 ≤ t.underscores := by
  rw [nameClass_eq]
  split_ifs with h h' <;> simp <;> omega

end Token

/-! ### Nodes -/

/-- All of them are names. -/
def AllNames (ts : List Token) : Prop := ∀ t ∈ ts, t.kind = .name

/-- The place of an assignment is what its spelling says, and a setter has a receiver and at
most a subscript behind it. -/
def Target.WellFormed : Target → Prop
  | .plain name => name.kind = .name ∧ name.underscores = 0
  | .field name => name.kind = .name ∧ name.underscores = 1
  | .staticField name => name.kind = .name ∧ 2 ≤ name.underscores
  | .setter place =>
    (∃ receiver bracket arguments, place = .subscript receiver bracket arguments) ∨
      ∃ receiver name, place = .call (some receiver) name none none

/-- A method has the name and the parameters that its kind asks for. -/
def MethodHead.WellFormed (h : MethodHead) : Prop :=
  (∀ ns ∈ h.parameters, AllNames ns) ∧
    match h.kind with
    | .named => h.name.kind = .name
    | .setter => h.name.kind = .name ∧ ∃ value, h.parameters = some [value]
    | .operator => h.name.kind.isOperatorName = true
    | .subscript => h.name.kind = .symbol .leftBracket ∧ ∃ ns, h.parameters = some ns
    | .subscriptSetter =>
      h.name.kind = .symbol .leftBracket ∧ ∃ ns, h.parameters = some ns ∧ 1 ≤ ns.length

/-- The tokens of a node are of the kinds, and spelled the way, that the node says. -/
def Node.WellFormed : Node → Prop
  | .expr (.field name) => name.kind = .name ∧ name.underscores = 1
  | .expr (.staticField name) => name.kind = .name ∧ 2 ≤ name.underscores
  | .expr (.superCall _ name _ _) => AllNames name.toList
  | .expr (.call receiver name _ _) =>
    name.kind = .name ∧ (receiver = none → name.underscores = 0)
  | .expr (.assign target _) => target.WellFormed
  | .stmt (.importing _ names) => ∀ n ∈ names, n.name.kind = .name ∧ AllNames n.knownAs.toList
  | .stmt (.classDef _ name superclass _) => name.kind = .name ∧ AllNames superclass.toList
  | .stmt (.var name _) => name.kind = .name
  | .stmt (.forLoop _ name _ _) => name.kind = .name
  | .block b => AllNames b.parameters
  | .method m => m.head.WellFormed
  | _ => True

/-- Every node is well formed, those inside of others included. -/
def AllWellFormed (xs : List Node) : Prop := ∀ x ∈ xs, ∀ y, x.Has y → y.WellFormed

namespace AllWellFormed

variable {x : Node} {xs ys : List Node}

/-- There is nothing wrong with no nodes. -/
theorem nil : AllWellFormed [] := nofun

/-- Well-formed nodes behind well-formed ones are well-formed. -/
theorem append (h : AllWellFormed xs) (h' : AllWellFormed ys) : AllWellFormed (xs ++ ys) :=
  List.forall_mem_append.2 ⟨h, h'⟩

/-- A node with the part that it was built around and its other parts. -/
theorem node (hx : x.WellFormed) (hlink : AllWellFormed x.link.toList)
    (hparts : AllWellFormed x.parts) : AllWellFormed [x] := by
  refine List.forall_mem_singleton.2 fun y hy => ?_
  cases hy with
  | self => exact hx
  | child hchild hy => exact hlink.append hparts _ hchild y hy

/-- A node by itself is well-formed if all nodes below it are. -/
theorem head (h : AllWellFormed [x]) : x.WellFormed := h x (List.mem_singleton_self x) x .self

end AllWellFormed

/-! ### Names and heads -/

variable {us : List Token}

/-- A list of names is names. -/
theorem NameList.allNames {close : Symbol} {ns : List Token} (h : NameList close ns us) :
    AllNames ns := by
  induction h with
  | last hn => exact List.forall_mem_singleton.2 hn
  | more hn _ _ _ _ ih => exact List.forall_mem_cons.2 ⟨hn, ih⟩

/-- Names that may be missing are names. -/
theorem Names.allNames {close : Symbol} {ns : List Token} (h : Names close ns us) :
    AllNames ns := by
  cases h with
  | none => exact nofun
  | some _ hns => exact hns.allNames

/-- A name that may be missing is a name. -/
theorem OptionalName.allNames {k : Kind} {n : Option Token} (h : OptionalName k n us) :
    AllNames n.toList := by
  cases h with
  | none => exact nofun
  | some _ hn => exact List.forall_mem_singleton.2 hn

/-- Block parameters are names. -/
theorem BlockHead.allNames {ns : List Token} (h : BlockHead ns us) : AllNames ns := by
  cases h with
  | none | bars => exact nofun
  | some _ hns => exact hns.allNames

/-- Parameters are names. -/
theorem Parameters.allNames {ps : Option (List Token)} (h : Parameters ps us) :
    ∀ ns ∈ ps, AllNames ns := by
  cases h with
  | none => exact nofun
  | some _ hns =>
    rintro _ ⟨⟩
    exact hns.allNames

/-- Imported names are names, old and new. -/
theorem ImportList.wellFormed {ns : List ImportedName} (h : ImportList ns us) :
    ∀ n ∈ ns, n.name.kind = .name ∧ AllNames n.knownAs.toList := by
  induction h with
  | last _ hn ha => exact List.forall_mem_singleton.2 ⟨hn, ha.allNames⟩
  | more _ hn ha _ _ ih => exact List.forall_mem_cons.2 ⟨⟨hn, ha.allNames⟩, ih⟩

/-- The parameter of a setter is a name. -/
theorem SetterValue.kind {v : Token} (h : SetterValue v us) : v.kind = .name := by
  cases h with
  | mk _ _ hv => exact hv

/-- A head that is read fits its kind. -/
theorem Heads.wellFormed {n : Token} {k : MethodKind} {ps : Option (List Token)}
    (h : Heads n k ps us) (isConstruct isForeign isStatic : Bool) :
    MethodHead.WellFormed ⟨n, k, ps, isConstruct, isForeign, isStatic⟩ := by
  cases h with
  | named hn hps => exact ⟨hps.allNames, hn⟩
  | setter hn hv =>
    refine ⟨?_, hn, _, rfl⟩
    rintro _ ⟨⟩
    exact List.forall_mem_singleton.2 hv.kind
  | operator ho hps => exact ⟨hps.allNames, ho⟩
  | subscript hb hns =>
    refine ⟨?_, hb, _, rfl⟩
    rintro _ ⟨⟩
    exact hns.allNames
  | subscriptSetter hb hns hv =>
    refine ⟨?_, hb, _, rfl, by simp⟩
    rintro _ ⟨⟩
    exact List.forall_mem_append.2 ⟨hns.allNames, List.forall_mem_singleton.2 hv.kind⟩

/-! ### Constructs -/

/-- The place that a well-formed expression stands for. -/
theorem Expr.wellFormed_of_target? {e : Expr} {target : Target} (he : (Node.expr e).WellFormed)
    (h : e.target? = some target) : target.WellFormed := by
  cases standsFor_of_target? h with
  | name =>
    obtain ⟨hname, hplain⟩ := he
    rw [Target.ofName, Token.nameClass_eq_plain_iff.2 (hplain rfl)]
    exact ⟨hname, hplain rfl⟩
  | field => exact he
  | staticField => exact he
  | call => exact .inr ⟨_, _, rfl⟩
  | subscript => exact .inl ⟨_, _, _, rfl⟩

/-- The nodes that a construct is made of. -/
def Phrase.nodes : Phrase → List Node
  | .expr e => [.expr e]
  | .arguments _ es => es.map .expr
  | .entries es => es.flatMap fun e => [.expr e.key, .expr e.value]
  | .tail given block => Node.ofTail given block
  | .condition e => [.expr e]
  | .stmt s => [.stmt s]
  | .body ss => ss.map .stmt
  | .method m => [.method m]
  | .methods ms => ms.map .method

/-- What is written by the rules of the grammar is well formed, in all its parts. -/
theorem Derives.wellFormed {p : Phrase} (h : Derives p us) : AllWellFormed p.nodes := by
  induction h with
  | null | bool | num | str | thisValue => exact .node trivial .nil .nil
  | field ht hclass => exact .node ⟨ht, Token.nameClass_eq_field_iff.1 hclass⟩ .nil .nil
  | staticField ht hclass =>
    exact .node ⟨ht, Token.nameClass_eq_staticField_iff.1 hclass⟩ .nil .nil
  | name ht hclass _ ih =>
    exact .node ⟨ht, fun _ => Token.nameClass_eq_plain_iff.1 hclass⟩ .nil ih
  | superCall _ hn _ ih => exact .node hn.allNames .nil ih
  | group _ _ _ _ _ ih | list _ _ ih | map _ _ ih | unary _ _ ih | expr _ ih | block _ _ ih
  | returningValue _ _ ih => exact .node trivial .nil ih
  | continued _ _ ih | condition _ _ _ _ _ ih => exact ih
  | call _ _ _ hn _ ih ihtail => exact .node ⟨hn, nofun⟩ ih ihtail
  | subscript _ _ _ ih ihs => exact .node trivial ih ihs
  | binary _ _ _ _ ihl ihr => exact .node trivial ihl ihr
  | conditional _ _ _ _ _ _ _ _ ihe iha ihb =>
    exact .node trivial .nil (ihe.append (iha.append ihb))
  | assign _ htarget _ _ _ ihe ihv =>
    refine .node (Expr.wellFormed_of_target? ihe.head htarget) .nil fun y hy => ?_
    rcases Grammar.parts_of_target? htarget y hy with rfl | rfl
    · exact ihe _ (List.mem_singleton_self _)
    · exact ihv _ (List.mem_singleton_self _)
  | argumentsEnd | entriesEnd | tailNone | bodyEnd | methodsEnd => exact .nil
  | argumentsLast _ _ _ _ ih => exact ih
  | argumentsMore _ _ _ _ _ ihe ihs => exact ihe.append ihs
  | entriesLast _ _ _ _ _ _ _ _ ihk ihv => exact ihk.append ihv
  | entriesMore _ _ _ _ _ _ _ _ _ ihk ihv ihs => exact (ihk.append ihv).append ihs
  | tailArguments _ _ ih => exact ih.append .nil
  | tailBlock _ _ hps _ ih ihs =>
    rw [Phrase.nodes, Node.ofTail, Option.toList_none, List.map_nil, List.append_nil] at ih
    exact ih.append (.node hps.allNames .nil ihs)
  | ifThen _ _ _ _ ihe ihs | whileLoop _ _ _ ihe ihs =>
    exact .node trivial .nil (ihe.append ihs)
  | ifElse _ _ _ _ _ _ ihe ihs ihs' => exact .node trivial .nil (ihe.append (ihs.append ihs'))
  | forLoop _ _ _ hn _ _ _ _ _ _ ihe ihs => exact .node hn .nil (ihe.append ihs)
  | returning | breaking | continuing => exact .node trivial .nil .nil
  | importing => exact .node (List.forall_mem_nil _) .nil .nil
  | importingNames _ _ _ hns => exact .node hns.wellFormed .nil .nil
  | var _ hn => exact .node hn .nil .nil
  | varValue _ hn _ _ _ ih => exact .node hn .nil ih
  | classDef _ hn hparent _ _ ih => exact .node ⟨hn, hparent.allNames⟩ .nil ih
  | bodyAttribute _ _ _ ih | methodsAttribute _ _ _ ih => exact ih
  | bodyMore _ _ _ _ ihs ih => exact ihs.append ih
  | methodBody _ hhead _ _ ih => exact .node (hhead.wellFormed _ _ _) .nil ih
  | methodForeign _ _ hhead => exact .node (hhead.wellFormed _ _ _) .nil .nil
  | methodsMore _ _ _ _ ihm ih => exact ihm.append ih

/-- Statements that are read are well-formed. -/
theorem Statements.wellFormed {ss : List Stmt} (h : Statements ss us) :
    AllWellFormed (ss.map .stmt) := by
  induction h with
  | nil => exact .nil
  | attributed _ _ _ ih => exact ih
  | definition hs _ _ ih => exact hs.wellFormed.append ih

namespace Module

/-- **What is read is well formed.**  Every node of a module that is read, at any depth, has
names where it says so; a method has the parameters of its kind; fields, static fields and
plain names have one, several and no underscores in front; and what is assigned to is a name,
a subscript, or a call on a receiver with neither arguments nor a block. -/
theorem wellFormed_ofTokens {ts : List Token} {m : Module} (h : ofTokens ts = .ok m) :
    ∀ x, m.Has x → x.WellFormed := by
  obtain ⟨ls, us, rest, -, -, hss, -⟩ := statements_of_ofTokens h
  rintro x ⟨s, hs, hx⟩
  exact hss.wellFormed (.stmt s) (List.mem_map_of_mem hs) x hx

/-- A class with a method of each kind, an import and a block that assigns to each kind of
place. -/
theorem wellFormed_ofTokens_of_class :
    ∃ m, ofTokens (Token.tokenizePrefix ("class A is B \x7b\n a \x7b\x7d\n b=(c) \x7b\x7d\n" ++
        " +(d) \x7b\x7d\n [e] \x7b\x7d\n [e]=(f) \x7b\x7d\n\x7d\n import \"g\" for h as i\n" ++
        " var j = a \x7b|k|\n k = _l = __m = n.o = p[q] = r\n\x7d")) = .ok m ∧
      m.statements.length = 3 ∧ ∀ x, m.Has x → x.WellFormed := by
  have hm : ((ofTokens (Token.tokenizePrefix ("class A is B \x7b\n a \x7b\x7d\n b=(c) \x7b\x7d\n" ++
      " +(d) \x7b\x7d\n [e] \x7b\x7d\n [e]=(f) \x7b\x7d\n\x7d\n import \"g\" for h as i\n" ++
      " var j = a \x7b|k|\n k = _l = __m = n.o = p[q] = r\n\x7d"))).toOption.map
        fun m => m.statements.length) = some 3 := by decide +kernel
  obtain ⟨m, h, hcount⟩ := exists_of_toOption_map hm
  exact ⟨m, h, hcount, wellFormed_ofTokens h⟩

end Module
end WrenAnalysis
