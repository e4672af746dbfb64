/-
# The grammar as a relation

`Derives` relates each construct of a tree to the tokens it is written with, newlines and
brackets included: one rule for each production, with no word on how far a reading looks
ahead or how deep it may nest.
-/

import WrenAnalysis.Proofs.Syntax.Reading
import WrenAnalysis.Syntax.Grammar.Statement

namespace WrenAnalysis

/-! ### Names and heads -/

/-- Names with commas between them, up to the closing symbol. -/
inductive NameList (close : Symbol) : List Token → List Token → Prop
  | last {n t : Token} {ls : List Token} :
      n.kind = .name → Lines ls → t.kind = .symbol close → NameList close [n] (n :: (ls ++ [t]))
  | more {n t : Token} {ls ls' ns us : List Token} :
      n.kind = .name → Lines ls → t.kind = .symbol .comma → Lines ls' → NameList close ns us →
      NameList close (n :: ns) (n :: (ls ++ t :: (ls' ++ us)))

/-- Names up to the closing symbol, of which there may be none. -/
inductive Names (close : Symbol) : List Token → List Token → Prop
  | none {t : Token} {ls : List Token} :
      Lines ls → t.kind = .symbol close → Names close [] (ls ++ [t])
  | some {ls ns us : List Token} : Lines ls → NameList close ns us → Names close ns (ls ++ us)

/-- A name behind a token of kind `k`, which may be missing. -/
inductive OptionalName (k : Kind) : Option Token → List Token → Prop
  | none : OptionalName k none []
  | some {t n : Token} : t.kind = k → n.kind = .name → OptionalName k (some n) [t, n]

/-- The parameters in front of the body of a block. -/
inductive BlockHead : List Token → List Token → Prop
  | none : BlockHead [] []
  | bars {t : Token} : t.kind = .symbol .pipePipe → BlockHead [] [t]
  | some {t : Token} {ns us : List Token} :
      t.kind = .symbol .pipe → NameList .pipe ns us → BlockHead ns (t :: us)

/-- The names of an import, behind its `for`. -/
inductive ImportList : List ImportedName → List Token → Prop
  | last {n : Token} {a : Option Token} {ls us : List Token} :
      Lines ls → n.kind = .name → OptionalName (.keyword .as_) a us →
      ImportList [⟨n, a⟩] (ls ++ n :: us)
  | more {n t : Token} {a : Option Token} {ls us vs : List Token} {ns : List ImportedName} :
      Lines ls → n.kind = .name → OptionalName (.keyword .as_) a us → t.kind = .symbol .comma →
      ImportList ns vs → ImportList (⟨n, a⟩ :: ns) (ls ++ n :: (us ++ t :: vs))

/-- A parameter list in parentheses, which may be missing. -/
inductive Parameters : Option (List Token) → List Token → Prop
  | none : Parameters none []
  | some {t : Token} {ns us : List Token} :
      t.kind = .symbol .leftParen → Names .rightParen ns us → Parameters (some ns) (t :: us)

/-- The parameter of a setter, with the equals sign before it. -/
inductive SetterValue : Token → List Token → Prop
  | mk {e o v c : Token} : e.kind = .symbol .eq → o.kind = .symbol .leftParen →
      v.kind = .name → c.kind = .symbol .rightParen → SetterValue v [e, o, v, c]

/-- The name, the kind and the parameters of a method. -/
inductive Heads : Token → MethodKind → Option (List Token) → List Token → Prop
  | named {n : Token} {ps : Option (List Token)} {us : List Token} :
      n.kind = .name → Parameters ps us → Heads n .named ps (n :: us)
  | setter {n v : Token} {us : List Token} :
      n.kind = .name → SetterValue v us → Heads n .setter (some [v]) (n :: us)
  | operator {o : Token} {ps : Option (List Token)} {us : List Token} :
      o.kind.isOperatorName = true → Parameters ps us → Heads o .operator ps (o :: us)
  | subscript {b : Token} {ns us : List Token} :
      b.kind = .symbol .leftBracket → Names .rightBracket ns us →
      Heads b .subscript (some ns) (b :: us)
  | subscriptSetter {b v : Token} {ns us vs : List Token} :
      b.kind = .symbol .leftBracket → Names .rightBracket ns us → SetterValue v vs →
      Heads b .subscriptSetter (some (ns ++ [v])) (b :: (us ++ vs))

/-- The words in front of a method, and what is found with them. -/
inductive Modifies : (start found : Grammar.Modifiers) → List Token → Prop
  | none {found : Grammar.Modifiers} : Modifies found found []
  | construct {start found : Grammar.Modifiers} {t : Token} {us : List Token} :
      t.kind = .keyword .construct_ → Modifies { start with isConstruct := true } found us →
      Modifies start found (t :: us)
  | foreign {start found : Grammar.Modifiers} {t : Token} {us : List Token} :
      t.kind = .keyword .foreign_ → Modifies { start with isForeign := true } found us →
      Modifies start found (t :: us)
  | static {start found : Grammar.Modifiers} {t : Token} {us : List Token} :
      t.kind = .keyword .static_ → Modifies { start with isStatic := true } found us →
      Modifies start found (t :: us)

/-- The keywords in front of the name of a class. -/
inductive ClassHead : (isForeign : Bool) → List Token → Prop
  | plain {k : Token} : k.kind = .keyword .class_ → ClassHead false [k]
  | foreign {f k : Token} :
      f.kind = .keyword .foreign_ → k.kind = .keyword .class_ → ClassHead true [f, k]

/-! ### The rules -/

/-- The brackets around arguments. -/
inductive Bracket where
  | paren
  | square

/-- The symbol that closes the bracket. -/
def Bracket.close : Bracket → Symbol
  | paren => .rightParen
  | square => .rightBracket

/-- The constructs that contain each other. -/
inductive Phrase where
  | expr (e : Expr)
  /-- Arguments up to the closing bracket. -/
  | arguments (bracket : Bracket) (es : List Expr)
  /-- The entries of a map up to the closing brace. -/
  | entries (es : List Entry)
  /-- What a name is called with. -/
  | tail (arguments : Option (List Expr)) (block : Option Block)
  /-- A condition in parentheses. -/
  | condition (e : Expr)
  | stmt (s : Stmt)
  /-- Statements up to the closing brace. -/
  | body (ss : List Stmt)
  | method (m : Method)
  /-- Methods up to the closing brace. -/
  | methods (ms : List Method)

/-- The tokens that a construct is written with. -/
inductive Derives : Phrase → List Token → Prop
  | null {t : Token} : t.kind = .keyword .null_ → Derives (.expr (.null t)) [t]
  | bool {t : Token} :
      t.kind ∈ [.keyword .true_, .keyword .false_] → Derives (.expr (.bool t)) [t]
  | num {t : Token} : t.kind = .number → Derives (.expr (.num t)) [t]
  | str {t : Token} : t.kind = .string → Derives (.expr (.str t)) [t]
  | thisValue {t : Token} : t.kind = .keyword .this_ → Derives (.expr (.thisValue t)) [t]
  | field {t : Token} :
      t.kind = .name → t.nameClass = .field → Derives (.expr (.field t)) [t]
  | staticField {t : Token} :
      t.kind = .name → t.nameClass = .staticField → Derives (.expr (.staticField t)) [t]
  | name {t : Token} {as : Option (List Expr)} {b : Option Block} {us : List Token} :
      t.kind = .name → t.nameClass = .plain → Derives (.tail as b) us →
      Derives (.expr (.call none t as b)) (t :: us)
  | superCall {t : Token} {n : Option Token} {as : Option (List Expr)} {b : Option Block}
      {us vs : List Token} :
      t.kind = .keyword .super_ → OptionalName (.symbol .dot) n us → Derives (.tail as b) vs →
      Derives (.expr (.superCall t n as b)) (t :: (us ++ vs))
  | group {o c : Token} {e : Expr} {ls us ls' : List Token} :
      o.kind = .symbol .leftParen → Lines ls → Derives (.expr e) us → Lines ls' →
      c.kind = .symbol .rightParen →
      Derives (.expr (.group e)) (o :: (ls ++ (us ++ (ls' ++ [c]))))
  | list {b : Token} {es : List Expr} {us : List Token} :
      b.kind = .symbol .leftBracket → Derives (.arguments .square es) us →
      Derives (.expr (.list b es)) (b :: us)
  | map {b : Token} {es : List Entry} {us : List Token} :
      b.kind = .symbol .leftBrace → Derives (.entries es) us →
      Derives (.expr (.map b es)) (b :: us)
  /-- An expression goes on behind newlines. -/
  | continued {e : Expr} {us ls : List Token} :
      Derives (.expr e) us → Lines ls → Derives (.expr e) (us ++ ls)
  | call {d n : Token} {e : Expr} {as : Option (List Expr)} {b : Option Block}
      {us ls vs : List Token} :
      Derives (.expr e) us → d.kind = .symbol .dot → Lines ls → n.kind = .name →
      Derives (.tail as b) vs →
      Derives (.expr (.call (some e) n as b)) (us ++ d :: (ls ++ n :: vs))
  | subscript {b : Token} {e : Expr} {es : List Expr} {us vs : List Token} :
      Derives (.expr e) us → b.kind = .symbol .leftBracket →
      Derives (.arguments .square es) vs →
      Derives (.expr (.subscript e b es)) (us ++ b :: vs)
  | unary {o : Token} {e : Expr} {us : List Token} :
      o.kind ∈ [.symbol .minus, .symbol .bang, .symbol .tilde] → Derives (.expr e) us →
      Derives (.expr (.unary o e)) (o :: us)
  | binary {o : Token} {l r : Expr} {p : Nat} {us ls vs : List Token} :
      Derives (.expr l) us → o.kind.precedence = some p → Lines ls → Derives (.expr r) vs →
      Derives (.expr (.binary l o r)) (us ++ o :: (ls ++ vs))
  | conditional {q k : Token} {e a b : Expr} {us ls vs ls₁ ls₂ ws : List Token} :
      Derives (.expr e) us → q.kind = .symbol .question → Lines ls → Derives (.expr a) vs →
      Lines ls₁ → k.kind = .symbol .colon → Lines ls₂ → Derives (.expr b) ws →
      Derives (.expr (.conditional e a b))
        (us ++ q :: (ls ++ (vs ++ (ls₁ ++ k :: (ls₂ ++ ws)))))
  | assign {q : Token} {e v : Expr} {target : Target} {us ls vs : List Token} :
      Derives (.expr e) us → e.target? = some target → q.kind = .symbol .eq → Lines ls →
      Derives (.expr v) vs → Derives (.expr (.assign target v)) (us ++ q :: (ls ++ vs))
  | argumentsEnd {r : Bracket} {t : Token} {ls : List Token} :
      Lines ls → t.kind = .symbol r.close → Derives (.arguments r []) (ls ++ [t])
  | argumentsLast {r : Bracket} {t : Token} {e : Expr} {ls us ls' : List Token} :
      Lines ls → Derives (.expr e) us → Lines ls' → t.kind = .symbol r.close →
      Derives (.arguments r [e]) (ls ++ (us ++ (ls' ++ [t])))
  | argumentsMore {r : Bracket} {t : Token} {e : Expr} {es : List Expr}
      {ls us ls' vs : List Token} :
      Lines ls → Derives (.expr e) us → Lines ls' → t.kind = .symbol .comma →
      Derives (.arguments r es) vs →
      Derives (.arguments r (e :: es)) (ls ++ (us ++ (ls' ++ t :: vs)))
  | entriesEnd {t : Token} {ls : List Token} :
      Lines ls → t.kind = .symbol .rightBrace → Derives (.entries []) (ls ++ [t])
  | entriesLast {k t : Token} {key value : Expr} {ls us ls₁ ls₂ vs ls₃ : List Token} :
      Lines ls → Derives (.expr key) us → Lines ls₁ → k.kind = .symbol .colon → Lines ls₂ →
      Derives (.expr value) vs → Lines ls₃ → t.kind = .symbol .rightBrace →
      Derives (.entries [.mk key value])
        (ls ++ (us ++ (ls₁ ++ k :: (ls₂ ++ (vs ++ (ls₃ ++ [t]))))))
  | entriesMore {k t : Token} {key value : Expr} {es : List Entry}
      {ls us ls₁ ls₂ vs ls₃ ws : List Token} :
      Lines ls → Derives (.expr key) us → Lines ls₁ → k.kind = .symbol .colon → Lines ls₂ →
      Derives (.expr value) vs → Lines ls₃ → t.kind = .symbol .comma →
      Derives (.entries es) ws →
      Derives (.entries (.mk key value :: es))
        (ls ++ (us ++ (ls₁ ++ k :: (ls₂ ++ (vs ++ (ls₃ ++ t :: ws))))))
  | tailNone : Derives (.tail none none) []
  | tailArguments {o : Token} {es : List Expr} {us : List Token} :
      o.kind = .symbol .leftParen → Derives (.arguments .paren es) us →
      Derives (.tail (some es) none) (o :: us)
  /-- The block comes behind the arguments. -/
  | tailBlock {o : Token} {as : Option (List Expr)} {ps : List Token} {ss : List Stmt}
      {us vs ws : List Token} :
      Derives (.tail as none) us → o.kind = .symbol .leftBrace → BlockHead ps vs →
      Derives (.body ss) ws → Derives (.tail as (some (.mk ps ss))) (us ++ o :: (vs ++ ws))
  | condition {o c : Token} {e : Expr} {ls us ls' : List Token} :
      o.kind = .symbol .leftParen → Lines ls → Derives (.expr e) us → Lines ls' →
      c.kind = .symbol .rightParen →
      Derives (.condition e) (o :: (ls ++ (us ++ (ls' ++ [c]))))
  | expr {e : Expr} {us : List Token} : Derives (.expr e) us → Derives (.stmt (.expr e)) us
  | block {b : Token} {ss : List Stmt} {us : List Token} :
      b.kind = .symbol .leftBrace → Derives (.body ss) us → Derives (.stmt (.block ss)) (b :: us)
  | ifThen {k : Token} {e : Expr} {s : Stmt} {us vs ls : List Token} :
      k.kind = .keyword .if_ → Derives (.condition e) us → Derives (.stmt s) vs → Lines ls →
      Derives (.stmt (.ifElse k e s none)) (k :: (us ++ (vs ++ ls)))
  | ifElse {k t : Token} {e : Expr} {s s' : Stmt} {us vs ls ws : List Token} :
      k.kind = .keyword .if_ → Derives (.condition e) us → Derives (.stmt s) vs → Lines ls →
      t.kind = .keyword .else_ → Derives (.stmt s') ws →
      Derives (.stmt (.ifElse k e s (some s'))) (k :: (us ++ (vs ++ (ls ++ t :: ws))))
  | whileLoop {k : Token} {e : Expr} {s : Stmt} {us vs : List Token} :
      k.kind = .keyword .while_ → Derives (.condition e) us → Derives (.stmt s) vs →
      Derives (.stmt (.whileLoop k e s)) (k :: (us ++ vs))
  | forLoop {k o n i c : Token} {e : Expr} {s : Stmt} {ls ls₁ us ls₂ vs : List Token} :
      k.kind = .keyword .for_ → o.kind = .symbol .leftParen → Lines ls → n.kind = .name →
      i.kind = .keyword .in_ → Lines ls₁ → Derives (.expr e) us → Lines ls₂ →
      c.kind = .symbol .rightParen → Derives (.stmt s) vs →
      Derives (.stmt (.forLoop k n e s))
        (k :: o :: (ls ++ n :: i :: (ls₁ ++ (us ++ (ls₂ ++ c :: vs)))))
  | returning {k : Token} : k.kind = .keyword .return_ → Derives (.stmt (.returning k none)) [k]
  | returningValue {k : Token} {e : Expr} {us : List Token} :
      k.kind = .keyword .return_ → Derives (.expr e) us →
      Derives (.stmt (.returning k (some e))) (k :: us)
  | breaking {k : Token} : k.kind = .keyword .break_ → Derives (.stmt (.breaking k)) [k]
  | continuing {k : Token} : k.kind = .keyword .continue_ → Derives (.stmt (.continuing k)) [k]
  | importing {k p : Token} : k.kind = .keyword .import_ → p.kind = .string →
      Derives (.stmt (.importing p [])) [k, p]
  | importingNames {k p f : Token} {ns : List ImportedName} {us : List Token} :
      k.kind = .keyword .import_ → p.kind = .string → f.kind = .keyword .for_ →
      ImportList ns us → Derives (.stmt (.importing p ns)) (k :: p :: f :: us)
  | var {k n : Token} : k.kind = .keyword .var_ → n.kind = .name →
      Derives (.stmt (.var n none)) [k, n]
  | varValue {k n q : Token} {e : Expr} {ls us : List Token} :
      k.kind = .keyword .var_ → n.kind = .name → q.kind = .symbol .eq → Lines ls →
      Derives (.expr e) us → Derives (.stmt (.var n (some e))) (k :: n :: q :: (ls ++ us))
  | classDef {isForeign : Bool} {n b : Token} {parent : Option Token} {ms : List Method}
      {us vs ws : List Token} :
      ClassHead isForeign us → n.kind = .name → OptionalName (.keyword .is_) parent vs →
      b.kind = .symbol .leftBrace → Derives (.methods ms) ws →
      Derives (.stmt (.classDef isForeign n parent ms)) (us ++ n :: (vs ++ b :: ws))
  | bodyEnd {t : Token} {ls : List Token} :
      Lines ls → t.kind = .symbol .rightBrace → Derives (.body []) (ls ++ [t])
  | bodyAttribute {ss : List Stmt} {ls us vs : List Token} :
      Lines ls → Attribute us → Derives (.body ss) vs → Derives (.body ss) (ls ++ (us ++ vs))
  | bodyMore {s : Stmt} {ss : List Stmt} {ls us ls' vs : List Token} :
      Lines ls → Derives (.stmt s) us → Lines ls' → Derives (.body ss) vs →
      Derives (.body (s :: ss)) (ls ++ (us ++ (ls' ++ vs)))
  | methodBody {n b : Token} {k : MethodKind} {ps : Option (List Token)} {ss : List Stmt}
      {found : Grammar.Modifiers} {us vs ws : List Token} :
      Modifies {} found us → Heads n k ps vs → b.kind = .symbol .leftBrace → Derives (.body ss) ws →
      Derives (.method (.mk ⟨n, k, ps, found.isConstruct, found.isForeign, found.isStatic⟩ ss))
        (us ++ (vs ++ b :: ws))
  | methodForeign {n : Token} {k : MethodKind} {ps : Option (List Token)}
      {found : Grammar.Modifiers} {us vs : List Token} :
      Modifies {} found us → found.isForeign = true → Heads n k ps vs →
      Derives (.method (.mk ⟨n, k, ps, found.isConstruct, found.isForeign, found.isStatic⟩ []))
        (us ++ vs)
  | methodsEnd {t : Token} {ls : List Token} :
      Lines ls → t.kind = .symbol .rightBrace → Derives (.methods []) (ls ++ [t])
  | methodsAttribute {ms : List Method} {ls us vs : List Token} :
      Lines ls → Attribute us → Derives (.methods ms) vs →
      Derives (.methods ms) (ls ++ (us ++ vs))
  | methodsMore {m : Method} {ms : List Method} {ls us ls' vs : List Token} :
      Lines ls → Derives (.method m) us → Lines ls' → Derives (.methods ms) vs →
      Derives (.methods (m :: ms)) (ls ++ (us ++ (ls' ++ vs)))

/-- The tokens that the statements of a module are written with, each with the newlines
behind it. -/
inductive Statements : List Stmt → List Token → Prop
  | nil : Statements [] []
  | attributed {ss : List Stmt} {us ls vs : List Token} :
      Attribute us → Lines ls → Statements ss vs → Statements ss (us ++ (ls ++ vs))
  | definition {s : Stmt} {ss : List Stmt} {us ls vs : List Token} :
      Derives (.stmt s) us → Lines ls → Statements ss vs → Statements (s :: ss) (us ++ (ls ++ vs))

end WrenAnalysis
