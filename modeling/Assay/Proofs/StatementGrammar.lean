import Assay.Proofs.ExpressionRound

/-!
# Written statements and their structure

`Structured` relates the tokens of statements to the facts they stand for: the loops, the `catch`
clauses and the variables they declare. Its rules are those of the language. The expressions in the
statements are plain, operands with binary operators between them, so that they stand for no fact.
-/

namespace Assay.Source

/-- The token is an identifier or a literal. -/
def Token.IsOperand (t : Token) : Prop := t.IsIdentifier ∨ t.isLiteral

/-- Operands with binary operators between them. -/
inductive PlainExpression : List Token → Prop
  | operand {t : Token} (ht : t.IsOperand) : PlainExpression [t]
  | binary {t op : Token} {es : List Token} (ht : t.IsOperand) (hop : op.IsBinary)
      (hes : PlainExpression es) : PlainExpression (t :: op :: es)

/-- An expression that may be left out. -/
def OptionalExpression (es : List Token) : Prop := es = [] ∨ PlainExpression es

/-- An expression in parentheses. -/
inductive Condition : List Token → Prop
  | mk {l r : Token} {es : List Token} (hl : l.IsSign "(") (hes : PlainExpression es)
      (hr : r.IsSign ")") : Condition (l :: (es ++ [r]))

/-- A declared variable with its initial value, if it has one. -/
inductive Declarator (x : Token) : List Token → Prop
  | plain : Declarator x [x]
  | initialized {equals : Token} {es : List Token} (hequals : equals.IsSign "=")
      (hes : PlainExpression es) : Declarator x (x :: equals :: es)

/-- Declared variables, separated by commas. -/
inductive Declarators : List Token → List Token → Prop
  | one {x : Token} {ds : List Token} (hx : x.IsIdentifier) (hds : Declarator x ds) :
      Declarators [x] ds
  | more {x comma : Token} {xs ds es : List Token} (hx : x.IsIdentifier) (hds : Declarator x ds)
      (hcomma : comma.IsSign ",") (hes : Declarators xs es) :
      Declarators (x :: xs) (ds ++ comma :: es)

/-- A type and the variables declared of it. The word `yield` starts a statement of its own. -/
inductive Declared : List Token → List Token → Prop
  | mk {xs as ds : List Token} (has : WrittenType .one as) (hyield : begins "yield" as = false)
      (hds : Declarators xs ds) : Declared xs (as ++ ds)

/-- What comes before the first semicolon of a `for` header. -/
def ForInitializer (xs ts : List Token) : Prop := (xs = [] ∧ ts = []) ∨ Declared xs ts

/-- The sorts of phrase that statements are made of. -/
inductive Phrase
  | block
  | statement
  | statements
  | catches
  /-- The labels and statements of a `switch`. -/
  | cases

/-- The facts of declared variables. -/
def variableFacts (owner : String) (xs : List Token) : List Fact :=
  xs.flatMap (Parser.declaredValue .variableDeclarator owner)

/-- The tokens are a phrase of the sort, in a type of the given name, and the facts are what it
stands for, in reading order. -/
inductive Structured (owner : String) : Phrase → List Token → List Fact → Prop
  | block {l r : Token} {ts : List Token} {fs : List Fact} (hl : l.IsSign "\x7b")
      (hts : Structured owner .statements ts fs) (hr : r.IsSign "\x7d") :
      Structured owner .block (l :: (ts ++ [r])) fs
  | noStatement : Structured owner .statements [] []
  | statements {ts us : List Token} {fs gs : List Fact} (hts : Structured owner .statement ts fs)
      (hus : Structured owner .statements us gs) :
      Structured owner .statements (ts ++ us) (fs ++ gs)
  | empty {t : Token} (ht : t.IsSign ";") : Structured owner .statement [t] []
  | nested {ts : List Token} {fs : List Fact} (hts : Structured owner .block ts fs) :
      Structured owner .statement ts fs
  | ifThen {t : Token} {cs ts : List Token} {fs : List Fact} (ht : t.IsWord "if")
      (hcs : Condition cs) (hts : Structured owner .statement ts fs) :
      Structured owner .statement (t :: (cs ++ ts)) fs
  | ifElse {t u : Token} {cs bs ts : List Token} {fs gs : List Fact} (ht : t.IsWord "if")
      (hcs : Condition cs) (hbs : Structured owner .block bs fs) (hu : u.IsWord "else")
      (hts : Structured owner .statement ts gs) :
      Structured owner .statement (t :: (cs ++ (bs ++ u :: ts))) (fs ++ gs)
  | whileLoop {t : Token} {cs ts : List Token} {fs : List Fact} (ht : t.IsWord "while")
      (hcs : Condition cs) (hts : Structured owner .statement ts fs) :
      Structured owner .statement (t :: (cs ++ ts)) (.loop ⟨.whileLoop, t.line⟩ :: fs)
  | doLoop {t u semicolon : Token} {cs ts : List Token} {fs : List Fact} (ht : t.IsWord "do")
      (hts : Structured owner .statement ts fs) (hu : u.IsWord "while") (hcs : Condition cs)
      (hsemicolon : semicolon.IsSign ";") :
      Structured owner .statement (t :: (ts ++ u :: (cs ++ [semicolon])))
        (.loop ⟨.doLoop, t.line⟩ :: fs)
  | forLoop {t l first second r : Token} {xs is cs us ts : List Token} {fs : List Fact}
      (ht : t.IsWord "for") (hl : l.IsSign "(") (his : ForInitializer xs is)
      (hfirst : first.IsSign ";") (hcs : OptionalExpression cs) (hsecond : second.IsSign ";")
      (hus : OptionalExpression us) (hr : r.IsSign ")")
      (hts : Structured owner .statement ts fs) :
      Structured owner .statement
        (t :: l :: (is ++ first :: (cs ++ second :: (us ++ r :: ts))))
        (variableFacts owner xs ++ .loop ⟨.forLoop, t.line⟩ :: fs)
  | forEachLoop {t l x colon r : Token} {as es ts : List Token} {fs : List Fact}
      (ht : t.IsWord "for") (hl : l.IsSign "(") (has : WrittenType .one as) (hx : x.IsIdentifier)
      (hcolon : colon.IsSign ":") (hes : PlainExpression es) (hr : r.IsSign ")")
      (hts : Structured owner .statement ts fs) :
      Structured owner .statement (t :: l :: (as ++ x :: colon :: (es ++ r :: ts)))
        (variableFacts owner [x] ++ .loop ⟨.forEachLoop, t.line⟩ :: fs)
  | tryCatch {t : Token} {bs cs : List Token} {fs gs : List Fact} (ht : t.IsWord "try")
      (hbs : Structured owner .block bs fs) (hcs : Structured owner .catches cs gs) :
      Structured owner .statement (t :: (bs ++ cs)) (fs ++ gs)
  | tryFinally {t u : Token} {bs cs ds : List Token} {fs gs hs : List Fact}
      (ht : t.IsWord "try") (hbs : Structured owner .block bs fs)
      (hcs : Structured owner .catches cs gs) (hu : u.IsWord "finally")
      (hds : Structured owner .block ds hs) :
      Structured owner .statement (t :: (bs ++ (cs ++ u :: ds))) (fs ++ (gs ++ hs))
  | switch {t l r : Token} {cs ts : List Token} {fs : List Fact} (ht : t.IsWord "switch")
      (hcs : Condition cs) (hl : l.IsSign "\x7b") (hts : Structured owner .cases ts fs)
      (hr : r.IsSign "\x7d") : Structured owner .statement (t :: (cs ++ l :: (ts ++ [r]))) fs
  | synchronized {t : Token} {cs bs : List Token} {fs : List Fact} (ht : t.IsWord "synchronized")
      (hcs : Condition cs) (hbs : Structured owner .block bs fs) :
      Structured owner .statement (t :: (cs ++ bs)) fs
  | returned {t semicolon : Token} {es : List Token} (ht : t.IsWord "return")
      (hes : OptionalExpression es) (hsemicolon : semicolon.IsSign ";") :
      Structured owner .statement (t :: (es ++ [semicolon])) []
  | thrown {t semicolon : Token} {es : List Token} (ht : t.IsWord "throw")
      (hes : PlainExpression es) (hsemicolon : semicolon.IsSign ";") :
      Structured owner .statement (t :: (es ++ [semicolon])) []
  | jump {t semicolon : Token} {word : String} (ht : t.IsWord word)
      (hword : word = "break" ∨ word = "continue") (hsemicolon : semicolon.IsSign ";") :
      Structured owner .statement [t, semicolon] []
  | labelled {x colon : Token} {ts : List Token} {fs : List Fact} (hx : x.IsIdentifier)
      (hcolon : colon.IsSign ":") (hts : Structured owner .statement ts fs) :
      Structured owner .statement (x :: colon :: ts) fs
  | declaration {semicolon : Token} {xs ds : List Token} (hds : Declared xs ds)
      (hsemicolon : semicolon.IsSign ";") :
      Structured owner .statement (ds ++ [semicolon]) (variableFacts owner xs)
  | assignment {x equals semicolon : Token} {es : List Token} (hx : x.IsIdentifier)
      (hequals : equals.IsSign "=") (hes : PlainExpression es)
      (hsemicolon : semicolon.IsSign ";") :
      Structured owner .statement (x :: equals :: (es ++ [semicolon])) []
  | noCatch : Structured owner .catches [] []
  | catchClause {t l x r : Token} {as bs cs : List Token} {fs gs : List Fact}
      (ht : t.IsWord "catch") (hl : l.IsSign "(") (has : WrittenType .one as)
      (hx : x.IsIdentifier) (hr : r.IsSign ")") (hbs : Structured owner .block bs fs)
      (hcs : Structured owner .catches cs gs) :
      Structured owner .catches (t :: l :: (as ++ x :: r :: (bs ++ cs)))
        (Parser.declaredValue .parameter owner x ++ .catchClause t.line :: (fs ++ gs))
  | noCase : Structured owner .cases [] []
  | caseLabel {t colon : Token} {es us : List Token} {fs : List Fact} (ht : t.IsWord "case")
      (hes : PlainExpression es) (hcolon : colon.IsSign ":")
      (hus : Structured owner .cases us fs) :
      Structured owner .cases (t :: (es ++ colon :: us)) fs
  | defaultLabel {t colon : Token} {us : List Token} {fs : List Fact} (ht : t.IsWord "default")
      (hcolon : colon.IsSign ":") (hus : Structured owner .cases us fs) :
      Structured owner .cases (t :: colon :: us) fs
  | caseStatement {ts us : List Token} {fs gs : List Fact}
      (hts : Structured owner .statement ts fs) (hus : Structured owner .cases us gs) :
      Structured owner .cases (ts ++ us) (fs ++ gs)

end Assay.Source
