import Assay.Proofs.StatementGrammar

/-!
# Written declarations

`Declares` relates the tokens of types and their members to the facts they stand for: the types,
fields, methods, constructors, parameters and local variables they declare, and the names that stand
for values. Its rules are those of the language, one for each form of declaration, and nest to any
depth. The expressions in them are plain, so that they stand for no fact.
-/

namespace Assay.Source

/-! ## Headers -/

/-- The names that are read otherwise in some places. -/
def contextualWords : List String := ["record", "sealed", "non", "yield"]

/-- An identifier that is read as a name everywhere. -/
def Token.IsOrdinary (t : Token) : Prop := t.IsIdentifier ∧ t.text ∉ contextualWords

instance (t : Token) : Decidable t.IsOrdinary := inferInstanceAs (Decidable (_ ∧ _))

/-- Modifiers among the allowed words, and the words that were found. The modifier `non-sealed` is
three tokens and is not found. -/
inductive Modifiers (allowed : List String) : List Token → List String → Prop
  | none : Modifiers allowed [] []
  | word {t : Token} {word : String} {ms : List Token} {found : List String} (ht : t.IsWord word)
      (hword : word ∈ allowed) (hms : Modifiers allowed ms found) :
      Modifiers allowed (t :: ms) (word :: found)
  | nonSealed {non minus unsealed : Token} {ms : List Token} {found : List String}
      (hnon : non.IsWord "non") (hminus : minus.IsSign "-") (hsealed : unsealed.IsWord "sealed")
      (hms : Modifiers allowed ms found) : Modifiers allowed (non :: minus :: unsealed :: ms) found

/-- What declares a type of the kind, records apart. -/
inductive TypeWords : DeclarationKind → List Token → Prop
  | classType {t : Token} (ht : t.IsWord "class") : TypeWords .classType [t]
  | interfaceType {t : Token} (ht : t.IsWord "interface") : TypeWords .interfaceType [t]
  | enumType {t : Token} (ht : t.IsWord "enum") : TypeWords .enumType [t]
  | annotationType {at' t : Token} (hat : at'.IsSign "@") (ht : t.IsWord "interface") :
      TypeWords .annotationType [at', t]

/-- The clauses of a type's header: words and the types they are followed by. -/
inductive Clauses : List Token → Prop
  | none : Clauses []
  | clause {t : Token} {word : String} {as cs : List Token} (ht : t.IsWord word)
      (hword : word = "extends" ∨ word = "implements") (has : WrittenType .several as)
      (hcs : Clauses cs) : Clauses (t :: (as ++ cs))

/-- The type of a field or an annotation's element. -/
inductive MemberType : List Token → Prop
  | mk {as : List Token} (has : WrittenType .one as)
      (hnames : ∀ word ∈ contextualWords, begins word as = false) : MemberType as

/-- The type of what a method returns. -/
inductive ReturnType : List Token → Prop
  | void {t : Token} (ht : t.IsWord "void") : ReturnType [t]
  | value {as : List Token} (has : MemberType as) : ReturnType as

/-- A parameter of the name, which may take any number of arguments. -/
inductive Parameter (x : Token) : Bool → List Token → Prop
  | single {ms as : List Token} {found : List String} (hms : Modifiers localModifiers ms found)
      (has : WrittenType .one as) (hx : x.IsIdentifier) : Parameter x false (ms ++ (as ++ [x]))
  | several {ms as : List Token} {found : List String} {ellipsis : Token}
      (hms : Modifiers localModifiers ms found) (has : WrittenType .one as)
      (hellipsis : ellipsis.IsSign "...") (hx : x.IsIdentifier) :
      Parameter x true (ms ++ (as ++ [ellipsis, x]))

/-- Parameters, separated by commas, and whether one of them takes any number of arguments. -/
inductive ParameterList : List Token → Bool → List Token → Prop
  | none : ParameterList [] false []
  | one {x : Token} {varargs : Bool} {ps : List Token} (hps : Parameter x varargs ps) :
      ParameterList [x] varargs ps
  | more {x y comma : Token} {varargs others : Bool} {xs ps qs : List Token}
      (hps : Parameter x varargs ps) (hcomma : comma.IsSign ",")
      (hqs : ParameterList (y :: xs) others qs) :
      ParameterList (x :: y :: xs) (varargs || others) (ps ++ comma :: qs)

/-- A `throws` clause, which may be left out. -/
inductive ThrowsClause : List Token → Prop
  | none : ThrowsClause []
  | types {t : Token} {as : List Token} (ht : t.IsWord "throws") (has : WrittenType .several as) :
      ThrowsClause (t :: as)

/-! ## Bodies and values -/

/-- What ends a method: a semicolon or a block. -/
inductive MethodBody (owner : String) : List Token → List Fact → Prop
  | none {semicolon : Token} (hsemicolon : semicolon.IsSign ";") : MethodBody owner [semicolon] []
  | block {bs : List Token} {fs : List Fact} (hbs : Structured owner .block bs fs) :
      MethodBody owner bs fs

/-- The default value of an annotation's element, which may be left out. -/
inductive ElementDefault : List Token → Prop
  | none : ElementDefault []
  | value {t : Token} {es : List Token} (ht : t.IsWord "default") (hes : PlainExpression es) :
      ElementDefault (t :: es)

/-- Expressions, separated by commas. -/
inductive PlainExpressions : List Token → Prop
  | one {es : List Token} (hes : PlainExpression es) : PlainExpressions es
  | more {comma : Token} {es as : List Token} (hes : PlainExpression es)
      (hcomma : comma.IsSign ",") (has : PlainExpressions as) : PlainExpressions (es ++ comma :: as)

/-- The arguments of an enum constant, which may be left out with their parentheses. -/
inductive ConstantArguments : List Token → Prop
  | none : ConstantArguments []
  | empty {l r : Token} (hl : l.IsSign "(") (hr : r.IsSign ")") : ConstantArguments [l, r]
  | values {l r : Token} {as : List Token} (hl : l.IsSign "(") (has : PlainExpressions as)
      (hr : r.IsSign ")") : ConstantArguments (l :: (as ++ [r]))

/-! ## Facts -/

/-- Inside a type of the name and kind. -/
def Scope.inside (s : Scope) (name : String) (kind : DeclarationKind) : Scope :=
  { s with enclosing := some ⟨name, kind⟩ }

/-- The line that a declaration is reported on: that of its first token, modifiers included. -/
def Scope.lineOf (s : Scope) (ts : List Token) : Nat := Parser.lineAt s ts

/-- The fact of a type that is declared. -/
def typeFact (s : Scope) (kind : DeclarationKind) (declared : Token) (line : Nat) : Fact :=
  .declaration ⟨kind, declared.text, line, s.owner, 0, false, false⟩

/-- The facts of parameters. -/
def parametersFacts (s : Scope) (xs : List Token) : List Fact :=
  xs.flatMap (Parser.declaredValue .parameter s.owner)

/-- The facts of a method or constructor: its parameters and then itself. -/
def callableFacts (s : Scope) (kind : DeclarationKind) (declared : Token) (line : Nat)
    (xs : List Token) (varargs isStatic : Bool) : List Fact :=
  parametersFacts s xs ++
    [.declaration ⟨kind, declared.text, line, s.owner, xs.length, varargs, isStatic⟩]

/-- A field is static if it is declared so or if its type makes it so. -/
def Scope.fieldsAreStatic (s : Scope) (found : List String) : Bool :=
  found.contains "static" || (s.ownerKind.map (·.makesFieldsStatic)).getD false

/-- The facts of one field. -/
def fieldFact (isStatic : Bool) (x : Token) : List Fact :=
  [.value x.text, .field x.text isStatic]

/-- The facts of fields that are declared together: one declaration, of the first field, and every
name. -/
def fieldFacts (s : Scope) (isStatic : Bool) (line : Nat) (x : Token) (xs : List Token) :
    List Fact :=
  .declaration ⟨if isStatic then .staticField else .instanceField, x.text, line, s.owner, 0, false,
    false⟩ :: (x :: xs).flatMap (fieldFact isStatic)

/-! ## Declarations -/

/-- The sorts of phrase that a type is made of. -/
inductive TypePart
  /-- A type behind its modifiers, reported on the given line. -/
  | type (line : Nat)
  /-- A type's body with its braces. -/
  | body
  | constants
  | constant
  | members
  | member

/-- The tokens are a part of the sort, in the given scope, and the facts are what it stands for, in
reading order. -/
inductive Declares : Scope → TypePart → List Token → List Fact → Prop
  | type {s : Scope} {line : Nat} {kind : DeclarationKind} {declared : Token}
      {kws cs bs : List Token} {fs : List Fact} (hkws : TypeWords kind kws)
      (hdeclared : declared.IsOrdinary) (hcs : Clauses cs)
      (hbs : Declares (s.inside declared.text kind) .body bs fs) :
      Declares s (.type line) (kws ++ declared :: (cs ++ bs))
        (typeFact s kind declared line :: fs)
  | record {s : Scope} {line : Nat} {t declared l r : Token} {xs ps cs bs : List Token}
      {varargs : Bool} {fs : List Fact} (ht : t.IsWord "record") (hdeclared : declared.IsOrdinary)
      (hl : l.IsSign "(") (hps : ParameterList xs varargs ps) (hr : r.IsSign ")")
      (hcs : Clauses cs) (hbs : Declares (s.inside declared.text .recordType) .body bs fs) :
      Declares s (.type line) (t :: declared :: l :: (ps ++ r :: (cs ++ bs)))
        (typeFact s .recordType declared line ::
          (parametersFacts (s.inside declared.text .recordType) xs ++ fs))
  | body {s : Scope} {l r : Token} {ms : List Token} {fs : List Fact}
      (hs : s.ownerKind ≠ some .enumType) (hl : l.IsSign "\x7b")
      (hms : Declares s .members ms fs) (hr : r.IsSign "\x7d") :
      Declares s .body (l :: (ms ++ [r])) fs
  | enumBody {s : Scope} {l r : Token} {cs : List Token} {fs : List Fact}
      (hs : s.ownerKind = some .enumType) (hl : l.IsSign "\x7b")
      (hcs : Declares s .constants cs fs) (hr : r.IsSign "\x7d") :
      Declares s .body (l :: (cs ++ [r])) fs
  | enumMembers {s : Scope} {l semicolon r : Token} {cs ms : List Token} {fs gs : List Fact}
      (hs : s.ownerKind = some .enumType) (hl : l.IsSign "\x7b")
      (hcs : Declares s .constants cs fs) (hsemicolon : semicolon.IsSign ";")
      (hms : Declares s .members ms gs) (hr : r.IsSign "\x7d") :
      Declares s .body (l :: (cs ++ semicolon :: (ms ++ [r]))) (fs ++ gs)
  | noConstant {s : Scope} : Declares s .constants [] []
  | lastConstant {s : Scope} {cs : List Token} {fs : List Fact}
      (hcs : Declares s .constant cs fs) : Declares s .constants cs fs
  | constants {s : Scope} {comma : Token} {cs ds : List Token} {fs gs : List Fact}
      (hcs : Declares s .constant cs fs) (hcomma : comma.IsSign ",")
      (hds : Declares s .constants ds gs) : Declares s .constants (cs ++ comma :: ds) (fs ++ gs)
  | constant {s : Scope} {declared : Token} {as : List Token} (hdeclared : declared.IsOrdinary)
      (has : ConstantArguments as) :
      Declares s .constant (declared :: as) [.value declared.text]
  | constantBody {s : Scope} {declared : Token} {as bs : List Token} {fs : List Fact}
      (hdeclared : declared.IsOrdinary) (has : ConstantArguments as)
      (hbs : Declares (s.inside "" .classType) .body bs fs) :
      Declares s .constant (declared :: (as ++ bs)) (.value declared.text :: fs)
  | noMember {s : Scope} : Declares s .members [] []
  | members {s : Scope} {ms ns : List Token} {fs gs : List Fact}
      (hms : Declares s .member ms fs) (hns : Declares s .members ns gs) :
      Declares s .members (ms ++ ns) (fs ++ gs)
  | emptyMember {s : Scope} {t : Token} (ht : t.IsSign ";") : Declares s .member [t] []
  | initializer {s : Scope} {bs : List Token} {fs : List Fact}
      (hbs : Structured s.owner .block bs fs) : Declares s .member bs fs
  | staticInitializer {s : Scope} {t : Token} {bs : List Token} {fs : List Fact}
      (ht : t.IsWord "static") (hbs : Structured s.owner .block bs fs) :
      Declares s .member (t :: bs) fs
  | nestedType {s : Scope} {ms ts : List Token} {found : List String} {fs : List Fact}
      (hms : Modifiers memberModifiers ms found)
      (hts : Declares s (.type (s.lineOf (ms ++ ts))) ts fs) : Declares s .member (ms ++ ts) fs
  | field {s : Scope} {x semicolon : Token} {ms as ds xs : List Token} {found : List String}
      (hms : Modifiers memberModifiers ms found) (has : MemberType as)
      (hds : Declarators (x :: xs) ds) (hsemicolon : semicolon.IsSign ";") :
      Declares s .member (ms ++ (as ++ (ds ++ [semicolon])))
        (fieldFacts s (s.fieldsAreStatic found) (s.lineOf (ms ++ as)) x xs)
  | method {s : Scope} {declared l r : Token} {ms as xs ps ts bs : List Token}
      {found : List String} {varargs : Bool} {fs : List Fact}
      (hs : s.ownerKind ≠ some .annotationType) (hms : Modifiers memberModifiers ms found)
      (has : ReturnType as) (hdeclared : declared.IsOrdinary) (hl : l.IsSign "(")
      (hps : ParameterList xs varargs ps) (hr : r.IsSign ")") (hts : ThrowsClause ts)
      (hbs : MethodBody s.owner bs fs) :
      Declares s .member (ms ++ (as ++ declared :: l :: (ps ++ r :: (ts ++ bs))))
        (callableFacts s .method declared (s.lineOf (ms ++ as)) xs varargs
          (found.contains "static") ++ fs)
  | element {s : Scope} {declared l r semicolon : Token} {ms as es : List Token}
      {found : List String} (hs : s.ownerKind = some .annotationType)
      (hms : Modifiers memberModifiers ms found) (has : MemberType as)
      (hdeclared : declared.IsOrdinary) (hl : l.IsSign "(") (hr : r.IsSign ")")
      (hes : ElementDefault es) (hsemicolon : semicolon.IsSign ";") :
      Declares s .member (ms ++ (as ++ declared :: l :: r :: (es ++ [semicolon]))) []
  | constructor {s : Scope} {declared l r : Token} {ms xs ps ts bs : List Token}
      {found : List String} {varargs : Bool} {fs : List Fact}
      (hms : Modifiers memberModifiers ms found) (hdeclared : declared.IsOrdinary)
      (hown : declared.text = s.owner) (hl : l.IsSign "(") (hps : ParameterList xs varargs ps)
      (hr : r.IsSign ")") (hts : ThrowsClause ts) (hbs : Structured s.owner .block bs fs) :
      Declares s .member (ms ++ declared :: l :: (ps ++ r :: (ts ++ bs)))
        (callableFacts s .constructor declared (s.lineOf (ms ++ [declared])) xs varargs false ++ fs)
  | compactConstructor {s : Scope} {declared : Token} {ms bs : List Token} {found : List String}
      {fs : List Fact} (hs : s.ownerKind = some .recordType)
      (hms : Modifiers memberModifiers ms found) (hdeclared : declared.IsOrdinary)
      (hown : declared.text = s.owner) (hbs : Structured s.owner .block bs fs) :
      Declares s .member (ms ++ declared :: bs) fs

end Assay.Source
