import Assay.Proofs.ExpressionAccesses
import Assay.Proofs.StatementGrammar

/-!
# How each statement is read

Which statement starts at a token is decided by its first word or, where no word tells, by looking
ahead for a label or a declaration. Each decision has its lemma here, and each sort of statement one
that reads it, given how the statements and blocks inside it are read.
-/

namespace Assay.Source

variable {owner : String} {t u l r x colon semicolon equals : Token}
  {ts us as cs ds es rest : List Token} {xs : List Token} {facts fs gs : List Fact}

/-! ## Plain expressions -/

/-- Nothing that follows a name continues it. -/
def EndsOperand (rest : List Token) : Prop :=
  begins "." rest = false ∧ begins "(" rest = false ∧ begins "->" rest = false

/-- Behind a part that does not go on the operand before it, an operand ends. -/
theorem Follows.endsOperand {signs : List String} (h : Follows signs rest)
    (hsigns : "." ∉ signs ∧ "(" ∉ signs ∧ "->" ∉ signs) : EndsOperand rest :=
  ⟨h.spells hsigns.1, h.spells hsigns.2.1, h.spells hsigns.2.2⟩

/-- A sign that does not go on the operand before it ends one. -/
theorem Token.IsSignOf.endsOperand {signs : List String} (h : t.IsSignOf signs)
    (hsigns : "." ∉ signs ∧ "(" ∉ signs ∧ "->" ∉ signs) (rest : List Token) :
    EndsOperand (t :: rest) :=
  Follows.endsOperand ⟨t, rest, rfl, h⟩ hsigns

/-- An operand spells no keyword and no sign. -/
theorem Token.IsOperand.spells (h : t.IsOperand) {word : String} (hw : word ∈ keywords ++ signs) :
    t.spells word = false := by
  rcases h with h | h
  · exact h.spells word hw
  · exact Token.spells_of_isLiteral h word

/-- An expression of operands starts with no keyword and no sign. -/
theorem PlainExpression.begins (h : PlainExpression es) {word : String}
    (hw : word ∈ keywords ++ signs) (rest : List Token) :
    begins word (es ++ rest) = false := by
  cases h with
  | operand ht => exact ht.spells hw
  | binary ht => exact ht.spells hw

/-! ## Declared variables -/

/-- A declarator starts with the name that it declares. -/
theorem Declarator.eq_cons (h : Declarator x ds) : ∃ us, ds = x :: us := by
  cases h with
  | plain => exact ⟨[], rfl⟩
  | initialized => exact ⟨_, rfl⟩

/-- The first variable of a declaration and the sign after it. -/
theorem Declarators.split (h : Declarators xs ds) (ht : t.IsSign ";") (rest : List Token) :
    ∃ x f more, ds ++ t :: rest = x :: f :: more ∧ x.IsIdentifier ∧
      f.IsSignOf ["=", ",", ";"] := by
  cases h with
  | @one x _ hx hds =>
    cases hds with
    | plain => exact ⟨x, t, rest, rfl, hx, ht.isSignOf (by decide)⟩
    | initialized hequals => exact ⟨x, _, _, rfl, hx, hequals.isSignOf (by decide)⟩
  | @more x comma _ _ _ hx hds hcomma =>
    cases hds with
    | plain => exact ⟨x, comma, _, rfl, hx, hcomma.isSignOf (by decide)⟩
    | initialized hequals => exact ⟨x, _, _, rfl, hx, hequals.isSignOf (by decide)⟩

/-- The token starts a written type. -/
def Token.StartsType (t : Token) : Prop := t.IsIdentifier ∨ t.IsValueType

/-- What starts a type spells no sign, and a keyword only if that names a primitive type. -/
theorem Token.StartsType.spells (h : t.StartsType) {word : String} (hw : word ∈ keywords ++ signs)
    (hvalue : word ∉ valueTypes) : t.spells word = false := by
  rcases h with h | h
  · exact h.spells word hw
  · exact h.spells word hvalue

/-- What starts a type is no modifier of a local variable. -/
theorem Token.StartsType.not_modifier (h : t.StartsType) : t.spellsAny localModifiers = false := by
  simp [localModifiers, h.spells (by decide : "final" ∈ _) (by decide),
    h.spells (by decide : "abstract" ∈ _) (by decide),
    h.spells (by decide : "static" ∈ _) (by decide),
    h.spells (by decide : "strictfp" ∈ _) (by decide)]

/-- A sign is no name. -/
theorem Token.IsSignOf.isName {signs : List String} (h : t.IsSignOf signs) : t.isName = false := by
  simp [Token.isName, Token.isIdentifier, h.1]

/-- A sign of fewer signs spells one of more signs. -/
theorem Token.IsSignOf.spellsAny {signs words : List String} (h : t.IsSignOf signs)
    (hsub : signs ⊆ words) : t.spellsAny words = true := by
  simp [Token.spellsAny, Token.isOperator, h.1, hsub h.2]

/-- A type starts with a word, which only a sign follows inside the type. -/
theorem WrittenType.head (h : WrittenType .one as) :
    ∃ t us, as = t :: us ∧ t.StartsType ∧
      (us = [] ∨ ∃ v vs, us = v :: vs ∧ v.IsSignOf [".", "<", "["]) := by
  generalize hc : TypeCount.one = count at h
  induction h with
  | primitive ht => exact ⟨_, [], rfl, .inr ht, .inl rfl⟩
  | named hns =>
    cases hns with
    | one ht => exact ⟨_, [], rfl, .inl ht, .inl rfl⟩
    | more ht hdot => exact ⟨_, _, rfl, .inl ht, .inr ⟨_, _, rfl, hdot.isSignOf (by decide)⟩⟩
  | generic hns hless =>
    cases hns with
    | one ht => exact ⟨_, _, rfl, .inl ht, .inr ⟨_, _, rfl, hless.isSignOf (by decide)⟩⟩
    | more ht hdot => exact ⟨_, _, rfl, .inl ht, .inr ⟨_, _, rfl, hdot.isSignOf (by decide)⟩⟩
  | array _ hl _ ih =>
    obtain ⟨t, us, rfl, ht, rfl | ⟨v, vs, rfl, hv⟩⟩ := ih hc
    · exact ⟨t, _, rfl, ht, .inr ⟨_, _, rfl, hl.isSignOf (by decide)⟩⟩
    · exact ⟨t, _, rfl, ht, .inr ⟨v, _, rfl, hv⟩⟩
  | last => cases hc
  | more => cases hc

/-- The tokens are taken for a type where one is read, and where one is looked for. -/
structure ReadAsType (as : List Token) : Prop where
  head : ∃ t us, as = t :: us ∧ t.StartsType ∧
    (us = [] ∨ ∃ v vs, us = v :: vs ∧ v.IsSignOf [".", "<", "["])
  found : ∀ rest, EndsName rest → typeRest? (as ++ rest) = some (dimensionsRest rest)
  read : ∀ s rest, EndsName rest → Parser.type s (as ++ rest) = .ok ⟨(), [], dimensionsRest rest⟩

/-- A written type is one that is read as a type. -/
theorem WrittenType.readAsType (h : WrittenType .one as) : ReadAsType as :=
  ⟨h.head, fun _ hrest => h.typeRest? hrest, fun _ _ hrest => Parser.type_writtenType h hrest⟩

/-- No type is declared where a variable is: `record` is a name there. -/
theorem typeKeyword?_variable (has : ReadAsType as) (hu : u.IsSignOf ["=", ",", ";"])
    (x : Token) (rest : List Token) :
    typeKeyword? (as ++ x :: u :: rest) = none := by
  have hrecord : u.spells "(" = false ∧ u.spells "<" = false :=
    ⟨hu.spells (by decide), hu.spells (by decide)⟩
  obtain ⟨t, us, rfl, ht, rfl | ⟨v, vs, rfl, hv⟩⟩ := has.head
  · simp [typeKeyword?, ht.spells (by decide : "class" ∈ _) (by decide),
      ht.spells (by decide : "interface" ∈ _) (by decide),
      ht.spells (by decide : "enum" ∈ _) (by decide),
      ht.spells (by decide : "@" ∈ _) (by decide), hrecord]
  · simp [typeKeyword?, ht.spells (by decide : "class" ∈ _) (by decide),
      ht.spells (by decide : "interface" ∈ _) (by decide),
      ht.spells (by decide : "enum" ∈ _) (by decide),
      ht.spells (by decide : "@" ∈ _) (by decide), hv.isName]

/-- Where a variable is declared, looking ahead tells so. -/
theorem isLocalDeclaration_variable (has : ReadAsType as)
    (hyield : begins "yield" as = false) (hx : x.IsIdentifier)
    (hu : u.IsSignOf ["=", ",", ";", ":"]) (rest : List Token) :
    isLocalDeclaration (as ++ x :: u :: rest) = true := by
  have htype : typeRest? (as ++ x :: u :: rest) = some (x :: u :: rest) := by
    rw [has.found _ (by simp [EndsName, hx.spells_signs]),
      dimensionsRest_of_not_opener (by simp [hx.spells_signs])]
  have hfollower : u.spellsAny ["=", ";", ",", ":", "["] = true := hu.spellsAny (by decide)
  obtain ⟨t, us, rfl, ht, -⟩ := has.head
  rw [begins_cons] at hyield
  rw [isLocalDeclaration, htype]
  simp [hyield, ht.spells (by decide : "void" ∈ _) (by decide), hx.isName, hfollower]

/-! ## Headers of `for` loops -/

/-- The token is no bracket and none of the signs that tell loops apart. -/
def Token.IsFlat (t : Token) : Prop :=
  t.IsPlain ∧ t.spells ";" = false ∧ t.spells "?" = false ∧ t.spells ":" = false

/-- A flat token leaves the search for the colon of a header where it is. -/
theorem isForEach_flat (h : t.IsFlat) (depth pending : Nat) (ts : List Token) :
    isForEach depth pending (t :: ts) = isForEach depth pending ts :=
  isForEach_plain (by simp [Token.isOpener, h.1.1]) h.1.2 h.2 depth pending ts

/-- Flat tokens leave the search for the colon of a header where it is. -/
theorem isForEach_append (h : ∀ t ∈ ts, t.IsFlat) (depth pending : Nat) (rest : List Token) :
    isForEach depth pending (ts ++ rest) = isForEach depth pending rest := by
  induction ts with
  | nil => rfl
  | cons t ts ih =>
    rw [List.cons_append, isForEach_flat (h t (by simp)), ih fun u hu => h u (by simp [hu])]

/-- A name is flat. -/
theorem Token.IsIdentifier.isFlat (h : t.IsIdentifier) : t.IsFlat :=
  ⟨h.isPlain, h.spells _ (by decide), h.spells _ (by decide), h.spells _ (by decide)⟩

/-- An operand is flat. -/
theorem Token.IsOperand.isFlat (h : t.IsOperand) : t.IsFlat := by
  rcases h with h | h
  · exact h.isFlat
  · exact ⟨Token.isPlain_of_isLiteral h, Token.spells_of_isLiteral h _,
      Token.spells_of_isLiteral h _, Token.spells_of_isLiteral h _⟩

/-- An operator between operands is flat. -/
theorem Token.IsBinary.isFlat (h : t.IsBinary) : t.IsFlat :=
  ⟨h.isPlain, h.spells _ (by decide), h.spells _ (by decide), h.spells _ (by decide)⟩

/-- Commas and the sign of an initial value are flat. -/
theorem Token.IsSign.isFlat {sign : String} (h : t.IsSign sign)
    (hsign : sign = "," ∨ sign = "=") : t.IsFlat := by
  rcases hsign with rfl | rfl <;>
    exact ⟨h.isPlain (by decide) (by decide), by simp [h.spells], by simp [h.spells],
      by simp [h.spells]⟩

/-- An expression of operands is flat. -/
theorem PlainExpression.isFlat (h : PlainExpression es) : ∀ t ∈ es, t.IsFlat := by
  induction h with
  | operand ht => simpa using ht.isFlat
  | binary ht hop _ ih => simpa using ⟨ht.isFlat, hop.isFlat, ih⟩

/-- A declarator is flat: its name, its dimensions and its value. -/
theorem Declarator.isFlat (h : Declarator x ds) (hx : x.IsIdentifier) : ∀ t ∈ ds, t.IsFlat := by
  cases h with
  | plain => simpa using hx.isFlat
  | initialized hequals hes =>
    simpa using ⟨hx.isFlat, hequals.isFlat (.inr rfl), hes.isFlat⟩

/-- Declarators are flat. -/
theorem Declarators.isFlat (h : Declarators xs ds) : ∀ t ∈ ds, t.IsFlat := by
  induction h with
  | one hx hds => exact hds.isFlat hx
  | more hx hds hcomma _ ih =>
    intro t ht
    rcases List.mem_append.1 ht with ht | ht
    · exact hds.isFlat hx t ht
    · rcases List.mem_cons.1 ht with rfl | ht
      · exact hcomma.isFlat (.inl rfl)
      · exact ih t ht

/-- No colon comes before the first semicolon of the header. -/
theorem ForInitializer.not_isForEach (h : ForInitializer xs ts) (ht : t.IsSign ";")
    (rest : List Token) : isForEach 0 0 (ts ++ t :: rest) = false := by
  have hsemicolon : isForEach 0 0 (t :: rest) = false := by
    rw [isForEach.eq_def]
    simp [Token.isOpener, ht.closer?, bracketPairs, ht.isCloser, closers, ht.spells]
  rcases h with ⟨-, rfl⟩ | h
  · exact hsemicolon
  · obtain ⟨has, -, hds⟩ := h
    rw [List.append_assoc, has.angled.isForEach, isForEach_append hds.isFlat, hsemicolon]

/-- A declaration does not start with a semicolon. -/
theorem Declared.begins_semicolon (h : Declared xs ts) (rest : List Token) :
    begins ";" (ts ++ rest) = false := by
  obtain ⟨has, -, -⟩ := h
  obtain ⟨u, us, rfl, hu, -⟩ := has.head
  exact hu.spells (by decide) (by decide)

namespace Parser

variable {nested : Construct → Parser Unit} {stop : List String} {s : Scope}

/-- An operand is one part of an expression and records nothing. -/
theorem passes_operand (ht : t.IsOperand) (hrest : EndsOperand rest) :
    Passes nested stop s [t] [] rest := by
  rcases ht with ht | ht
  · exact passes_nameChain ht hrest.2.2 (nameChain_fields ht .nil hrest.1 hrest.2.1)
  · exact passes_literal ht rest

/-- A plain expression is passed over and records nothing. -/
theorem passes_plainExpression (h : PlainExpression es)
    (hstop : ∀ op ∈ binaryOperators, op ∉ stop) (hrest : EndsOperand rest) :
    Passes nested stop s es [] rest := by
  induction h with
  | operand ht => exact passes_operand ht hrest
  | @binary t op es ht hop _ ih =>
    have hoperand : Passes nested stop s [t] [] (op :: es ++ rest) :=
      passes_operand ht (Token.IsSignOf.endsOperand hop (by decide) _)
    have hoperator : Passes nested stop s [op] [] (es ++ rest) :=
      passes_binary hop (hstop _ hop.2) _
    exact hoperand.append (hoperator.append ih)

/-- Expressions that hold no other construct and record nothing are read up to a token that ends
them. -/
def ReadsPlain (nested : Construct → Parser Unit) : Prop :=
  ∀ {s es stop t rest}, (∀ nested, Passes nested stop s es [] (t :: rest)) → Ends stop t →
    nested (.expression stop) s (es ++ t :: rest) = .ok ⟨(), [], t :: rest⟩

/-- With room for one construct more, expressions of operands are read. -/
theorem readsPlain_construct (depth : Nat) : ReadsPlain (construct (depth + 1)) :=
  fun hes ht => (hes (construct depth)).expression ht

/-- A sign at which an expression stops, or a closing bracket, ends it. -/
theorem ends_of_isSign {sign : String} (h : t.IsSign sign) (hsign : sign ∈ closers ∨ sign ∈ stop) :
    Ends stop t := by
  rw [Ends, h.isCloser, h.isOperator, h.2]
  simpa using hsign

/-- A plain expression is read up to a sign that ends it. -/
theorem ReadsPlain.upTo {sign : String} (h : ReadsPlain nested) (stop : List String)
    (hes : OptionalExpression es) (ht : t.IsSign sign)
    (hsign : (sign ∈ closers ∨ sign ∈ stop) ∧ sign ∉ [".", "(", "->"])
    (hstop : ∀ op ∈ binaryOperators, op ∉ stop) (s : Scope) (rest : List Token) :
    nested (.expression stop) s (es ++ t :: rest) = .ok ⟨(), [], t :: rest⟩ := by
  have hends : Ends stop t := ends_of_isSign ht hsign.1
  refine h (fun nested => ?_) hends
  rcases hes with rfl | hes
  · intro afterArrow
    rw [List.nil_append, expression_done hends, expression_done hends, recording_nil]
  · have hnone := hsign.2
    simp only [List.mem_cons, List.not_mem_nil, or_false, not_or] at hnone
    exact passes_plainExpression hes hstop (by simp [EndsOperand, ht.spells, hnone])

/-- A condition in parentheses records nothing. -/
theorem parenthesized_condition (h : ReadsPlain nested) (hcs : Condition cs) (s : Scope)
    (rest : List Token) : parenthesized nested s (cs ++ rest) = .ok ⟨(), [], rest⟩ := by
  obtain ⟨hl, hes, hr⟩ := hcs
  have hread := h.upTo [] (.inr hes) hr (by decide) (by decide) s rest
  simp [parenthesized, bind_apply, expect_cons, hl.spells, hr.spells, hread]

/-! ## Declarations -/

/-- There are no dimensions where no square bracket opens. -/
theorem dimensions_apply_of_not_opener (h : begins "[" rest = false) (s : Scope) :
    dimensions s rest = .ok ⟨(), [], rest⟩ := by
  rw [dimensions_apply, dimensionsRest_of_not_opener h]

/-- What follows the name of a declared variable is read up to the comma or semicolon after it. -/
theorem initializer_apply (hplain : ReadsPlain nested) (hds : Declarator x (x :: ds))
    (ht : t.IsSign "," ∨ t.IsSign ";") (s : Scope) (rest : List Token) :
    initializer nested s (ds ++ t :: rest) = .ok ⟨(), [], t :: rest⟩ := by
  cases hds with
  | plain =>
    have hdimensions : dimensions s (t :: rest) = .ok ⟨(), [], t :: rest⟩ :=
      dimensions_apply_of_not_opener (by rcases ht with ht | ht <;> simp [ht.spells]) s
    have hequals : t.spells "=" = false := by rcases ht with ht | ht <;> simp [ht.spells]
    simp [initializer, bind_apply, hdimensions, hequals]
  | @initialized equals es hequals hes =>
    have hdimensions : dimensions s (equals :: (es ++ t :: rest)) =
        .ok ⟨(), [], equals :: (es ++ t :: rest)⟩ :=
      dimensions_apply_of_not_opener (by simp [hequals.spells]) s
    have hread : nested (.expression [",", ";"]) s (es ++ t :: rest) =
        .ok ⟨(), [], t :: rest⟩ := by
      rcases ht with ht | ht
      · exact hplain.upTo _ (.inr hes) ht (by decide) (by decide) s rest
      · exact hplain.upTo _ (.inr hes) ht (by decide) (by decide) s rest
    have hbrace : begins "\x7b" (es ++ t :: rest) = false := hes.begins (by decide) _
    simp [initializer, bind_apply, hdimensions, hequals.spells, hbrace, hread]

/-- A declared variable is read up to the comma or semicolon after it. -/
theorem localVariable_apply (hplain : ReadsPlain nested) (hx : x.IsIdentifier)
    (hds : Declarator x ds) (ht : t.IsSign "," ∨ t.IsSign ";") (s : Scope) (rest : List Token) :
    localVariable nested s (ds ++ t :: rest) =
      .ok ⟨(), declaredValue .variableDeclarator s.owner x, t :: rest⟩ := by
  obtain ⟨us, rfl⟩ := hds.eq_cons
  have hread := initializer_apply hplain hds ht s rest
  simp [localVariable, bind_apply, name_cons hx.isName, hread]

/-- A parser that reads one declared variable reads several one after the other. -/
theorem afterCommas_items {p : Parser Unit} {itemFacts : Token → List Fact} {s : Scope}
    (hp : ∀ {x t : Token} {ds : List Token}, x.IsIdentifier → Declarator x ds →
      t.IsSign "," ∨ t.IsSign ";" → ∀ rest, p s (ds ++ t :: rest) =
        .ok ⟨(), itemFacts x, t :: rest⟩)
    (h : Declarators xs ds) (ht : t.IsSign ";") (rest : List Token) :
    ∃ fs mid, p s (ds ++ t :: rest) = .ok ⟨(), fs, mid⟩ ∧
      mid.length ≤ (ds ++ t :: rest).length ∧
      recording fs (afterCommas p s mid) = .ok ⟨(), xs.flatMap itemFacts, t :: rest⟩ := by
  induction h with
  | @one x ds hx hds =>
    refine ⟨_, _, hp hx hds (.inr ht) rest, by simp, ?_⟩
    rw [afterCommas_done (by simp [ht.spells])]
    simp
  | @more x comma xs ds es hx hds hcomma _ ih =>
    obtain ⟨fs, mid, hnext, hle, hmore⟩ := ih
    rw [List.append_assoc]
    refine ⟨_, _, hp hx hds (.inl hcomma) _, by simp, ?_⟩
    rw [List.append_eq, afterCommas_again (by simp [hcomma.spells]) hnext hle, hmore]
    simp

/-- The variables of a declaration are read one after the other. -/
theorem afterCommas_declarators (hplain : ReadsPlain nested) (h : Declarators xs ds)
    (ht : t.IsSign ";") (s : Scope) (rest : List Token) :
    ∃ fs mid, localVariable nested s (ds ++ t :: rest) = .ok ⟨(), fs, mid⟩ ∧
      mid.length ≤ (ds ++ t :: rest).length ∧
      recording fs (afterCommas (localVariable nested) s mid) =
        .ok ⟨(), variableFacts s.owner xs, t :: rest⟩ :=
  afterCommas_items (fun hx hds ht rest => localVariable_apply hplain hx hds ht s rest) h ht rest

/-- A type is read up to the name after it. -/
theorem type_before_name (has : ReadAsType as) (hx : x.IsIdentifier) (s : Scope)
    (rest : List Token) : type s (as ++ x :: rest) = .ok ⟨(), [], x :: rest⟩ := by
  rw [has.read s _ (by simp [EndsName, hx.spells_signs]),
    dimensionsRest_of_not_opener (by simp [hx.spells_signs])]

/-- A local declaration records its variables and stops at the semicolon. -/
theorem localDeclaration_apply (hplain : ReadsPlain nested) (h : Declared xs ds)
    (ht : t.IsSign ";") (s : Scope) (rest : List Token) :
    localDeclaration nested s (ds ++ t :: rest) =
      .ok ⟨(), variableFacts s.owner xs, t :: rest⟩ := by
  obtain ⟨has, -, hds⟩ := h
  obtain ⟨fs, mid, hfirst, -, hmore⟩ := afterCommas_declarators hplain hds ht s rest
  obtain ⟨x, f, more, heq, hx, -⟩ := hds.split ht rest
  have htype := type_before_name has.readAsType hx s (f :: more)
  rw [List.append_assoc, heq, localDeclaration, bind_of_ok htype, recording_nil, ← heq,
    bind_of_ok hfirst, hmore]

/-- The words and signs that decide how a statement is read. -/
def statementWords : List String :=
  ["\x7b", ";", "if", "for", "while", "do", "try", "switch", "synchronized", "return", "throw",
    "assert", "break", "continue"]

/-- A word that starts a statement is reserved and starts no type. -/
theorem statementWords_reserved :
    ∀ word ∈ statementWords, word ∈ keywords ++ signs ∧ word ∉ valueTypes := by decide

/-- A statement that starts with none of its words is a label, a declaration or an expression. -/
theorem statement_unnamed (h : ∀ word ∈ statementWords, t.spells word = false) (s : Scope)
    (rest : List Token) :
    statement nested s (t :: rest) = unnamedStatement nested (t :: rest) t.line s (t :: rest) := by
  simp only [statementWords, List.mem_cons, List.not_mem_nil, or_false, forall_eq_or_imp,
    forall_eq] at h
  simp [statement, bind_apply, h]

/-- Where no keyword of a type comes first, no type is declared. -/
theorem typeDeclaration_none {line : Nat} (h : typeKeyword? ts = none) :
    typeDeclaration nested line s ts = .ok ⟨false, [], ts⟩ := by
  rw [typeDeclaration, bind_of_ok (ahead_apply s ts), h]
  rfl

/-- A label is passed over with its colon. -/
theorem statement_labelled (hx : x.IsIdentifier) (hcolon : colon.IsSign ":")
    (hts : nested .statement s ts = .ok ⟨(), fs, rest⟩) :
    statement nested s (x :: colon :: ts) = .ok ⟨(), fs, rest⟩ := by
  rw [statement_unnamed fun word hw => hx.spells word (statementWords_reserved word hw).1]
  simp [unnamedStatement, bind_apply, hx.isName, hcolon.spells, hts]

/-- A statement that starts with a type and a name declares local variables. -/
theorem statement_variables {follower : Token} (has : ReadAsType as)
    (hyield : begins "yield" as = false) (hx : x.IsIdentifier)
    (hfollower : follower.IsSignOf ["=", ",", ";"])
    (hread : localDeclaration nested s (as ++ x :: follower :: us) = .ok ⟨(), fs, t :: rest⟩)
    (ht : t.IsSign ";") :
    statement nested s (as ++ x :: follower :: us) = .ok ⟨(), fs, rest⟩ := by
  have hlocal := isLocalDeclaration_variable has hyield hx (hfollower.mono (by decide)) us
  have hkeyword := typeKeyword?_variable has hfollower x us
  obtain ⟨u, vs, rfl, hu, hvs⟩ := has.head
  have hcolon : begins ":" (vs ++ x :: follower :: us) = false := by
    rcases hvs with rfl | ⟨v, vs, rfl, hv⟩
    · simp [hx.spells_signs]
    · exact hv.spells (by decide)
  rw [List.cons_append] at hread hlocal hkeyword ⊢
  rw [statement_unnamed fun word hw => hu.spells (statementWords_reserved word hw).1
    (statementWords_reserved word hw).2]
  have hmodifiers := hu.not_modifier
  have hannotations : u.spells "@" = false := hu.spells (by decide) (by decide)
  simp [unnamedStatement, bind_apply, hcolon, hmodifiers, beginsAnnotations, hannotations,
    typeDeclaration_none hkeyword, hlocal, hread, expect_cons, ht.spells]

/-- A declaration of variables with a semicolon is a statement. -/
theorem statement_declaration (hplain : ReadsPlain nested) (h : Declared xs ds)
    (ht : t.IsSign ";") (s : Scope) (rest : List Token) :
    statement nested s (ds ++ t :: rest) = .ok ⟨(), variableFacts s.owner xs, rest⟩ := by
  have hread := localDeclaration_apply hplain h ht s rest
  obtain ⟨has, hyield, hds⟩ := h
  obtain ⟨x, f, more, heq, hx, hf⟩ := hds.split ht rest
  rw [List.append_assoc, heq] at hread ⊢
  exact statement_variables has.readAsType hyield hx hf hread ht

/-- The target and the sign of an assignment are passed over. -/
theorem passes_assignment (hx : x.IsIdentifier) (hequals : equals.IsSign "=")
    (hes : PlainExpression es) (ht : t.IsSign ";") (s : Scope) (rest : List Token) :
    Passes nested [";"] s (x :: equals :: es) [] (t :: rest) := by
  have htarget : Passes nested [";"] s [x] [] (equals :: es ++ t :: rest) :=
    passes_operand (.inl hx) (by simp [EndsOperand, hequals.spells])
  have hsign : Passes nested [";"] s [equals] [] (es ++ t :: rest) :=
    passes_sign hequals (by decide) (by decide) _
  have hvalue : Passes nested [";"] s es [] (t :: rest) :=
    passes_plainExpression hes (by decide) (by simp [EndsOperand, ht.spells])
  exact htarget.append (hsign.append hvalue)

/-- An assignment of operands is a statement that records nothing. -/
theorem statement_assignment (hplain : ReadsPlain nested) (hx : x.IsIdentifier)
    (hequals : equals.IsSign "=") (hes : PlainExpression es) (ht : t.IsSign ";") (s : Scope)
    (rest : List Token) :
    statement nested s (x :: equals :: (es ++ t :: rest)) = .ok ⟨(), [], rest⟩ := by
  have hread : nested (.expression [";"]) s (x :: equals :: (es ++ t :: rest)) =
      .ok ⟨(), [], t :: rest⟩ :=
    hplain (fun nested => passes_assignment hx hequals hes ht s rest)
      (ends_of_isSign ht (by decide))
  have hkeyword : typeKeyword? (x :: equals :: (es ++ t :: rest)) = none := by
    simp [typeKeyword?, hx.spells_signs, hx.spells_words, hequals.isName]
  have htype : typeRest? (x :: equals :: (es ++ t :: rest)) =
      some (equals :: (es ++ t :: rest)) := by
    have hends : EndsName (equals :: (es ++ t :: rest)) := by simp [EndsName, hequals.spells]
    rw [← List.nil_append (equals :: _), typeRest?_segments hx .nil hends,
      dimensionsRest_of_not_opener (by simp [hequals.spells]), List.nil_append]
  have hlocal : isLocalDeclaration (x :: equals :: (es ++ t :: rest)) = false := by
    rw [isLocalDeclaration, htype]
    cases es ++ t :: rest <;> simp [hequals.isName]
  have hmodifiers : x.spellsAny localModifiers = false := hx.spellsAny _ (by decide)
  rw [statement_unnamed fun word hw => hx.spells word (statementWords_reserved word hw).1]
  simp [unnamedStatement, bind_apply, hequals.spells, hmodifiers, beginsAnnotations,
    hx.spells_signs, typeDeclaration_none hkeyword, hlocal, expressionStatement, hread,
    expect_cons, ht.spells]

/-! ## Statements told by their first word -/

/-- A semicolon alone is a statement. -/
theorem statement_empty (ht : t.IsSign ";") (s : Scope) (rest : List Token) :
    statement nested s (t :: rest) = .ok ⟨(), [], rest⟩ := by
  simp [statement, bind_apply, ht.spells]

/-- A block is a statement. -/
theorem statement_block (hl : l.IsSign "\x7b")
    (h : block nested s (l :: ts) = .ok ⟨(), fs, rest⟩) :
    statement nested s (l :: ts) = .ok ⟨(), fs, rest⟩ := by
  simp [statement, bind_apply, hl.spells, h]

/-- A jump without a label records nothing. -/
theorem statement_jump {word : String} (ht : t.IsWord word)
    (hword : word = "break" ∨ word = "continue") (hsemicolon : semicolon.IsSign ";") (s : Scope)
    (rest : List Token) : statement nested s (t :: semicolon :: rest) = .ok ⟨(), [], rest⟩ := by
  rcases hword with rfl | rfl <;>
    simp [statement, bind_apply, ht.spells, hsemicolon.isName, expect_cons, hsemicolon.spells]

section Words

variable (hplain : ReadsPlain nested)

include hplain

/-- An `if` without an `else` records what its statement does. -/
theorem statement_ifThen (ht : t.IsWord "if") (hcs : Condition cs)
    (hts : nested .statement s (ts ++ rest) = .ok ⟨(), fs, rest⟩)
    (hrest : begins "else" rest = false) :
    statement nested s (t :: (cs ++ (ts ++ rest))) = .ok ⟨(), fs, rest⟩ := by
  have hread := parenthesized_condition hplain hcs s (ts ++ rest)
  simp [statement, bind_apply, ht.spells, hread, hts, hrest]

/-- An `if` with an `else` records what its statements do, in order. -/
theorem statement_ifElse (ht : t.IsWord "if") (hcs : Condition cs)
    (hus : nested .statement s (us ++ u :: (ts ++ rest)) = .ok ⟨(), fs, u :: (ts ++ rest)⟩)
    (hu : u.IsWord "else") (hts : nested .statement s (ts ++ rest) = .ok ⟨(), gs, rest⟩) :
    statement nested s (t :: (cs ++ (us ++ u :: (ts ++ rest)))) = .ok ⟨(), fs ++ gs, rest⟩ := by
  have hread := parenthesized_condition hplain hcs s (us ++ u :: (ts ++ rest))
  simp [statement, bind_apply, ht.spells, hread, hus, hu.spells, hts]

/-- A `while` is recorded before what its statement records. -/
theorem statement_while (ht : t.IsWord "while") (hcs : Condition cs)
    (hts : nested .statement s (ts ++ rest) = .ok ⟨(), fs, rest⟩) :
    statement nested s (t :: (cs ++ (ts ++ rest))) =
      .ok ⟨(), .loop ⟨.whileLoop, t.line⟩ :: fs, rest⟩ := by
  have hread := parenthesized_condition hplain hcs s (ts ++ rest)
  simp [statement, bind_apply, ht.spells, hread, hts]

/-- A `do` is recorded before what its statement records. -/
theorem statement_do (ht : t.IsWord "do") (hu : u.IsWord "while") (hcs : Condition cs)
    (hsemicolon : semicolon.IsSign ";")
    (hts : nested .statement s (ts ++ u :: (cs ++ semicolon :: rest)) =
      .ok ⟨(), fs, u :: (cs ++ semicolon :: rest)⟩) :
    statement nested s (t :: (ts ++ u :: (cs ++ semicolon :: rest))) =
      .ok ⟨(), .loop ⟨.doLoop, t.line⟩ :: fs, rest⟩ := by
  have hread := parenthesized_condition hplain hcs s (semicolon :: rest)
  simp [statement, bind_apply, ht.spells, hts, expect_cons, hu.spells, hread, hsemicolon.spells]

/-- A `synchronized` block records what the block does. -/
theorem statement_synchronized (ht : t.IsWord "synchronized") (hcs : Condition cs)
    (hts : block nested s (ts ++ rest) = .ok ⟨(), fs, rest⟩) :
    statement nested s (t :: (cs ++ (ts ++ rest))) = .ok ⟨(), fs, rest⟩ := by
  have hread := parenthesized_condition hplain hcs s (ts ++ rest)
  obtain ⟨hl, hes, hr⟩ := hcs
  rw [List.cons_append, List.append_assoc, List.singleton_append] at hread
  simp [statement, bind_apply, ht.spells, hl.spells, hread, hts]

/-- A statement of a word, an expression and a semicolon. -/
theorem statement_value {word : String} (ht : t.IsWord word)
    (hword : word = "return" ∨ word = "throw") (hes : OptionalExpression es)
    (hsemicolon : semicolon.IsSign ";") (s : Scope) (rest : List Token) :
    statement nested s (t :: (es ++ semicolon :: rest)) = .ok ⟨(), [], rest⟩ := by
  have hread := hplain.upTo [";"] hes hsemicolon (by decide) (by decide) s rest
  rcases hword with rfl | rfl <;>
    simp [statement, bind_apply, ht.spells, expressionStatement, hread, expect_cons,
      hsemicolon.spells]

end Words

/-! ## Loops with a header -/

/-- No modifier stands before a type. -/
theorem modifiers_type (has : ReadAsType as) (hx : x.IsIdentifier) (s : Scope)
    (rest : List Token) :
    modifiers localModifiers s (as ++ x :: rest) = .ok ⟨[], [], as ++ x :: rest⟩ := by
  obtain ⟨t, us, rfl, ht, hus⟩ := has.head
  have hminus : begins "-" (us ++ x :: rest) = false := by
    rcases hus with rfl | ⟨v, vs, rfl, hv⟩
    · simp [hx.spells_signs]
    · exact hv.spells (by decide)
  have hmodifiers := ht.not_modifier
  have hannotations : t.spells "@" = false := ht.spells (by decide) (by decide)
  have hfound : ∀ round : Parser (Option (List String)),
      round s (t :: (us ++ x :: rest)) = .ok ⟨none, [], t :: (us ++ x :: rest)⟩ →
        (do return (← gather round).flatten) s (t :: (us ++ x :: rest)) =
          .ok ⟨[], [], t :: (us ++ x :: rest)⟩ := fun round hround =>
    bind_of_ok (gather_done hround)
  refine hfound _ ?_
  simp [bind_apply, hmodifiers, hminus, beginsAnnotations, hannotations]

/-- A type and a name with a sign that can follow it start a declaration. -/
theorem forInitializer_declaration (has : ReadAsType as) (hyield : begins "yield" as = false)
    (hx : x.IsIdentifier) (hu : u.IsSignOf ["=", ",", ";", ":"]) (s : Scope) (rest : List Token) :
    forInitializer nested s (as ++ x :: u :: rest) =
      localDeclaration nested s (as ++ x :: u :: rest) := by
  have hlocal := isLocalDeclaration_variable has hyield hx hu rest
  rw [forInitializer, bind_of_ok (modifiers_type has hx s _), recording_nil,
    bind_of_ok (ahead_apply s _), recording_nil, if_pos (by simp [hlocal])]

/-- A declaration in a header records its variables. -/
theorem forInitializer_apply (hplain : ReadsPlain nested) (h : Declared xs ds)
    (ht : t.IsSign ";") (s : Scope) (rest : List Token) :
    forInitializer nested s (ds ++ t :: rest) =
      .ok ⟨(), variableFacts s.owner xs, t :: rest⟩ := by
  have hread := localDeclaration_apply hplain h ht s rest
  obtain ⟨has, hyield, hds⟩ := h
  obtain ⟨x, f, more, heq, hx, hf⟩ := hds.split ht rest
  rw [List.append_assoc, heq] at hread ⊢
  rw [forInitializer_declaration has.readAsType hyield hx (hf.mono (by decide)), hread]

/-- The first part of a header may be missing, and then nothing is recorded for it. -/
theorem forInitializer_unless (hplain : ReadsPlain nested) (h : ForInitializer xs ts)
    (ht : t.IsSign ";") (s : Scope) (rest : List Token) :
    ReadsUnless ";" (forInitializer nested) s (ts ++ t :: rest) (variableFacts s.owner xs)
      (t :: rest) := by
  unfold ReadsUnless
  rcases h with ⟨rfl, rfl⟩ | h
  · rw [List.nil_append, begins_cons, if_pos (by simp [ht.spells])]
    exact ⟨rfl, rfl⟩
  · rw [if_neg (by simp [h.begins_semicolon]), forInitializer_apply hplain h ht]

/-- An expression of the header is read unless it is left out. -/
theorem ReadsPlain.unless {sign : String} (h : ReadsPlain nested) (stop : List String)
    (hes : OptionalExpression es) (ht : t.IsSign sign)
    (hsign : (sign ∈ closers ∨ sign ∈ stop) ∧ sign ∉ [".", "(", "->"] ∧ sign ∈ keywords ++ signs)
    (hstop : ∀ op ∈ binaryOperators, op ∉ stop) (s : Scope) (rest : List Token) :
    ReadsUnless sign (nested (.expression stop)) s (es ++ t :: rest) [] (t :: rest) := by
  have hread := h.upTo stop hes ht ⟨hsign.1, hsign.2.1⟩ hstop s rest
  unfold ReadsUnless
  rcases hes with rfl | hes
  · rw [List.nil_append, begins_cons, if_pos (by simp [ht.spells])]
    exact ⟨rfl, rfl⟩
  · rw [if_neg (by simp [hes.begins hsign.2.2]), hread]

/-- A header with a colon: a variable, and an expression it runs over. -/
theorem forStatement_each {line : Nat} (ht : t.IsWord "for") (hl : l.IsSign "(")
    (has : ReadAsType as) (hx : x.IsIdentifier) (hcolon : colon.IsSign ":")
    (hforEach : isForEach 0 0 (as ++ x :: colon :: es) = true)
    (hes : nested (.expression [")"]) s es = .ok ⟨(), gs, r :: ts⟩) (hr : r.IsSign ")")
    (hts : nested .statement s ts = .ok ⟨(), fs, rest⟩) :
    forStatement nested line s (t :: l :: (as ++ x :: colon :: es)) =
      .ok ⟨(), variableFacts s.owner [x] ++ (gs ++ .loop ⟨.forEachLoop, line⟩ :: fs), rest⟩ := by
  have hmodifiers := discard_of_ok (modifiers_type has hx s (colon :: es))
  have htype := type_before_name has hx s (colon :: es)
  simp [forStatement, bind_apply, ht.spells, expect_cons, hl.spells, hforEach, hmodifiers, htype,
    name_cons hx.isName, hcolon.spells, hes, hr.spells, hts, variableFacts]

/-- A header with two semicolons: three parts, each of which may be left out. -/
theorem forStatement_parts {line : Nat} {first second : Token} {hs ks : List Fact}
    (ht : t.IsWord "for") (hl : l.IsSign "(") (hforEach : isForEach 0 0 ts = false)
    (hinitializer : ReadsUnless ";" (forInitializer nested) s ts gs (first :: cs))
    (hfirst : first.IsSign ";")
    (hcondition : ReadsUnless ";" (nested (.expression [";"])) s cs hs (second :: us))
    (hsecond : second.IsSign ";")
    (hupdate : ReadsUnless ")" (nested (.expression [")"])) s us ks (r :: ds))
    (hr : r.IsSign ")") (hds : nested .statement s ds = .ok ⟨(), fs, rest⟩) :
    forStatement nested line s (t :: l :: ts) =
      .ok ⟨(), gs ++ (hs ++ (ks ++ .loop ⟨.forLoop, line⟩ :: fs)), rest⟩ := by
  rw [forStatement, bind_of_ok (expect_cons (by simp [ht.spells]) s _), recording_nil,
    bind_of_ok (expect_cons (by simp [hl.spells]) s _), recording_nil,
    bind_of_ok (ahead_apply s _), recording_nil, if_neg (by simp [hforEach])]
  -- each part is followed by the sign that ends it
  refine (hinitializer.bind _).trans (recording_eq_ok.2 ⟨⟨(), _, rest⟩, ?_, rfl⟩)
  refine (bind_of_ok (expect_cons (by simp [hfirst.spells]) s _)).trans ((recording_nil _).trans ?_)
  refine (hcondition.bind _).trans (recording_eq_ok.2 ⟨⟨(), _, rest⟩, ?_, rfl⟩)
  refine (bind_of_ok (expect_cons (by simp [hsecond.spells]) s _)).trans ((recording_nil _).trans ?_)
  refine (hupdate.bind _).trans (recording_eq_ok.2 ⟨⟨(), _, rest⟩, ?_, rfl⟩)
  simp [bind_apply, expect_cons, hr.spells, hds]

/-- What starts with `for` is read as a loop of the line of that word. -/
theorem statement_for_eq (ht : t.IsWord "for") (s : Scope) (rest : List Token) :
    statement nested s (t :: rest) = forStatement nested t.line s (t :: rest) := by
  simp [statement, bind_apply, ht.spells]

/-- A loop over a collection records its variable, itself, and then its statement. -/
theorem statement_forEach (hplain : ReadsPlain nested) (ht : t.IsWord "for") (hl : l.IsSign "(")
    (has : WrittenType .one as) (hx : x.IsIdentifier) (hcolon : colon.IsSign ":")
    (hes : PlainExpression es) (hr : r.IsSign ")")
    (hts : nested .statement s ts = .ok ⟨(), fs, rest⟩) :
    statement nested s (t :: l :: (as ++ x :: colon :: (es ++ r :: ts))) =
      .ok ⟨(), variableFacts s.owner [x] ++ .loop ⟨.forEachLoop, t.line⟩ :: fs, rest⟩ := by
  have hforEach : isForEach 0 0 (as ++ x :: colon :: (es ++ r :: ts)) = true := by
    rw [has.angled.isForEach, isForEach_flat hx.isFlat, isForEach.eq_def]
    simp [Token.isOpener, hcolon.closer?, bracketPairs, hcolon.isCloser, closers, hcolon.spells]
  have hread := hplain.upTo [")"] (.inr hes) hr (by decide) (by decide) s ts
  rw [statement_for_eq ht, forStatement_each ht hl has.readAsType hx hcolon hforEach hread hr hts]
  rfl

/-- A counting loop records the variables of its header, itself, and then its statement. -/
theorem statement_for (hplain : ReadsPlain nested) {first second : Token} {is : List Token}
    (ht : t.IsWord "for") (hl : l.IsSign "(")
    (his : ForInitializer xs is) (hfirst : first.IsSign ";") (hcs : OptionalExpression cs)
    (hsecond : second.IsSign ";") (hus : OptionalExpression us) (hr : r.IsSign ")")
    (hts : nested .statement s ts = .ok ⟨(), fs, rest⟩) :
    statement nested s (t :: l :: (is ++ first :: (cs ++ second :: (us ++ r :: ts)))) =
      .ok ⟨(), variableFacts s.owner xs ++ .loop ⟨.forLoop, t.line⟩ :: fs, rest⟩ := by
  have hforEach := his.not_isForEach hfirst (cs ++ second :: (us ++ r :: ts))
  have hinitializer := forInitializer_unless hplain his hfirst s
    (cs ++ second :: (us ++ r :: ts))
  have hcondition := hplain.unless [";"] hcs hsecond (by decide) (by decide) s (us ++ r :: ts)
  have hupdate := hplain.unless [")"] hus hr (by decide) (by decide) s ts
  rw [statement_for_eq ht, forStatement_parts ht hl hforEach hinitializer hfirst hcondition hsecond
    hupdate hr hts]
  rfl

/-! ## Blocks, `try` and `switch` -/

/-- A block records what the statements between its braces do. -/
theorem block_apply (hl : l.IsSign "\x7b") (hr : r.IsSign "\x7d")
    (hts : untilSees "\x7d" (nested .statement) s (ts ++ r :: rest) = .ok ⟨(), fs, r :: rest⟩) :
    block nested s (l :: (ts ++ r :: rest)) = .ok ⟨(), fs, rest⟩ := by
  simp [block, bind_apply, expect_cons, hl.spells, hr.spells, hts]

/-- One more `catch` clause, if there is one. -/
def catchRound (nested : Construct → Parser Unit) : Parser Bool := do
  if ← sees "catch" then
    let line ← line
    skip
    catchRest nested line
    return true
  return false

/-- The blocks of a `try` statement with its resources, in order. -/
theorem tryStatement_eq (nested : Construct → Parser Unit) : tryStatement nested = (do
    expect "try"
    if ← sees "(" then
      skip
      untilSees ")" (resource nested)
      expect ")"
    block nested
    repeatWhile (catchRound nested)
    if ← sees "finally" then
      skip
      block nested) := rfl

/-- Where no `catch` comes, the clauses of a `try` statement end. -/
theorem catchRound_done (h : begins "catch" rest = false) :
    catchRound nested s rest = .ok ⟨false, [], rest⟩ := by
  simp [catchRound, bind_apply, h]

/-- A `catch` clause records its parameter, itself, and then its block. -/
theorem catchRound_more (ht : t.IsWord "catch") (hl : l.IsSign "(") (has : WrittenType .one as)
    (hx : x.IsIdentifier) (hr : r.IsSign ")") (hts : block nested s ts = .ok ⟨(), fs, rest⟩) :
    catchRound nested s (t :: l :: (as ++ x :: r :: ts)) =
      .ok ⟨true, declaredValue .parameter s.owner x ++ .catchClause t.line :: fs, rest⟩ := by
  have hmodifiers := discard_of_ok (modifiers_type has.readAsType hx s (r :: ts))
  have htype := type_before_name has.readAsType hx s (r :: ts)
  have hrest : catchRest nested t.line s (l :: (as ++ x :: r :: ts)) =
      .ok ⟨(), declaredValue .parameter s.owner x ++ .catchClause t.line :: fs, rest⟩ := by
    rw [catchRest, bind_of_ok (expect_cons (by simp [hl.spells]) s _), recording_nil,
      bind_of_ok hmodifiers, recording_nil, bind_of_ok htype, recording_nil]
    -- no second type follows the first, so the loop over the types ends at once
    refine (bind_of_ok (repeatWhile_done
      (?_ : _ = Except.ok (Parsed.mk false [] (x :: r :: ts))))).trans ?_
    · simp [bind_apply, hx.spells_signs]
    · simp [bind_apply, name_cons hx.isName, expect_cons, hr.spells, hts]
  simp [catchRound, bind_apply, ht.spells, lineAt, hrest]

/-- A `try` with `catch` clauses records its block and then the clauses. -/
theorem statement_tryCatch (ht : t.IsWord "try") (hl : l.IsSign "\x7b")
    (hts : block nested s (l :: (ts ++ us)) = .ok ⟨(), fs, us⟩)
    (hus : repeatWhile (catchRound nested) s us = .ok ⟨(), gs, rest⟩)
    (hrest : begins "finally" rest = false) :
    statement nested s (t :: l :: (ts ++ us)) = .ok ⟨(), fs ++ gs, rest⟩ := by
  simp [statement, tryStatement_eq, bind_apply, ht.spells, expect_cons, hl.spells, hts, hus, hrest]

/-- A `try` with a `finally` records that block last. -/
theorem statement_tryFinally {hs : List Fact} (ht : t.IsWord "try") (hl : l.IsSign "\x7b")
    (hts : block nested s (l :: (ts ++ us)) = .ok ⟨(), fs, us⟩)
    (hus : repeatWhile (catchRound nested) s us = .ok ⟨(), gs, u :: ds⟩)
    (hu : u.IsWord "finally") (hds : block nested s ds = .ok ⟨(), hs, rest⟩) :
    statement nested s (t :: l :: (ts ++ us)) = .ok ⟨(), fs ++ (gs ++ hs), rest⟩ := by
  simp [statement, tryStatement_eq, bind_apply, ht.spells, expect_cons, hl.spells, hts, hus,
    hu.spells, hds]

/-- One label or statement of a `switch`. -/
def switchRound (nested : Construct → Parser Unit) : Parser Unit := do
  if ← sees "case" then
    skip
    nested (.expression [":", "->"])
    caseRest nested
  else if ← sees "default" then
    skip
    caseRest nested
  else nested .statement

/-- The body of a `switch` goes round by round. -/
theorem switchBlock_eq (nested : Construct → Parser Unit) : switchBlock nested = (do
    expect "\x7b"
    untilSees "\x7d" (switchRound nested)
    expect "\x7d") := rfl

/-- A label ends with its colon. -/
theorem caseRest_colon (hcolon : colon.IsSign ":") (s : Scope) (rest : List Token) :
    caseRest nested s (colon :: rest) = .ok ⟨(), [], rest⟩ := by
  simp [caseRest, bind_apply, hcolon.spells, expect_cons]

/-- A label with a value records nothing. -/
theorem switchRound_case (hplain : ReadsPlain nested) (ht : t.IsWord "case")
    (hes : PlainExpression es) (hcolon : colon.IsSign ":") (s : Scope) (rest : List Token) :
    switchRound nested s (t :: (es ++ colon :: rest)) = .ok ⟨(), [], rest⟩ := by
  have hread := hplain.upTo [":", "->"] (.inr hes) hcolon (by decide) (by decide) s rest
  simp [switchRound, bind_apply, ht.spells, hread, caseRest_colon hcolon]

/-- The default label records nothing. -/
theorem switchRound_default (ht : t.IsWord "default") (hcolon : colon.IsSign ":") (s : Scope)
    (rest : List Token) : switchRound nested s (t :: colon :: rest) = .ok ⟨(), [], rest⟩ := by
  simp [switchRound, bind_apply, ht.spells, caseRest_colon hcolon]

/-- A round that is no label is a statement. -/
theorem switchRound_statement (hcase : begins "case" ts = false)
    (hdefault : begins "default" ts = false) :
    switchRound nested s ts = nested .statement s ts := by
  simp [switchRound, bind_apply, hcase, hdefault]

/-- A `switch` records what the rounds between its braces do. -/
theorem statement_switch (hplain : ReadsPlain nested) (ht : t.IsWord "switch")
    (hcs : Condition cs) (hl : l.IsSign "\x7b") (hr : r.IsSign "\x7d")
    (hts : untilSees "\x7d" (switchRound nested) s (ts ++ r :: rest) =
      .ok ⟨(), fs, r :: rest⟩) :
    statement nested s (t :: (cs ++ l :: (ts ++ r :: rest))) = .ok ⟨(), fs, rest⟩ := by
  have hread := parenthesized_condition hplain hcs s (l :: (ts ++ r :: rest))
  simp [statement, switchBlock_eq, bind_apply, ht.spells, hread, expect_cons, hl.spells, hts,
    hr.spells]

end Parser

end Assay.Source
