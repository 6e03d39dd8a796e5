import Assay.Proofs.HeaderReading
import Assay.Proofs.StatementStructure
import Assay.Proofs.TypeDeclaration

/-!
# How members and types are read

Each form of member is told from the others by the tokens after its modifiers, and read up to its
end, whatever follows. The induction on the derivation is `Declares.reads`.
-/

namespace Assay.Source

open Assay.Source.Parser

variable {s : Scope} {nested : Construct → Parser Unit} {t x l r declared semicolon : Token}
  {ms as bs cs ds es ps ts rest xs found : List Token} {words : List String}
  {facts fs gs : List Fact} {varargs isStatic : Bool} {line n depth : Nat}

/-- Expressions and blocks are read as their grammars say, blocks up to a number of tokens. -/
structure ReadsInside (nested : Construct → Parser Unit) (s : Scope) (n : Nat) : Prop where
  plain : ReadsPlain nested
  block : ∀ {bs : List Token} {fs : List Fact}, Structured s.owner .block bs fs → bs.length ≤ n →
    ∀ rest, Parser.block nested s (bs ++ rest) = .ok ⟨(), fs, rest⟩

/-- Constructs read the declarations inside them, as many tokens as there is room for. -/
theorem readsInside_construct (depth : Nat) (s : Scope) :
    ReadsInside (construct (depth + 1)) s (depth + 1) :=
  ⟨readsPlain_construct depth, fun hbs hlength rest => hbs.reads rfl _ hlength rest⟩

/-! ## Fields -/

/-- Declarators start with the first name that they declare. -/
theorem Declarators.head (h : Declarators (x :: xs) ds) : ∃ us, ds = x :: us ∧ x.IsIdentifier := by
  cases h with
  | one hx hds =>
    obtain ⟨us, rfl⟩ := hds.eq_cons
    exact ⟨us, rfl, hx⟩
  | more hx hds =>
    obtain ⟨us, rfl⟩ := hds.eq_cons
    exact ⟨_, rfl, hx⟩

/-- A field is read up to the comma or semicolon after it. -/
theorem field_apply (hplain : ReadsPlain nested) (isStatic : Bool) (hx : x.IsIdentifier)
    (hds : Declarator x ds) (ht : t.IsSign "," ∨ t.IsSign ";") (rest : List Token) :
    (do fieldRest nested isStatic (← name) : Parser Unit) s (ds ++ t :: rest) =
      .ok ⟨(), fieldFact isStatic x, t :: rest⟩ := by
  obtain ⟨us, rfl⟩ := hds.eq_cons
  have hread := initializer_apply hplain hds ht s rest
  simp [bind_apply, name_cons hx.isName, fieldRest, hread, fieldFact]

/-- A field is declared by its first name; what comes behind the name and the other names is read
one after the other, and then a semicolon is expected. -/
theorem fieldOrMethod_upTo {flag : Bool} {us mid : List Token} (has : ReadAsType as)
    (hx : x.IsIdentifier) (hparenthesis : begins "(" us = false)
    (hflag : (isStatic || (s.ownerKind.map (·.makesFieldsStatic)).getD false) = flag)
    (hfirst : fieldRest nested flag x s us = .ok ⟨(), fs, mid⟩)
    (hmore : afterCommas (do fieldRest nested flag (← name)) s mid = .ok ⟨(), gs, rest⟩) :
    fieldOrMethod nested isStatic line s (as ++ x :: us) =
      recording (.declaration ⟨if flag then .staticField else .instanceField, x.text, line, s.owner,
        0, false, false⟩ :: (fs ++ gs)) (expect ";" s rest) := by
  have htype := type_apply has (hx.endsType us) s
  rw [fieldOrMethod, bind_of_ok htype, recording_nil, bind_of_ok (name_cons hx.isName s _),
    recording_nil, bind_of_ok (sees_apply "(" s _), recording_nil, hparenthesis, if_neg (by simp),
    bind_of_ok (scope_apply s _), recording_nil, hflag]
  refine (bind_of_ok (declare_apply _ _ _ s _)).trans ?_
  rw [bind_of_ok hfirst, bind_of_ok hmore, recording_recording, recording_recording]
  rfl

/-- A field records its first declarator and then the others. -/
theorem fieldOrMethod_field {flag : Bool} {us mid : List Token} (has : ReadAsType as)
    (hx : x.IsIdentifier) (hparenthesis : begins "(" us = false)
    (hflag : (isStatic || (s.ownerKind.map (·.makesFieldsStatic)).getD false) = flag)
    (hfirst : fieldRest nested flag x s us = .ok ⟨(), fs, mid⟩)
    (hmore : afterCommas (do fieldRest nested flag (← name)) s mid =
      .ok ⟨(), gs, semicolon :: rest⟩) (hsemicolon : semicolon.IsSign ";") :
    fieldOrMethod nested isStatic line s (as ++ x :: us) =
      .ok ⟨(), .declaration ⟨if flag then .staticField else .instanceField, x.text, line, s.owner,
        0, false, false⟩ :: (fs ++ gs), rest⟩ := by
  rw [fieldOrMethod_upTo has hx hparenthesis hflag hfirst hmore,
    expect_cons (by simp [hsemicolon.spells])]
  simp

/-- Fields of one type are read up to their semicolon. -/
theorem fieldOrMethod_fields (hplain : ReadsPlain nested) (has : WrittenType .one as)
    (hds : Declarators (x :: xs) ds) (hsemicolon : semicolon.IsSign ";") (isStatic : Bool)
    (line : Nat) (rest : List Token) :
    fieldOrMethod nested isStatic line s (as ++ (ds ++ semicolon :: rest)) =
      .ok ⟨(), fieldFacts s (isStatic || (s.ownerKind.map (·.makesFieldsStatic)).getD false) line x
        xs, rest⟩ := by
  generalize hflag : (isStatic || (s.ownerKind.map (·.makesFieldsStatic)).getD false) = flag
  have hitems : ∃ fs mid, (do fieldRest nested flag (← name) : Parser Unit) s
      (ds ++ semicolon :: rest) = .ok ⟨(), fs, mid⟩ ∧
      mid.length ≤ (ds ++ semicolon :: rest).length ∧
      recording fs (afterCommas (do fieldRest nested flag (← name)) s mid) =
        .ok ⟨(), (x :: xs).flatMap (fieldFact flag), semicolon :: rest⟩ :=
    afterCommas_items (fun hx hds ht rest => field_apply hplain flag hx hds ht rest) hds hsemicolon
      rest
  obtain ⟨fs, mid, hfirst, -, hmore⟩ := hitems
  -- the first name is read before it is known that no method follows, so its field is split there
  obtain ⟨⟨_, gs, left⟩, hafter, hall⟩ := recording_eq_ok.1 hmore
  obtain ⟨-, hfacts, rfl⟩ := Parsed.mk.inj hall
  obtain ⟨y, f, more, heq, -, hf⟩ := hds.split hsemicolon rest
  obtain ⟨us, rfl, hx⟩ := hds.head
  obtain ⟨rfl, hus⟩ := List.cons.inj heq
  rw [List.cons_append, bind_of_ok (name_cons hx.isName s _), recording_nil] at hfirst
  have hparenthesis : begins "(" (us ++ semicolon :: rest) = false := by
    rw [List.append_eq] at hus
    rw [hus]
    exact hf.spells (by decide)
  rw [fieldFacts, hfacts]
  exact fieldOrMethod_field has.readAsType hx hparenthesis hflag hfirst hafter hsemicolon

/-! ## Methods and constructors -/

/-- The body of a method is a semicolon or a block. -/
theorem MethodBody.starts (h : MethodBody s.owner bs fs) :
    ∃ t us, bs = t :: us ∧ (t.IsSign ";" ∨ t.IsSign "\x7b") := by
  cases h with
  | none hsemicolon => exact ⟨_, _, rfl, .inl hsemicolon⟩
  | block hbs =>
    obtain ⟨l, us, rfl, hl⟩ := hbs.starts
    exact ⟨l, us, rfl, .inr hl⟩

/-- The body of a method is read, and what is recorded in it. -/
theorem methodBody_apply (hinside : ReadsInside nested s n) (h : MethodBody s.owner bs fs)
    (hlength : bs.length ≤ n) (rest : List Token) :
    (do if ← sees ";" then skip else block nested : Parser Unit) s (bs ++ rest) =
      .ok ⟨(), fs, rest⟩ := by
  cases h with
  | none hsemicolon => simp [bind_apply, hsemicolon.spells]
  | block hbs =>
    have hread := hinside.block hbs hlength rest
    obtain ⟨l, us, rfl, hl⟩ := hbs.starts
    rw [List.cons_append] at hread ⊢
    simp [bind_apply, hl.spells, hread]

/-- A method is read from its parameters on, outside annotation types. -/
theorem methodRest_apply (hinside : ReadsInside nested s n)
    (hs : s.ownerKind ≠ some .annotationType) (hl : l.IsSign "(")
    (hps : ParameterList xs varargs ps) (hr : r.IsSign ")") (hts : ThrowsClause ts)
    (hbs : MethodBody s.owner bs fs) (hlength : bs.length ≤ n) (declared : Token) (isStatic : Bool)
    (line : Nat) (rest : List Token) :
    methodRest nested declared isStatic line s (l :: (ps ++ r :: (ts ++ (bs ++ rest)))) =
      .ok ⟨(), callableFacts s .method declared line xs varargs isStatic ++ fs, rest⟩ := by
  have hbody := methodBody_apply hinside hbs hlength rest
  obtain ⟨t, us, rfl, ht⟩ := hbs.starts
  rw [List.cons_append] at hbody ⊢
  -- the body starts with a brace or is a semicolon, and both end the clause of thrown types
  have hends : EndsType (t :: (us ++ rest)) := by
    rcases ht with ht | ht <;> exact ht.endsType (by decide) _
  have hthrows := throwsClause_apply hts (by rcases ht with ht | ht <;> simp [ht.spells]) hends
    (by rcases ht with ht | ht <;> simp [ht.spells]) s
  have hdimensions : dimensions s (ts ++ t :: (us ++ rest)) =
      .ok ⟨(), [], ts ++ t :: (us ++ rest)⟩ := by
    refine dimensions_apply_of_not_opener ?_ s
    cases hts with
    | none => rcases ht with ht | ht <;> simp [ht.spells]
    | types hword => simp [hword.spells]
  rw [methodRest, bind_of_ok (parameters_apply hl hps hr s _)]
  dsimp only
  rw [bind_of_ok hdimensions, recording_nil, bind_of_ok hthrows, recording_nil,
    bind_of_ok (scope_apply s _), recording_nil,
    if_neg (by simpa using hs)]
  refine congrArg (recording _) ((bind_of_ok (declareCallable_apply _ _ _ _ _ _ s _)).trans
    (congrArg (recording _) hbody)) |>.trans ?_
  simp [callableFacts]

/-- The default value of an annotation's element is read up to the semicolon after it. -/
theorem elementDefault_apply (hplain : ReadsPlain nested) (hes : ElementDefault es)
    (hsemicolon : semicolon.IsSign ";") (rest : List Token) :
    (do
      if ← sees "default" then
        skip
        elementValue nested
      expect ";" : Parser Unit) s (es ++ semicolon :: rest) = .ok ⟨(), [], rest⟩ := by
  cases hes with
  | none => simp [bind_apply, hsemicolon.spells, expect_cons]
  | @value t es ht hes =>
    have hbrace : begins "\x7b" (es ++ semicolon :: rest) = false := hes.begins (by decide) _
    have hat : begins "@" (es ++ semicolon :: rest) = false := hes.begins (by decide) _
    have hread := hplain.upTo [";"] (.inr hes) hsemicolon (by decide) (by decide) s rest
    simp [bind_apply, ht.spells, elementValue, hbrace, hat, hread, expect_cons, hsemicolon.spells]

/-- An element of an annotation type is read from its parentheses on, and records nothing. -/
theorem methodRest_element (hplain : ReadsPlain nested) (hs : s.ownerKind = some .annotationType)
    (hl : l.IsSign "(") (hr : r.IsSign ")") (hes : ElementDefault es)
    (hsemicolon : semicolon.IsSign ";") (declared : Token) (isStatic : Bool) (line : Nat)
    (rest : List Token) :
    methodRest nested declared isStatic line s (l :: r :: (es ++ semicolon :: rest)) =
      .ok ⟨(), [], rest⟩ := by
  have hstarts : ∃ t us, es ++ semicolon :: rest = t :: us ∧
      t.spells "[" = false ∧ t.spells "throws" = false := by
    cases hes with
    | none => exact ⟨_, _, rfl, by simp [hsemicolon.spells], by simp [hsemicolon.spells]⟩
    | value ht => exact ⟨_, _, rfl, by simp [ht.spells], by simp [ht.spells]⟩
  have hread := elementDefault_apply hplain hes hsemicolon (s := s) rest
  obtain ⟨t, us, heq, hbracket, hthrows⟩ := hstarts
  have hparameters := parameters_apply hl .none hr s (es ++ semicolon :: rest)
  rw [List.nil_append] at hparameters
  have hdimensions : dimensions s (es ++ semicolon :: rest) =
      .ok ⟨(), [], es ++ semicolon :: rest⟩ :=
    dimensions_apply_of_not_opener (by rw [heq]; exact hbracket) s
  have hclause : throwsClause s (es ++ semicolon :: rest) =
      .ok ⟨(), [], es ++ semicolon :: rest⟩ := by
    rw [heq]
    simp [throwsClause, bind_apply, hthrows]
  rw [methodRest, bind_of_ok hparameters]
  dsimp only
  rw [bind_of_ok hdimensions, recording_nil, bind_of_ok hclause, recording_nil,
    bind_of_ok (scope_apply s _), recording_nil, if_pos (by simp [hs])]
  exact congrArg (recording _) hread

/-- A constructor is read from its name on. -/
theorem constructor_apply (hinside : ReadsInside nested s n) (hdeclared : declared.IsIdentifier)
    (hl : l.IsSign "(") (hps : ParameterList xs varargs ps) (hr : r.IsSign ")")
    (hts : ThrowsClause ts) (hbs : Structured s.owner .block bs fs) (hlength : bs.length ≤ n)
    (line : Nat) (rest : List Token) :
    Parser.constructor nested line s (declared :: l :: (ps ++ r :: (ts ++ (bs ++ rest)))) =
      .ok ⟨(), callableFacts s .constructor declared line xs varargs false ++ fs, rest⟩ := by
  have hbody := hinside.block hbs hlength rest
  obtain ⟨t, us, rfl, ht⟩ := hbs.starts
  rw [List.cons_append] at hbody ⊢
  have hthrows := throwsClause_apply hts (by simp [ht.spells])
    (ht.endsType (by decide) (us ++ rest)) (by simp [ht.spells]) s
  rw [Parser.constructor, bind_of_ok (name_cons hdeclared.isName s _), recording_nil,
    bind_of_ok (parameters_apply hl hps hr s _)]
  refine congrArg (recording _) ((bind_of_ok (declareCallable_apply _ _ _ _ _ _ s _)).trans
    (congrArg (recording _) ((bind_of_ok hthrows).trans
      (congrArg (recording _) hbody)))) |>.trans ?_
  simp [callableFacts]

/-! ## Members behind their modifiers -/

/-- The member is told to be a field or a method: it starts with no type parameters, and no name
with parameters or a body after it. -/
structure StartsTyped (ts : List Token) : Prop where
  less : begins "<" ts = false
  name : startsWith (·.isName) ts → begins "(" ts.tail = false ∧ begins "\x7b" ts.tail = false
  keyword : typeKeyword? ts = none

/-- What is read as a type starts a typed member, unless it starts with the keyword of a type. -/
theorem ReadAsType.startsTyped (h : ReadAsType as) (hx : x.IsIdentifier)
    (hkeyword : typeKeyword? (as ++ x :: rest) = none) : StartsTyped (as ++ x :: rest) := by
  obtain ⟨t, us, rfl, ht, hus⟩ := h.head
  refine ⟨ht.spells (by decide) (by decide), fun _ => ?_, hkeyword⟩
  rcases hus with rfl | ⟨v, vs, rfl, hv⟩
  · simp [hx.spells_signs]
  · exact ⟨hv.spells (by decide), hv.spells (by decide)⟩

/-- The type of a field starts a typed member. -/
theorem MemberType.startsTyped (h : MemberType as) (hx : x.IsIdentifier) (rest : List Token) :
    StartsTyped (as ++ x :: rest) := by
  obtain ⟨has, hnames⟩ := h
  refine has.readAsType.startsTyped hx ?_
  obtain ⟨t, us, rfl, ht, -⟩ := has.head
  have hrecord : t.spells "record" = false := hnames "record" (by decide)
  simp [typeKeyword?, ht.spells (by decide : "class" ∈ _) (by decide),
    ht.spells (by decide : "interface" ∈ _) (by decide),
    ht.spells (by decide : "enum" ∈ _) (by decide),
    ht.spells (by decide : "@" ∈ _) (by decide), hrecord]

/-- The type of a result starts a typed member. -/
theorem ReturnType.startsTyped (h : ReturnType as) (hx : x.IsIdentifier) (rest : List Token) :
    StartsTyped (as ++ x :: rest) := by
  cases h with
  | void ht =>
    have hname : "void" ∈ keywords := by decide
    exact ⟨by simp [ht.spells], by simp [ht.isName, hname], by simp [typeKeyword?, ht.spells]⟩
  | value has => exact has.startsTyped hx rest

/-- The missing result of a method is read as a type. -/
theorem type_void (ht : t.IsWord "void") (hx : x.IsIdentifier) (s : Scope) (rest : List Token) :
    type s (t :: x :: rest) = .ok ⟨(), [], x :: rest⟩ := by
  have hannotations : skipAnnotations s (t :: x :: rest) = .ok ⟨(), [], t :: x :: rest⟩ :=
    skipAnnotations_done (by simp [ht.spells])
  have hprimitive : "void" ∈ primitiveTypes := by decide
  have hdimensions : dimensions s (x :: rest) = .ok ⟨(), [], x :: rest⟩ :=
    dimensions_apply_of_not_opener (by simp [hx.spells_signs]) s
  simp [type_eq, bind_apply, hannotations, ht.isPrimitive, hprimitive, hdimensions]

/-- The type of a result is read before the name of the method. -/
theorem type_returned (h : ReturnType as) (hx : x.IsIdentifier) (s : Scope) (rest : List Token) :
    type s (as ++ x :: rest) = .ok ⟨(), [], x :: rest⟩ := by
  cases h with
  | void ht => exact type_void ht hx s rest
  | value has =>
    obtain ⟨has, -⟩ := has
    exact type_before_name has.readAsType hx s rest

/-- A typed member is a field or a method. -/
theorem memberRest_typed (h : StartsTyped ts) (isStatic : Bool) (line : Nat) :
    memberRest nested isStatic line s ts = fieldOrMethod nested isStatic line s ts := by
  have hown : ∀ word, word = "(" ∨ word = "\x7b" →
      (startsWith (fun t => t.isName && t.text == s.owner) ts && begins word ts.tail) = false := by
    intro word hword
    cases ts with
    | nil => rfl
    | cons t ts =>
      have hname := h.name
      rw [startsWith_cons] at hname ⊢
      cases ht : t.isName with
      | false => simp
      | true =>
        obtain ⟨hparenthesis, hbrace⟩ := hname ht
        rcases hword with rfl | rfl
        · rw [hparenthesis, Bool.and_false]
        · rw [hbrace, Bool.and_false]
  have hrecord : ∀ test : Bool, (startsWith (fun t => t.isName && t.text == s.owner) ts && test &&
      begins "\x7b" ts.tail) = false := fun test => by
    rw [Bool.and_right_comm, hown _ (.inr rfl), Bool.false_and]
  rw [memberRest, bind_of_ok (skipOptionalTypeArguments_of_not_less h.less), recording_nil,
    bind_of_ok (scope_apply s _), recording_nil, bind_of_ok (ahead_apply s _), recording_nil,
    hown _ (.inl rfl), if_neg (by simp), hrecord, if_neg (by simp)]

/-- A name with a parenthesis behind a type is a method. -/
theorem fieldOrMethod_method (has : ReturnType as) (hdeclared : declared.IsIdentifier)
    (hl : l.IsSign "(") (isStatic : Bool) (line : Nat) (rest : List Token) :
    fieldOrMethod nested isStatic line s (as ++ declared :: l :: rest) =
      methodRest nested declared isStatic line s (l :: rest) := by
  rw [fieldOrMethod, bind_of_ok (type_returned has hdeclared s _), recording_nil,
    bind_of_ok (name_cons hdeclared.isName s _), recording_nil, bind_of_ok (sees_apply "(" s _),
    recording_nil, begins_cons, if_pos (by simp [hl.spells])]

/-- The name of the type around with a parenthesis behind it is a constructor. -/
theorem memberRest_constructor (hdeclared : declared.IsIdentifier)
    (hown : declared.text = s.owner) (hl : l.IsSign "(") (isStatic : Bool) (line : Nat)
    (rest : List Token) :
    memberRest nested isStatic line s (declared :: l :: rest) =
      Parser.constructor nested line s (declared :: l :: rest) := by
  have hless : begins "<" (declared :: l :: rest) = false := by simp [hdeclared.spells_signs]
  rw [memberRest, bind_of_ok (skipOptionalTypeArguments_of_not_less hless), recording_nil,
    bind_of_ok (scope_apply s _), recording_nil, bind_of_ok (ahead_apply s _), recording_nil,
    if_pos (by simp [hdeclared.isName, hown, hl.spells])]

/-- The name of a record with a brace behind it is a compact constructor. -/
theorem memberRest_compact (hs : s.ownerKind = some .recordType)
    (hdeclared : declared.IsIdentifier) (hown : declared.text = s.owner) (hl : l.IsSign "\x7b")
    (isStatic : Bool) (line : Nat) (rest : List Token) :
    memberRest nested isStatic line s (declared :: l :: rest) = block nested s (l :: rest) := by
  have hless : begins "<" (declared :: l :: rest) = false := by simp [hdeclared.spells_signs]
  rw [memberRest, bind_of_ok (skipOptionalTypeArguments_of_not_less hless), recording_nil,
    bind_of_ok (scope_apply s _), recording_nil, bind_of_ok (ahead_apply s _), recording_nil,
    if_neg (by simp [hl.spells]),
    if_pos (by simp [hdeclared.isName, hown, hl.spells, hs]), bind_of_ok (skip_cons s _ _),
    recording_nil]

/-- What is read after modifiers: a type, or else a member with the modifiers that were found. -/
theorem member_modified (hms : Modifiers memberModifiers ms words) (hts : StartsMember ts) :
    member nested s (ms ++ ts) = (do
      if !(← typeDeclaration nested (lineAt s (ms ++ ts))) then
        memberRest nested (words.contains "static") (lineAt s (ms ++ ts))) s ts := by
  have hsemicolon : begins ";" (ms ++ ts) = false :=
    hms.begins (by decide) (by decide) hts.semicolon
  have hbrace : begins "\x7b" (ms ++ ts) = false := hms.begins (by decide) (by decide) hts.brace
  rw [member, bind_of_ok (ahead_apply s _), recording_nil, hsemicolon, if_neg (by simp), hbrace,
    if_neg (by simp), hms.not_initializer hts, if_neg (by simp), bind_of_ok (line_apply s _),
    recording_nil, bind_of_ok (modifiers_apply hms (by decide) hts.unmodified s), recording_nil]

/-- A member that is a type is read as that behind its modifiers. -/
theorem member_type (hms : Modifiers memberModifiers ms words) (hts : StartsMember (ts ++ rest))
    (hread : typeDeclaration nested (lineAt s (ms ++ (ts ++ rest))) s (ts ++ rest) =
      .ok ⟨true, fs, rest⟩) :
    member nested s (ms ++ (ts ++ rest)) = .ok ⟨(), fs, rest⟩ := by
  rw [member_modified hms hts, bind_of_ok hread]
  simp

/-- A member that is no type is read behind its modifiers, on the line of the first of them. -/
theorem member_rest (hms : Modifiers memberModifiers ms words) (hts : StartsMember ts)
    (hkeyword : typeKeyword? ts = none) :
    member nested s (ms ++ ts) =
      memberRest nested (words.contains "static") (lineAt s (ms ++ ts)) s ts := by
  rw [member_modified hms hts, bind_of_ok (typeDeclaration_none hkeyword)]
  simp

/-! ## Enum constants -/

/-- One enum constant or comma, if the constants are not over. -/
def enumRound (nested : Construct → Parser Unit) : Parser Bool := do
  if (← sees ";") || (← sees "\x7d") then return false
  enumConstant nested
  return true

/-- The body of an enum: constants, and members behind a semicolon. -/
theorem enumBody_eq (nested : Construct → Parser Unit) : enumBody nested = (do
    expect "\x7b"
    repeatWhile (enumRound nested)
    if ← sees ";" then skip
    untilSees "\x7d" (nested .member)
    expect "\x7d") := rfl

/-- The constants of an enum end at a semicolon or at the closing brace. -/
theorem enumRound_done (ht : t.IsSign ";" ∨ t.IsSign "\x7d") (rest : List Token) :
    enumRound nested s (t :: rest) = .ok ⟨false, [], t :: rest⟩ := by
  rcases ht with ht | ht <;> simp [enumRound, bind_apply, ht.spells]

/-- Before anything else there is one more constant. -/
theorem enumRound_more (hsemicolon : begins ";" ts = false) (hbrace : begins "\x7d" ts = false)
    (hread : enumConstant nested s ts = .ok ⟨(), fs, rest⟩) :
    enumRound nested s ts = .ok ⟨true, fs, rest⟩ := by
  simp [enumRound, bind_apply, hsemicolon, hbrace, hread]

/-- A comma between constants is passed over. -/
theorem enumConstant_comma (ht : t.IsSign ",") (rest : List Token) :
    enumConstant nested s (t :: rest) = .ok ⟨(), [], rest⟩ := by
  have hannotations : skipAnnotations s (t :: rest) = .ok ⟨(), [], t :: rest⟩ :=
    skipAnnotations_done (by simp [ht.spells])
  simp [enumConstant, bind_apply, hannotations, ht.spells]

/-- Expressions with commas between them are passed over inside parentheses. -/
theorem passes_plainExpressions (h : PlainExpressions es) (hr : r.IsSign ")") (s : Scope)
    (rest : List Token) : Passes nested [] s es [] (r :: rest) := by
  induction h with
  | one hes => exact passes_plainExpression hes (by simp) (by simp [EndsOperand, hr.spells])
  | @more comma es as hes hcomma _ ih =>
    have hfirst : Passes nested [] s es [] (comma :: as ++ r :: rest) :=
      passes_plainExpression hes (by simp) (by simp [EndsOperand, hcomma.spells])
    have hsign : Passes nested [] s [comma] [] (as ++ r :: rest) := passes_comma hcomma
    exact hfirst.append (hsign.append ih)

/-- The arguments of a constant are passed over if they are there. -/
theorem constantArguments_apply (hplain : ReadsPlain nested) (has : ConstantArguments as)
    (hrest : begins "(" rest = false) (k : Unit → Parser Unit) :
    (do
      if ← sees "(" then parenthesized nested
      k () : Parser Unit) s (as ++ rest) = k () s rest := by
  cases has with
  | none => simp [bind_apply, hrest]
  | @empty l r hl hr =>
    have hread := hplain.upTo [] (.inl rfl) hr (by decide) (by decide) s rest
    rw [List.nil_append] at hread
    simp [bind_apply, hl.spells, parenthesized, expect_cons, hread, hr.spells]
  | @values l r as hl has hr =>
    have hread : nested (.expression []) s (as ++ r :: rest) = .ok ⟨(), [], r :: rest⟩ :=
      hplain (fun nested => passes_plainExpressions has hr s rest) (ends_of_isSign hr (by decide))
    simp [bind_apply, hl.spells, parenthesized, expect_cons, hread, hr.spells]

/-- A constant is recorded as a value, and then its body is read if it is there. -/
theorem enumConstant_apply (hplain : ReadsPlain nested) (hdeclared : declared.IsOrdinary)
    (has : ConstantArguments as) (hrest : begins "(" rest = false) :
    enumConstant nested s (declared :: (as ++ rest)) =
      recording [.value declared.text]
        ((do if ← sees "\x7b" then anonymousBody nested : Parser Unit) s rest) := by
  have hannotations : skipAnnotations s (declared :: (as ++ rest)) =
      .ok ⟨(), [], declared :: (as ++ rest)⟩ :=
    skipAnnotations_done (by simp [hdeclared.1.spells_signs])
  have hread := constantArguments_apply hplain has hrest (s := s) fun _ => do
    if ← sees "\x7b" then anonymousBody nested
  rw [enumConstant, bind_of_ok hannotations, recording_nil, bind_of_ok (sees_apply "," s _),
    recording_nil, begins_cons, if_neg (by simp [hdeclared.1.spells_signs]),
    bind_of_ok (name_cons hdeclared.1.isName s _), recording_nil, bind_of_ok (record_apply _ s _)]
  exact congrArg (recording _) hread

/-! ## Bodies and types -/

/-- Reads the body of the type around. -/
def bodyOf (nested : Construct → Parser Unit) (s : Scope) : Parser Unit :=
  if s.ownerKind = some .enumType then enumBody nested else classBody nested

/-- The body of a class records what its members do. -/
theorem classBody_apply (hl : l.IsSign "\x7b") (hr : r.IsSign "\x7d")
    (hms : untilSees "\x7d" (nested .member) s (ms ++ r :: rest) = .ok ⟨(), fs, r :: rest⟩) :
    classBody nested s (l :: (ms ++ r :: rest)) = .ok ⟨(), fs, rest⟩ := by
  simp [classBody, bind_apply, expect_cons, hl.spells, hms, hr.spells]

/-- The body of an enum without members records what its constants do. -/
theorem enumBody_constants (hl : l.IsSign "\x7b") (hr : r.IsSign "\x7d")
    (hcs : repeatWhile (enumRound nested) s (cs ++ r :: rest) = .ok ⟨(), fs, r :: rest⟩) :
    enumBody nested s (l :: (cs ++ r :: rest)) = .ok ⟨(), fs, rest⟩ := by
  have hmembers : untilSees "\x7d" (nested .member) s (r :: rest) = .ok ⟨(), [], r :: rest⟩ :=
    untilSees_done (by simp [hr.spells])
  simp [enumBody_eq, bind_apply, expect_cons, hl.spells, hcs, hr.spells, hmembers]

/-- The members of an enum are read behind the semicolon that ends its constants. -/
theorem enumBody_members (hl : l.IsSign "\x7b") (hsemicolon : semicolon.IsSign ";")
    (hr : r.IsSign "\x7d")
    (hcs : repeatWhile (enumRound nested) s (cs ++ semicolon :: (ms ++ r :: rest)) =
      .ok ⟨(), fs, semicolon :: (ms ++ r :: rest)⟩)
    (hms : untilSees "\x7d" (nested .member) s (ms ++ r :: rest) = .ok ⟨(), gs, r :: rest⟩) :
    enumBody nested s (l :: (cs ++ semicolon :: (ms ++ r :: rest))) =
      .ok ⟨(), fs ++ gs, rest⟩ := by
  simp [enumBody_eq, bind_apply, expect_cons, hl.spells, hcs, hsemicolon.spells, hms, hr.spells]

/-- What is read between a header's clauses and the end of the type. -/
theorem typeRest_apply {kind : DeclarationKind} (hkind : kind ≠ .recordType) (hcs : Clauses cs)
    (hl : l.IsSign "\x7b") (hs : s.ownerKind = some kind)
    (hbs : bodyOf nested s s (l :: bs) = .ok ⟨(), fs, rest⟩) :
    typeRest nested kind s (cs ++ l :: bs) = .ok ⟨(), fs, rest⟩ := by
  have hheader := untilSees_brace hcs.not_brace hl s bs
  rw [bodyOf, hs] at hbs
  rw [typeRest, if_neg (by simpa using hkind)]
  dsimp only
  rw [bind_of_ok hheader, recording_nil]
  simpa using hbs

/-- A record declares its components and then what is in its body. -/
theorem typeRest_record (hl : l.IsSign "(") (hps : ParameterList xs varargs ps)
    (hr : r.IsSign ")") (hcs : Clauses cs) (ht : t.IsSign "\x7b")
    (hs : s.ownerKind = some .recordType)
    (hbs : bodyOf nested s s (t :: bs) = .ok ⟨(), fs, rest⟩) :
    typeRest nested .recordType s (l :: (ps ++ r :: (cs ++ t :: bs))) =
      .ok ⟨(), parametersFacts s xs ++ fs, rest⟩ := by
  have hheader := untilSees_brace hcs.not_brace ht s bs
  have hparameters := discard_of_ok (parameters_apply hl hps hr s (cs ++ t :: bs))
  have harguments : skipOptionalTypeArguments s (l :: (ps ++ r :: (cs ++ t :: bs))) =
      .ok ⟨(), [], _⟩ := skipOptionalTypeArguments_of_not_less (by simp [hl.spells])
  rw [bodyOf, hs] at hbs
  rw [typeRest, if_pos (by simp), bind_of_ok harguments, recording_nil, bind_of_ok hparameters]
  dsimp only
  rw [bind_of_ok hheader, recording_nil]
  simpa using congrArg (recording (parametersFacts s xs)) hbs

/-- A type is read from the words that declare it, given how what is behind its name is read. -/
theorem typeDeclaration_apply {kind : DeclarationKind} {kws : List Token}
    (hkeyword : typeKeyword? (kws ++ declared :: ts) = some (kind, kws.length))
    (hdeclared : declared.IsIdentifier)
    (hts : typeRest nested kind (s.inside declared.text kind) ts = .ok ⟨(), fs, rest⟩)
    (line : Nat) :
    typeDeclaration nested line s (kws ++ declared :: ts) =
      .ok ⟨true, typeFact s kind declared line :: fs, rest⟩ := by
  have hfrom : typeFrom nested line (kws ++ declared :: ts) kind kws.length s
      (kws ++ declared :: ts) = .ok ⟨(), typeFact s kind declared line :: fs, rest⟩ := by
    rw [typeFrom, List.drop_left, bind_of_ok (resumeAt_apply _ s _), recording_nil,
      bind_of_ok (name_cons hdeclared.isName s _), recording_nil,
      bind_of_ok (declare_apply _ _ _ s _)]
    exact congrArg (recording _) hts
  rw [typeDeclaration_eq, bind_of_ok (ahead_apply s _), recording_nil, hkeyword]
  dsimp only
  rw [bind_of_ok hfrom]
  simp

/-! ## First tokens -/

/-- A type starts a member and is not empty. -/
theorem Declares.type_starts (h : Declares s (.type line) ts fs) (rest : List Token) :
    StartsMember (ts ++ rest) ∧ 0 < ts.length := by
  cases h with
  | type hkws =>
    rw [List.append_assoc]
    exact ⟨hkws.startsMember _, List.length_pos_iff.2 (by simp)⟩
  | record ht => exact ⟨ht.startsMember (by decide) _, by simp⟩

/-- A body starts with its brace. -/
theorem Declares.body_starts (h : Declares s .body ts fs) :
    ∃ l us, ts = l :: us ∧ l.IsSign "\x7b" := by
  cases h with
  | body _ hl => exact ⟨_, _, rfl, hl⟩
  | enumBody _ hl => exact ⟨_, _, rfl, hl⟩
  | enumMembers _ hl => exact ⟨_, _, rfl, hl⟩

/-- A constant starts with its name. -/
theorem Declares.constant_starts (h : Declares s .constant ts fs) :
    ∃ x us, ts = x :: us ∧ x.IsOrdinary := by
  cases h with
  | constant hdeclared => exact ⟨_, _, rfl, hdeclared⟩
  | constantBody hdeclared => exact ⟨_, _, rfl, hdeclared⟩

/-- No member starts with the brace that ends its type. -/
theorem Declares.member_starts (h : Declares s .member ts fs) (rest : List Token) :
    begins "\x7d" (ts ++ rest) = false ∧ 0 < ts.length := by
  -- no modifier is a brace, so what comes behind the modifiers decides
  have hmodified : ∀ {ms us : List Token} {words : List String},
      Modifiers memberModifiers ms words → StartsMember (us ++ rest) →
      begins "\x7d" (ms ++ us ++ rest) = false := fun hms hus => by
    rw [List.append_assoc]
    exact hms.begins (by decide) (by decide) hus.closer
  cases h with
  | emptyMember ht => exact ⟨by simp [ht.spells], by simp⟩
  | initializer hbs =>
    obtain ⟨l, us, rfl, hl⟩ := hbs.starts
    exact ⟨by simp [hl.spells], by simp⟩
  | staticInitializer ht => exact ⟨by simp [ht.spells], by simp⟩
  | nestedType hms hts =>
    obtain ⟨hstarts, hlength⟩ := hts.type_starts rest
    exact ⟨hmodified hms hstarts, by simp only [List.length_append]; omega⟩
  | field hms has =>
    refine ⟨hmodified hms ?_, List.length_pos_iff.2 (by simp)⟩
    rw [List.append_assoc]
    exact has.startsMember _
  | method _ hms has =>
    refine ⟨hmodified hms ?_, List.length_pos_iff.2 (by simp)⟩
    rw [List.append_assoc]
    exact has.startsMember _
  | element _ hms has =>
    refine ⟨hmodified hms ?_, List.length_pos_iff.2 (by simp)⟩
    rw [List.append_assoc]
    exact has.startsMember _
  | constructor hms hdeclared =>
    exact ⟨hmodified hms (hdeclared.startsMember _), List.length_pos_iff.2 (by simp)⟩
  | compactConstructor _ hms hdeclared =>
    exact ⟨hmodified hms (hdeclared.startsMember _), List.length_pos_iff.2 (by simp)⟩

/-- The line of a part is that of its first token, whatever comes behind it. -/
theorem lineAt_append (hlength : 0 < ts.length) (rest : List Token) :
    lineAt s (ts ++ rest) = s.lineOf ts := by
  cases ts with
  | nil => simp at hlength
  | cons t ts => rfl

/-! ## Forms of member -/

/-- The type of a field is not empty. -/
theorem MemberType.length_pos (h : MemberType as) : 0 < as.length := by
  obtain ⟨has, -⟩ := h
  obtain ⟨t, us, rfl, -⟩ := has.head
  simp

/-- The type of a result is not empty. -/
theorem ReturnType.length_pos (h : ReturnType as) : 0 < as.length := by
  cases h with
  | void => simp
  | value has => exact has.length_pos

/-- The line of a member is that of the first token of its modifiers or type. -/
theorem lineAt_modified (hlength : 0 < as.length) (rest : List Token) :
    lineAt s (ms ++ (as ++ rest)) = s.lineOf (ms ++ as) := by
  rw [← List.append_assoc]
  exact lineAt_append (by simp only [List.length_append]; omega) rest

/-- A field declares all its names, with the line and the flags of its modifiers. -/
theorem member_field (hplain : ReadsPlain nested) (hms : Modifiers memberModifiers ms words)
    (has : MemberType as) (hds : Declarators (x :: xs) ds) (hsemicolon : semicolon.IsSign ";")
    (rest : List Token) :
    member nested s (ms ++ (as ++ (ds ++ semicolon :: rest))) =
      .ok ⟨(), fieldFacts s (s.fieldsAreStatic words) (s.lineOf (ms ++ as)) x xs, rest⟩ := by
  obtain ⟨us, hus, hx⟩ := hds.head
  have htyped : StartsTyped (as ++ (ds ++ semicolon :: rest)) := hus ▸ has.startsTyped hx _
  rw [member_rest hms (has.startsMember _) htyped.keyword, memberRest_typed htyped,
    lineAt_modified has.length_pos]
  obtain ⟨htype, -⟩ := has
  exact fieldOrMethod_fields hplain htype hds hsemicolon _ _ rest

/-- A method or an element is read from its parentheses on. -/
theorem member_callable (hms : Modifiers memberModifiers ms words) (has : ReturnType as)
    (hdeclared : declared.IsIdentifier) (hl : l.IsSign "(") (rest : List Token) :
    member nested s (ms ++ (as ++ declared :: l :: rest)) =
      methodRest nested declared (words.contains "static") (s.lineOf (ms ++ as)) s (l :: rest) := by
  have htyped : StartsTyped (as ++ declared :: l :: rest) := has.startsTyped hdeclared _
  rw [member_rest hms (has.startsMember _) htyped.keyword, memberRest_typed htyped,
    lineAt_modified has.length_pos, fieldOrMethod_method has hdeclared hl]

/-- A name that is none of the words of a type starts no type declaration. -/
theorem typeKeyword?_ordinary (hdeclared : declared.IsOrdinary) (rest : List Token) :
    typeKeyword? (declared :: rest) = none := by
  simp [typeKeyword?, hdeclared.1.spells "class" (by decide),
    hdeclared.1.spells "interface" (by decide), hdeclared.1.spells "enum" (by decide),
    hdeclared.1.spells "@" (by decide), hdeclared.spells_contextual (by decide : "record" ∈ _)]

/-- A constructor is read from its name on, on the line of its modifiers. -/
theorem member_constructor (hms : Modifiers memberModifiers ms words)
    (hdeclared : declared.IsOrdinary) (hown : declared.text = s.owner) (hl : l.IsSign "(")
    (rest : List Token) :
    member nested s (ms ++ declared :: l :: rest) =
      Parser.constructor nested (s.lineOf (ms ++ [declared])) s (declared :: l :: rest) := by
  have hline : lineAt s (ms ++ declared :: l :: rest) = s.lineOf (ms ++ [declared]) :=
    lineAt_modified (by simp : 0 < [declared].length) (l :: rest)
  rw [member_rest hms (hdeclared.startsMember _) (typeKeyword?_ordinary hdeclared _),
    memberRest_constructor hdeclared.1 hown hl, hline]

/-- A compact constructor is read as its block. -/
theorem member_compact (hs : s.ownerKind = some .recordType)
    (hms : Modifiers memberModifiers ms words) (hdeclared : declared.IsOrdinary)
    (hown : declared.text = s.owner) (hl : l.IsSign "\x7b") (rest : List Token) :
    member nested s (ms ++ declared :: l :: rest) = block nested s (l :: rest) := by
  rw [member_rest hms (hdeclared.startsMember _) (typeKeyword?_ordinary hdeclared _),
    memberRest_compact hs hdeclared.1 hown hl]

/-- A block among the members is read as a block. -/
theorem member_block (hl : l.IsSign "\x7b") (rest : List Token) :
    member nested s (l :: rest) = block nested s (l :: rest) := by
  simp [member, bind_apply, hl.spells]

/-- A static block among the members is read as a block. -/
theorem member_staticBlock (ht : t.IsWord "static") (hl : l.IsSign "\x7b") (rest : List Token) :
    member nested s (t :: l :: rest) = block nested s (l :: rest) := by
  simp [member, bind_apply, ht.spells, hl.spells]

/-! ## Reading -/

/-- How a part of a type is read in a scope, whatever is written after it. -/
def ReadsPart (depth : Nat) (s : Scope) (facts : List Fact) : TypePart → List Token → Prop
  | .type line, ts => ∀ rest,
      typeDeclaration (construct depth) line s (ts ++ rest) = .ok ⟨true, facts, rest⟩
  | .body, ts => ∀ rest, bodyOf (construct depth) s s (ts ++ rest) = .ok ⟨(), facts, rest⟩
  | .constants, ts => ∀ t rest, t.IsSign ";" ∨ t.IsSign "\x7d" →
      repeatWhile (enumRound (construct depth)) s (ts ++ t :: rest) = .ok ⟨(), facts, t :: rest⟩
  | .constant, ts => ∀ t rest, t.IsSign "," ∨ t.IsSign ";" ∨ t.IsSign "\x7d" →
      enumConstant (construct depth) s (ts ++ t :: rest) = .ok ⟨(), facts, t :: rest⟩
  | .members, ts => ∀ r rest, r.IsSign "\x7d" →
      untilSees "\x7d" (member (construct depth)) s (ts ++ r :: rest) = .ok ⟨(), facts, r :: rest⟩
  | .member, ts => ∀ rest, member (construct depth) s (ts ++ rest) = .ok ⟨(), facts, rest⟩

/-- One constant is one round. -/
theorem Declares.constant_again (h : Declares s .constant cs fs)
    (hread : enumConstant nested s (cs ++ t :: rest) = .ok ⟨(), fs, t :: rest⟩) :
    repeatWhile (enumRound nested) s (cs ++ t :: rest) =
      recording fs (repeatWhile (enumRound nested) s (t :: rest)) := by
  obtain ⟨x, us, rfl, hx⟩ := h.constant_starts
  have hround : enumRound nested s (x :: us ++ t :: rest) = .ok ⟨true, fs, t :: rest⟩ :=
    enumRound_more (by simp [hx.1.spells_signs]) (by simp [hx.1.spells_signs]) hread
  refine repeatWhile_again hround ?_
  simp only [List.cons_append, List.length_cons, List.length_append]
  omega

/-- A part of a type is read as its grammar says, if as many constructs may be open as it has
tokens. -/
theorem Declares.reads {part : TypePart} (h : Declares s part ts facts) (depth : Nat)
    (hdepth : ts.length ≤ depth) : ReadsPart depth s facts part ts := by
  -- the depth is a budget: what stands in braces draws on it, and each brace is one token more;
  -- it is generalized because a part and the parts in it are read at different depths
  induction h generalizing depth with
  | @type s line kind declared kws cs bs fs hkws hdeclared hcs hbs ih =>
    simp only [List.length_append, List.length_cons] at hdepth
    intro rest
    have hbody := ih depth (by omega) rest
    obtain ⟨l, us, rfl, hl⟩ := hbs.body_starts
    -- the words of a record are not among these, so no components are looked for
    have hkind : kind ≠ .recordType := by cases hkws <;> simp
    rw [List.append_assoc, List.cons_append, List.append_assoc]
    exact typeDeclaration_apply (typeKeyword?_words hkws _) hdeclared.1
      (typeRest_apply hkind hcs hl rfl hbody) _
  | @record s line t declared l r xs ps cs bs varargs fs ht hdeclared hl hps hr hcs hbs ih =>
    simp only [List.length_append, List.length_cons] at hdepth
    intro rest
    have hbody := ih depth (by omega) rest
    obtain ⟨brace, us, rfl, hbrace⟩ := hbs.body_starts
    have hkeyword :
        typeKeyword? ([t] ++ declared :: l :: (ps ++ r :: (cs ++ brace :: (us ++ rest)))) =
          some (.recordType, [t].length) := typeKeyword?_record ht hdeclared.1 hl _
    have hread := typeDeclaration_apply hkeyword hdeclared.1
      (typeRest_record hl hps hr hcs hbrace rfl hbody) line
    simpa using hread
  -- a body: that of an enum starts with its constants, the others have members only
  | @body s l r ms fs hs hl hms hr ih =>
    simp only [List.length_cons, List.length_append, List.length_nil] at hdepth
    obtain ⟨d, rfl⟩ := Nat.exists_eq_succ_of_ne_zero (by omega : depth ≠ 0)
    intro rest
    rw [List.cons_append, List.append_assoc, bodyOf, if_neg hs]
    exact classBody_apply hl hr (ih d (by omega) r rest hr)
  | @enumBody s l r cs fs hs hl hcs hr ih =>
    simp only [List.length_cons, List.length_append, List.length_nil] at hdepth
    intro rest
    rw [List.cons_append, List.append_assoc, bodyOf, if_pos hs]
    exact enumBody_constants hl hr (ih depth (by omega) r rest (.inr hr))
  | @enumMembers s l semicolon r cs ms fs gs hs hl hcs hsemicolon hms hr ihcs ihms =>
    simp only [List.length_cons, List.length_append, List.length_nil] at hdepth
    obtain ⟨d, rfl⟩ := Nat.exists_eq_succ_of_ne_zero (by omega : depth ≠ 0)
    intro rest
    have hconstants := ihcs (d + 1) (by omega) semicolon (ms ++ r :: rest) (.inl hsemicolon)
    rw [List.cons_append, List.append_assoc, List.cons_append, List.append_assoc, bodyOf, if_pos hs]
    exact enumBody_members hl hsemicolon hr hconstants (ihms d (by omega) r rest hr)
  -- constants: behind the last of them stands a comma, a semicolon or the closing brace
  | noConstant => exact fun t rest ht => repeatWhile_done (enumRound_done ht rest)
  | lastConstant hcs ih =>
    intro t rest ht
    rw [hcs.constant_again (ih depth hdepth t rest (.inr ht)),
      repeatWhile_done (enumRound_done ht rest)]
    simp
  | @constants s comma cs ds fs gs hcs hcomma hds ihcs ihds =>
    simp only [List.length_append, List.length_cons] at hdepth
    intro t rest ht
    have hconstant := ihcs depth (by omega) comma (ds ++ t :: rest) (.inl hcomma)
    have hround : enumRound (construct depth) s (comma :: (ds ++ t :: rest)) =
        .ok ⟨true, [], ds ++ t :: rest⟩ :=
      enumRound_more (by simp [hcomma.spells]) (by simp [hcomma.spells])
        (enumConstant_comma hcomma _)
    rw [List.append_assoc, List.cons_append, hcs.constant_again hconstant,
      repeatWhile_again hround (by simp), ihds depth (by omega) t rest ht]
    simp
  | @constant s declared as hdeclared has =>
    simp only [List.length_cons] at hdepth
    obtain ⟨d, rfl⟩ := Nat.exists_eq_succ_of_ne_zero (by omega : depth ≠ 0)
    intro t rest ht
    have hparenthesis : begins "(" (t :: rest) = false := by
      rcases ht with ht | ht | ht <;> simp [ht.spells]
    have hbrace : begins "\x7b" (t :: rest) = false := by
      rcases ht with ht | ht | ht <;> simp [ht.spells]
    rw [List.cons_append, enumConstant_apply (readsPlain_construct d) hdeclared has hparenthesis,
      bind_of_ok (sees_apply "\x7b" s _), hbrace]
    rfl
  | @constantBody s declared as bs fs hdeclared has hbs ih =>
    simp only [List.length_cons, List.length_append] at hdepth
    obtain ⟨d, rfl⟩ := Nat.exists_eq_succ_of_ne_zero (by omega : depth ≠ 0)
    intro t rest ht
    have hbody := ih (d + 1) (by omega) (t :: rest)
    obtain ⟨l, us, rfl, hl⟩ := hbs.body_starts
    have hparenthesis : begins "(" (l :: us ++ t :: rest) = false := by simp [hl.spells]
    have hread : anonymousBody (construct (d + 1)) s (l :: us ++ t :: rest) = _ := hbody
    rw [List.cons_append, List.append_assoc,
      enumConstant_apply (readsPlain_construct d) hdeclared has hparenthesis,
      bind_of_ok (sees_apply "\x7b" s _), List.cons_append, begins_cons,
      if_pos (by simp [hl.spells]), ← List.cons_append, hread]
    rfl
  -- members, one round of the loop each
  | noMember => exact fun r rest hr => untilSees_done (by simp [hr.spells])
  | @members s ms ns fs gs hms hns ihms ihns =>
    simp only [List.length_append] at hdepth
    intro r rest hr
    -- the loop over members stops at a brace only: a member starts with none and takes a token
    obtain ⟨hbrace, hlength⟩ := hms.member_starts (ns ++ r :: rest)
    rw [List.append_assoc, untilSees_again hbrace (ihms depth (by omega) _)
      (by simp only [List.length_append]; omega), ihns depth (by omega) r rest hr, recording_ok]
  | emptyMember ht => exact fun rest => by simp [member, bind_apply, ht.spells]
  | @initializer s bs fs hbs =>
    intro rest
    have hread := hbs.reads rfl depth hdepth rest
    obtain ⟨l, us, rfl, hl⟩ := hbs.starts
    exact (member_block hl _).trans hread
  | @staticInitializer s t bs fs ht hbs =>
    simp only [List.length_cons] at hdepth
    intro rest
    have hread := hbs.reads rfl depth (by omega) rest
    obtain ⟨l, us, rfl, hl⟩ := hbs.starts
    exact (member_staticBlock ht hl _).trans hread
  | @nestedType s ms ts words fs hms hts ih =>
    simp only [List.length_append] at hdepth
    intro rest
    obtain ⟨hstarts, hlength⟩ := hts.type_starts rest
    rw [List.append_assoc]
    refine member_type hms hstarts ?_
    rw [lineAt_modified hlength]
    exact ih depth (by omega) rest
  | field hms has hds hsemicolon =>
    simp only [List.length_append, List.length_cons] at hdepth
    obtain ⟨d, rfl⟩ := Nat.exists_eq_succ_of_ne_zero (by omega : depth ≠ 0)
    intro rest
    rw [List.append_assoc, List.append_assoc, List.append_assoc, List.singleton_append]
    exact member_field (readsPlain_construct d) hms has hds hsemicolon rest
  -- callables: the facts of the parameters come before the declaration, those of the body behind
  | @method s declared l r ms as xs ps ts bs words varargs fs hs hms has hdeclared hl hps hr hts
      hbs =>
    simp only [List.length_append, List.length_cons] at hdepth
    obtain ⟨d, rfl⟩ := Nat.exists_eq_succ_of_ne_zero (by omega : depth ≠ 0)
    intro rest
    have hread := methodRest_apply (readsInside_construct d s) hs hl hps hr hts hbs (by omega)
      declared (words.contains "static") (s.lineOf (ms ++ as)) rest
    have hmember := (member_callable hms has hdeclared.1 hl _).trans hread
    simpa using hmember
  | @element s declared l r semicolon ms as es words hs hms has hdeclared hl hr hes hsemicolon =>
    simp only [List.length_append, List.length_cons] at hdepth
    obtain ⟨d, rfl⟩ := Nat.exists_eq_succ_of_ne_zero (by omega : depth ≠ 0)
    intro rest
    have hread := methodRest_element (readsPlain_construct d) hs hl hr hes hsemicolon declared
      (words.contains "static") (s.lineOf (ms ++ as)) rest
    have hmember := (member_callable hms (.value has) hdeclared.1 hl _).trans hread
    simpa using hmember
  | @constructor s declared l r ms xs ps ts bs words varargs fs hms hdeclared hown hl hps hr hts
      hbs =>
    simp only [List.length_append, List.length_cons] at hdepth
    obtain ⟨d, rfl⟩ := Nat.exists_eq_succ_of_ne_zero (by omega : depth ≠ 0)
    intro rest
    have hread := constructor_apply (readsInside_construct d s) hdeclared.1 hl hps hr hts hbs
      (by omega) (s.lineOf (ms ++ [declared])) rest
    have hmember := (member_constructor hms hdeclared hown hl _).trans hread
    simpa using hmember
  | @compactConstructor s declared ms bs words fs hs hms hdeclared hown hbs =>
    simp only [List.length_append, List.length_cons] at hdepth
    intro rest
    have hread := hbs.reads rfl depth (by omega) rest
    obtain ⟨l, us, rfl, hl⟩ := hbs.starts
    rw [List.append_assoc, List.cons_append]
    exact (member_compact hs hms hdeclared hown hl _).trans hread

end Assay.Source
