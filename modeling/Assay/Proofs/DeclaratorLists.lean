import Assay.Proofs.ArgumentCount
import Assay.Proofs.DeclarationReading
import Assay.Proofs.ExpressionForms

/-!
# Variables declared together

Variables of one type are declared with a comma between each and the next, and commas stand in their
initial values too. `VariableList` is the grammar of such lists; the values are expressions of any
form, in which a comma stands in brackets or in type arguments that are part of a creation, a cast, a
call or a test. The main statement is `declarator_lists`: the list is read as the grammar divides it,
by the parsers of fields and of local variables alike, and the number of arguments that the values
are counted as is that of the variables.
-/

namespace Assay.Source

open Assay.Source.Parser

variable {depth : Nat} {s : Scope} {t x y equals comma semicolon : Token}
  {as ds es ms rest following : List Token} {v : Variable} {vs : List Variable}
  {words : List String} {facts : List Fact}

/-! ## Grammar -/

/-- A variable that is declared with an initial value, and what the value records. -/
structure Variable where
  name : Token
  value : List Token
  facts : List Fact

/-- The tokens are an initial value, with the given tokens behind it. -/
inductive InitialValue (depth : Nat) (s : Scope) (following : List Token) :
    List Token → List Fact → Prop
  | expression {es : List Token} {facts : List Fact}
      (hes : ExpressionForm (construct depth) [",", ";"] s following es facts) :
      InitialValue depth s following es facts
  | array {es : List Token} {facts : List Fact}
      (hes : Braced (construct (depth + 1) .arrayInitializer) s es facts) :
      InitialValue depth s following es facts

/-- The tokens are variables with their initial values, separated by commas, with the given tokens
behind them. -/
inductive VariableList (depth : Nat) (s : Scope) (following : List Token) :
    List Variable → List Token → Prop
  | one {x equals : Token} {es : List Token} {facts : List Fact} (hx : x.IsIdentifier)
      (hequals : equals.IsSign "=") (hes : InitialValue depth s following es facts) :
      VariableList depth s following [⟨x, es, facts⟩] (x :: equals :: es)
  | more {x equals comma : Token} {es ds : List Token} {facts : List Fact} {vs : List Variable}
      (hx : x.IsIdentifier) (hequals : equals.IsSign "=")
      (hes : InitialValue depth s (comma :: (ds ++ following)) es facts)
      (hcomma : comma.IsSign ",") (hds : VariableList depth s following vs ds) :
      VariableList depth s following (⟨x, es, facts⟩ :: vs) (x :: equals :: (es ++ comma :: ds))

/-- The facts of a local variable: its declaration and what its value records. -/
def Variable.localFacts (owner : String) (v : Variable) : List Fact :=
  declaredValue .variableDeclarator owner v.name ++ v.facts

/-- The facts of a field, its declaration apart. -/
def Variable.fieldFacts (isStatic : Bool) (v : Variable) : List Fact :=
  fieldFact isStatic v.name ++ v.facts

/-! ## Reading -/

theorem VariableList.head (h : VariableList depth s following (v :: vs) ds) :
    ∃ equals us, ds = v.name :: equals :: us ∧ v.name.IsIdentifier ∧ equals.IsSign "=" := by
  cases h with
  | one hx hequals => exact ⟨_, _, rfl, hx, hequals⟩
  | more hx hequals => exact ⟨_, _, rfl, hx, hequals⟩

namespace Parser

/-- An initial value is read up to the comma or semicolon behind it. -/
theorem initializer_of_value (hequals : equals.IsSign "=") (ht : t.IsSignOf [",", ";"])
    (hes : InitialValue depth s (t :: rest) es facts) :
    initializer (construct (depth + 1)) s (equals :: (es ++ t :: rest)) =
      .ok ⟨(), facts, t :: rest⟩ := by
  have hdimensions : dimensions s (equals :: (es ++ t :: rest)) = _ :=
    dimensions_apply_of_not_opener (by simp [hequals.spells]) s
  cases hes with
  | expression hes =>
    have hends : Ends [",", ";"] t := by
      simp [Ends, Token.isOperator, ht.1, ht.2]
    have hbrace := hes.not_brace (ht.spells (by decide))
    have hread : construct (depth + 1) (.expression [",", ";"]) s (es ++ t :: rest) = _ :=
      (hes.passes (by decide) hends).expression hends
    simp [initializer, bind_apply, hdimensions, hequals.spells, hbrace, hread]
  | array hes =>
    have hread := hes.apply (t :: rest)
    simp [initializer, bind_apply, hdimensions, hequals.spells, begins_of_head hes.head, hread]

/-- A parser that reads one variable reads the first of a list, and the others behind commas. -/
theorem afterCommas_variables {p : Parser Unit} {itemFacts : Variable → List Fact}
    (hp : ∀ {x equals t : Token} {es rest : List Token} {facts : List Fact}, x.IsIdentifier →
      equals.IsSign "=" → t.IsSignOf [",", ";"] → InitialValue depth s (t :: rest) es facts →
        p s (x :: equals :: (es ++ t :: rest)) = .ok ⟨(), itemFacts ⟨x, es, facts⟩, t :: rest⟩)
    (h : VariableList depth s (semicolon :: rest) (v :: vs) ds) (hsemicolon : semicolon.IsSign ";") :
    ∃ mid, p s (ds ++ semicolon :: rest) = .ok ⟨(), itemFacts v, mid⟩ ∧
      mid.length ≤ (ds ++ semicolon :: rest).length ∧
      afterCommas p s mid = .ok ⟨(), vs.flatMap itemFacts, semicolon :: rest⟩ := by
  generalize hvs : v :: vs = ws at h
  induction h generalizing v vs with
  | one hx hequals hes =>
    cases hvs
    refine ⟨_, hp hx hequals (hsemicolon.isSignOf (by decide)) hes, by simp; omega, ?_⟩
    exact afterCommas_done (by simp [hsemicolon.spells])
  | @more x equals comma es ds facts ws hx hequals hes hcomma hds ih =>
    cases hvs
    obtain ⟨w, ws, rfl⟩ : ∃ w ws', ws = w :: ws' := by
      cases hds with
      | one => exact ⟨_, _, rfl⟩
      | more => exact ⟨_, _, rfl⟩
    obtain ⟨mid, hnext, hle, hmore⟩ := ih rfl
    have hfirst := hp hx hequals (hcomma.isSignOf (by decide)) hes
    rw [List.cons_append, List.cons_append, List.append_assoc, List.cons_append]
    refine ⟨_, hfirst, by simp; omega, ?_⟩
    rw [afterCommas_again (by simp [hcomma.spells]) hnext hle, hmore]
    simp

theorem localVariable_of_value (hx : x.IsIdentifier) (hequals : equals.IsSign "=")
    (ht : t.IsSignOf [",", ";"]) (hes : InitialValue depth s (t :: rest) es facts) :
    localVariable (construct (depth + 1)) s (x :: equals :: (es ++ t :: rest)) =
      .ok ⟨(), Variable.localFacts s.owner ⟨x, es, facts⟩, t :: rest⟩ := by
  have hread := initializer_of_value hequals ht hes
  simp [localVariable, bind_apply, name_cons hx.isName, hread, Variable.localFacts]

/-- Local variables are read up to their semicolon. -/
theorem localDeclaration_variables (has : ReadAsType as)
    (hds : VariableList depth s (semicolon :: rest) (v :: vs) ds)
    (hsemicolon : semicolon.IsSign ";") :
    localDeclaration (construct (depth + 1)) s (as ++ (ds ++ semicolon :: rest)) =
      .ok ⟨(), (v :: vs).flatMap (·.localFacts s.owner), semicolon :: rest⟩ := by
  obtain ⟨mid, hfirst, -, hmore⟩ := afterCommas_variables localVariable_of_value hds hsemicolon
  obtain ⟨equals, us, rfl, hx, -⟩ := hds.head
  have htype : type s (as ++ (v.name :: equals :: us ++ semicolon :: rest)) = _ :=
    type_before_name has hx s (equals :: (us ++ semicolon :: rest))
  rw [localDeclaration, bind_of_ok htype, recording_nil]
  exact (bind_of_ok hfirst).trans (by rw [hmore, recording_ok, List.flatMap_cons])

theorem statement_variableList (has : ReadAsType as) (hyield : begins "yield" as = false)
    (hds : VariableList depth s (semicolon :: rest) (v :: vs) ds)
    (hsemicolon : semicolon.IsSign ";") :
    statement (construct (depth + 1)) s (as ++ (ds ++ semicolon :: rest)) =
      .ok ⟨(), (v :: vs).flatMap (·.localFacts s.owner), rest⟩ := by
  have hread := localDeclaration_variables has hds hsemicolon
  obtain ⟨equals, us, rfl, hx, hequals⟩ := hds.head
  exact statement_variables has hyield hx (hequals.isSignOf (by decide)) hread hsemicolon

theorem field_of_value (isStatic : Bool) (hx : x.IsIdentifier) (hequals : equals.IsSign "=")
    (ht : t.IsSignOf [",", ";"]) (hes : InitialValue depth s (t :: rest) es facts) :
    (do fieldRest (construct (depth + 1)) isStatic (← name) : Parser Unit) s
        (x :: equals :: (es ++ t :: rest)) =
      .ok ⟨(), Variable.fieldFacts isStatic ⟨x, es, facts⟩, t :: rest⟩ := by
  have hread := initializer_of_value hequals ht hes
  simp [bind_apply, name_cons hx.isName, fieldRest, hread, Variable.fieldFacts, fieldFact]

/-- A member that has a type and the name of a variable behind its modifiers is read from the type
on. -/
theorem member_typed (hms : Modifiers memberModifiers ms words) (has : ReadAsType as)
    (hsealed : begins "sealed" as = false) (hx : x.IsIdentifier) (hequals : equals.IsSign "=")
    (us : List Token) :
    member (construct (depth + 1)) s (ms ++ (as ++ x :: equals :: us)) =
      fieldOrMethod (construct (depth + 1)) (words.contains "static") (s.lineOf (ms ++ as)) s
        (as ++ x :: equals :: us) := by
  have hkeyword := typeKeyword?_variable has (hequals.isSignOf (by decide)) x us
  have hlength : 0 < as.length := by
    obtain ⟨t, us, rfl, -⟩ := has.head
    simp
  rw [member_rest hms (has.startsMember hsealed (by simp [hx.spells_signs])) hkeyword,
    memberRest_typed (has.startsTyped hx hkeyword), lineAt_modified hlength]

/-- Fields are read up to their semicolon, behind their modifiers. -/
theorem member_variableList (hms : Modifiers memberModifiers ms words) (has : ReadAsType as)
    (hsealed : begins "sealed" as = false)
    (hds : VariableList depth s (semicolon :: rest) (v :: vs) ds)
    (hsemicolon : semicolon.IsSign ";") :
    member (construct (depth + 1)) s (ms ++ (as ++ (ds ++ semicolon :: rest))) =
      .ok ⟨(), .declaration ⟨if s.fieldsAreStatic words then .staticField else .instanceField,
        v.name.text, s.lineOf (ms ++ as), s.owner, 0, false, false⟩ ::
          (v :: vs).flatMap (·.fieldFacts (s.fieldsAreStatic words)), rest⟩ := by
  obtain ⟨mid, hfirst, -, hmore⟩ := afterCommas_variables
    (field_of_value (s.fieldsAreStatic words)) hds hsemicolon
  obtain ⟨equals, us, rfl, hx, hequals⟩ := hds.head
  rw [List.cons_append, List.cons_append] at hfirst ⊢
  rw [bind_of_ok (name_cons hx.isName s _), recording_nil] at hfirst
  rw [member_typed hms has hsealed hx hequals]
  exact fieldOrMethod_field has hx (by simp [hequals.spells]) rfl hfirst hmore hsemicolon

/-- A comma that a value does not enclose ends the value, and the name behind it is taken for that of
another field, whatever comes then. -/
theorem member_unenclosed (hms : Modifiers memberModifiers ms words) (has : ReadAsType as)
    (hsealed : begins "sealed" as = false) (hx : x.IsIdentifier) (hequals : equals.IsSign "=")
    (hes : InitialValue depth s (comma :: y :: t :: rest) es facts) (hcomma : comma.IsSign ",")
    (hy : y.IsIdentifier) (ht : ∀ word ∈ ["[", "=", ",", ";"], t.spells word = false) :
    member (construct (depth + 1)) s
        (ms ++ (as ++ x :: equals :: (es ++ comma :: y :: t :: rest))) =
      .error ⟨.expected ";" t.text, t.line⟩ := by
  have hvalue := initializer_of_value hequals (hcomma.isSignOf (by decide)) hes
  have hfirst : fieldRest (construct (depth + 1)) (s.fieldsAreStatic words) x s
      (equals :: (es ++ comma :: y :: t :: rest)) =
        .ok ⟨(), fieldFact (s.fieldsAreStatic words) x ++ facts, comma :: y :: t :: rest⟩ := by
    simp [fieldRest, bind_apply, hvalue, fieldFact]
  have hdimensions : dimensions s (t :: rest) = _ :=
    dimensions_apply_of_not_opener ((begins_cons _ _ _).trans (ht "[" (by decide))) s
  have hnone : initializer (construct (depth + 1)) s (t :: rest) = .ok ⟨(), [], t :: rest⟩ := by
    simp [initializer, bind_apply, hdimensions, ht "=" (by decide)]
  have hsecond : (do fieldRest (construct (depth + 1)) (s.fieldsAreStatic words) (← name) :
      Parser Unit) s (y :: t :: rest) =
        .ok ⟨(), fieldFact (s.fieldsAreStatic words) y, t :: rest⟩ := by
    simp [bind_apply, name_cons hy.isName, fieldRest, hnone, fieldFact]
  have hmore := afterCommas_again (t := comma) (by simp [hcomma.spells]) hsecond (by simp)
  rw [afterCommas_done ((begins_cons _ _ _).trans (ht "," (by decide)))] at hmore
  rw [member_typed hms has hsealed hx hequals,
    fieldOrMethod_upTo has hx (by simp [hequals.spells]) rfl hfirst hmore]
  simp [expect, bind_apply, ht ";" (by decide), failAhead]

/-- Variables of one type are read as they are written, as fields behind their modifiers and as local
variables: each records its declaration and what its value records. Where the values are arguments of
a call, as many arguments are counted as there are variables. -/
theorem declarator_lists (has : TypeForm .type as)
    (hds : VariableList depth s (semicolon :: rest) (v :: vs) ds)
    (hsemicolon : semicolon.IsSign ";") :
    (begins "yield" as = false →
      statement (construct (depth + 1)) s (as ++ (ds ++ semicolon :: rest)) =
        .ok ⟨(), (v :: vs).flatMap (·.localFacts s.owner), rest⟩) ∧
    (begins "sealed" as = false → ∀ ms words, Modifiers memberModifiers ms words →
      member (construct (depth + 1)) s (ms ++ (as ++ (ds ++ semicolon :: rest))) =
        .ok ⟨(), .declaration ⟨if s.fieldsAreStatic words then .staticField else .instanceField,
          v.name.text, s.lineOf (ms ++ as), s.owner, 0, false, false⟩ ::
            (v :: vs).flatMap (·.fieldFacts (s.fieldsAreStatic words)), rest⟩) ∧
    ∀ l comma r others, l.IsSign "(" → r.IsSign ")" →
      Arguments .toldApart (v :: vs).length ([comma].intercalate ((v :: vs).map (·.value))) →
        let arguments := l :: ([comma].intercalate ((v :: vs).map (·.value)) ++ r :: others)
        argumentsAhead s arguments = .ok ⟨(v :: vs).length, [], arguments⟩ := by
  refine ⟨fun hyield => statement_variableList has.readAsType hyield hds hsemicolon,
    fun hsealed ms words hms => member_variableList hms has.readAsType hsealed hds hsemicolon,
    fun l comma r others hl hr hvalues => ?_⟩
  intro arguments
  rw [argumentsAhead_apply hl hr hvalues.bracketed, hvalues.argumentCount]

/-- The declaration `Map<K, V> m = new HashMap<K, V>(), n = (Map<K, V>) x;` declares two variables, as
that of fields and as that of local variables, and its values count as two arguments. -/
theorem declarator_lists_two :
    let s : Scope := ⟨none, 1⟩
    let ofTypes : List Token := [.sign "<" 1, .word "K" 1, .sign "," 1, .word "V" 1, .sign ">" 1]
    let type : List Token := .word "Map" 1 :: ofTypes
    let created : List Token :=
      .word "new" 1 :: .word "HashMap" 1 :: (ofTypes ++ [.sign "(" 1, .sign ")" 1])
    let cast : List Token := .sign "(" 1 :: (type ++ [.sign ")" 1, .word "x" 1])
    let declared : List Token := .word "m" 1 :: .sign "=" 1 :: (created ++ .sign "," 1 ::
      .word "n" 1 :: .sign "=" 1 :: cast)
    statement (construct 2) s (type ++ (declared ++ [.sign ";" 1])) =
        .ok ⟨(), declaredValue .variableDeclarator "" (.word "m" 1) ++
          declaredValue .variableDeclarator "" (.word "n" 1), []⟩ ∧
      member (construct 2) s (type ++ (declared ++ [.sign ";" 1])) =
        .ok ⟨(), .declaration ⟨.instanceField, "m", 1, "", 0, false, false⟩ ::
          (fieldFact false (.word "m" 1) ++ fieldFact false (.word "n" 1)), []⟩ ∧
      argumentsAhead s (.sign "(" 1 :: (created ++ .sign "," 1 :: (cast ++ [.sign ")" 1]))) =
        .ok ⟨2, [], .sign "(" 1 :: (created ++ .sign "," 1 :: (cast ++ [.sign ")" 1]))⟩ := by
  intro s ofTypes type created cast declared
  have hcomma : (Token.sign "," 1).IsSign "," := ⟨rfl, rfl⟩
  have hsemicolon : (Token.sign ";" 1).IsSign ";" := ⟨rfl, rfl⟩
  let arguments : List Token := [.word "K" 1, .sign "," 1, .word "V" 1]
  have harguments : AngleBody arguments :=
    .token (.inl (by decide)) (.token (.inr (by decide)) (.token (.inl (by decide)) .nil))
  have htype : TypeForm .type type :=
    .named (by decide) (.last (.list ⟨rfl, rfl⟩
      (.cons (.argument (.named (by decide) (.last .none))) ⟨rfl, rfl⟩
        (.one (.argument (.named (by decide) (.last .none))))) ⟨rfl, rfl⟩))
  have hgroup : CallGroup (construct 1) s [.sign "(" 1, .sign ")" 1] 0 [] :=
    .mk ⟨rfl, rfl⟩ .nil (ExpressionForm.inside fun _ _ _ => .done) ⟨rfl, rfl⟩
  -- the values: a creation with type arguments, and a cast to a type that has some
  have hcreated : ∀ {rest}, begins "\x7b" rest = false →
      ExpressionForm (construct 1) [",", ";"] s rest created [] := fun hrest => by
    have hname : CreatedName (.word "HashMap" 1 :: ofTypes) :=
      .named .none (by decide) (.last (.list ⟨rfl, rfl⟩ harguments ⟨rfl, rfl⟩))
    have htail : CreatedTail (construct 1) s ([] ++ _) _ _ := .object hgroup hrest
    exact .part (.creation ⟨rfl, rfl⟩ hname htail) .done
  have hcast : ExpressionForm (construct 1) [",", ";"] s [.sign ";" 1] cast [] :=
    .cast ⟨rfl, rfl⟩ (.one htype) ⟨rfl, rfl⟩ rfl (by decide)
      (.part (.chain (by decide) .nil rfl (.inl rfl) rfl) .done)
  have hdeclared : VariableList 1 s [.sign ";" 1]
      [⟨.word "m" 1, created, []⟩, ⟨.word "n" 1, cast, []⟩] declared :=
    .more (by decide) ⟨rfl, rfl⟩ (.expression (hcreated rfl)) hcomma
      (.one (by decide) ⟨rfl, rfl⟩ (.expression hcast))
  -- the same values as arguments: the angles of each are told apart from comparisons
  have hnew : ∀ {following}, Argument .toldApart following (.word "new" 1 :: ([.word "HashMap" 1] ++
      .sign "<" 1 :: (arguments ++ [.sign ">" 1, .sign "(" 1, .sign ")" 1]))) :=
    .creation ⟨rfl, rfl⟩ (.one (by decide)) ⟨rfl, rfl⟩ harguments ⟨rfl, rfl⟩ ⟨rfl, rfl⟩
      (.group rfl .nil ⟨rfl, rfl⟩ .done)
  have hgrouped : Argument .toldApart [] cast :=
    .group rfl htype.angleBody.bracketed ⟨rfl, rfl⟩
      (.token (by decide) (by decide) (by decide) (by decide) .done)
  have hvalues : Arguments .toldApart 2 (created ++ .sign "," 1 :: cast) :=
    .more (by decide) hnew hcomma (.one (by decide) hgrouped (by decide))
  obtain ⟨hlocal, hfields, hcount⟩ := declarator_lists htype hdeclared hsemicolon
  exact ⟨hlocal (by decide), hfields (by decide) [] [] .none,
    hcount _ (.sign "," 1) _ [] ⟨rfl, rfl⟩ ⟨rfl, rfl⟩ hvalues⟩

/-- Type arguments before two colons are not read as part of the value:
`Supplier<Map<K, V>> s = HashMap<K, V>::new;` is refused. -/
theorem reference_value_refused :
    ¬ ∀ (s : Scope) (x equals less greater colons new semicolon : Token)
      (as ns bs rest : List Token), TypeForm .type as → x.IsIdentifier → equals.IsSign "=" →
      DottedName ns → less.IsSign "<" → TypeForm .arguments bs → greater.IsSign ">" →
      colons.IsSign "::" → new.IsWord "new" → semicolon.IsSign ";" →
        ∃ depth facts, member (construct (depth + 1)) s (as ++ x :: equals ::
          (ns ++ less :: (bs ++ greater :: colons :: new :: semicolon :: rest))) =
            .ok ⟨(), facts, rest⟩ := by
  intro h
  let s : Scope := ⟨none, 1⟩
  let arguments : List Token := [.word "K" 1, .sign "," 1, .word "V" 1]
  let map : List Token := .word "Map" 1 :: .sign "<" 1 :: (arguments ++ [.sign ">" 1])
  let type : List Token := .word "Supplier" 1 :: .sign "<" 1 :: (map ++ [.sign ">" 1])
  let before : List Token := [.word "HashMap" 1, .sign "<" 1, .word "K" 1]
  let behind : List Token := [.sign "::" 1, .word "new" 1, .sign ";" 1]
  have harguments : TypeForm .arguments arguments :=
    .cons (.argument (.named (by decide) (.last .none))) ⟨rfl, rfl⟩
      (.one (.argument (.named (by decide) (.last .none))))
  have hmap : TypeForm .type map :=
    .named (by decide) (.last (.list ⟨rfl, rfl⟩ harguments ⟨rfl, rfl⟩))
  have htype : TypeForm .type type :=
    .named (by decide) (.last (.list ⟨rfl, rfl⟩ (.one (.argument hmap)) ⟨rfl, rfl⟩))
  obtain ⟨depth, facts, hread⟩ := h s (.word "s" 1) (.sign "=" 1) (.sign "<" 1) (.sign ">" 1)
    (.sign "::" 1) (.word "new" 1) (.sign ";" 1) type [.word "HashMap" 1] arguments [] htype
    (by decide) ⟨rfl, rfl⟩ (.one (by decide)) ⟨rfl, rfl⟩ harguments ⟨rfl, rfl⟩ ⟨rfl, rfl⟩ ⟨rfl, rfl⟩
    ⟨rfl, rfl⟩
  -- the value ends at the comma, and the name behind it is taken for that of a field
  have hvalue : InitialValue depth s (.sign "," 1 :: .word "V" 1 :: .sign ">" 1 :: behind) before
      [] :=
    .expression (.part (.chain (by decide) .nil rfl (.inl rfl) rfl)
      (.part (.token rfl (by decide) (by decide))
        (.part (.chain (by decide) .nil rfl (.inl rfl) rfl) .done)))
  have hrefused : member (construct (depth + 1)) s ([] ++ (type ++ .word "s" 1 :: .sign "=" 1 ::
      (before ++ .sign "," 1 :: .word "V" 1 :: .sign ">" 1 :: behind))) = _ :=
    member_unenclosed .none htype.readAsType (by decide) (by decide) ⟨rfl, rfl⟩ hvalue ⟨rfl, rfl⟩
      (by decide) (by decide)
  exact absurd (hread.symm.trans hrefused) nofun

end Parser

end Assay.Source
