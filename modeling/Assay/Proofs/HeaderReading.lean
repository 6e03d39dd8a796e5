import Assay.Proofs.DeclarationGrammar
import Assay.Proofs.StatementReading

/-!
# How the headers of declarations are read

Modifiers, the words that declare types, parameter lists and clauses are read as their grammar says:
each parser stops where its part stops. What comes after modifiers tells that they are over; that no
other test of the parser applies there either is settled here for everything that starts a member.
-/

namespace Assay.Source

open Assay.Source.Parser

variable {allowed found : List String} {t u x l r : Token} {ms as cs ps ts rest : List Token}
  {xs : List Token} {kind : DeclarationKind} {varargs : Bool}

/-- A token spelled as none of the words is none of them. -/
theorem Token.spellsAny_eq_false {words : List String} (h : ∀ word ∈ words, t.spells word = false) :
    t.spellsAny words = false := by
  induction words with
  | nil => exact Token.spellsAny_nil t
  | cons word words ih =>
    rw [Token.spellsAny_cons, h word (by simp), ih fun w hw => h w (by simp [hw]), Bool.or_false]

/-! ## After modifiers -/

/-- No modifier and no annotation comes first. -/
structure Unmodified (allowed : List String) (ts : List Token) : Prop where
  word : startsWith (·.spellsAny allowed) ts = false
  nonSealed : (begins "non" ts && begins "-" ts.tail) = false
  annotations : beginsAnnotations ts = false

/-- What can come after the modifiers of a member that is no initializer. -/
structure StartsMember (ts : List Token) : Prop where
  unmodified : Unmodified memberModifiers ts
  semicolon : begins ";" ts = false
  brace : begins "\x7b" ts = false
  closer : begins "\x7d" ts = false

/-- An ordinary token is no contextual word. -/
theorem Token.IsOrdinary.spells_contextual (h : t.IsOrdinary) {word : String}
    (hword : word ∈ contextualWords) : t.spells word = false := by
  have hne : t.text ≠ word := fun heq => h.2 (heq ▸ hword)
  simp [Token.spells, hne]

/-- A modifier is a reserved word that names no type, or the name that is one in some places. -/
theorem memberModifiers_reserved : ∀ word ∈ memberModifiers,
    (word ∈ keywords ++ signs ∧ word ∉ valueTypes) ∨ word = "sealed" := by decide

/-- Where a type starts that is no `sealed` and no `non-sealed`, a member starts. -/
theorem Token.StartsType.startsMember (h : t.StartsType) (hsealed : t.spells "sealed" = false)
    (hnon : (t.spells "non" && begins "-" rest) = false) : StartsMember (t :: rest) where
  unmodified :=
    { word := Token.spellsAny_eq_false fun word hword => by
        rcases memberModifiers_reserved word hword with ⟨hreserved, hvalue⟩ | rfl
        · exact h.spells hreserved hvalue
        · exact hsealed
      nonSealed := by simp [hnon]
      annotations := by
        have hat : t.spells "@" = false := h.spells (by decide) (by decide)
        simp [beginsAnnotations, hat] }
  semicolon := h.spells (by decide) (by decide)
  brace := h.spells (by decide) (by decide)
  closer := h.spells (by decide) (by decide)

/-- An ordinary token starts a member. -/
theorem Token.IsOrdinary.startsMember (h : t.IsOrdinary) (rest : List Token) :
    StartsMember (t :: rest) :=
  Token.StartsType.startsMember (.inl h.1) (h.spells_contextual (by decide))
    (by simp [h.spells_contextual (by decide : "non" ∈ _)])

/-- A word starts a member, the modifiers and what is no member apart. -/
theorem Token.IsWord.startsMember {word : String} (h : t.IsWord word)
    (hword : word ∉ memberModifiers ++ ["non", "@", ";", "\x7b", "\x7d"]) (rest : List Token) :
    StartsMember (t :: rest) := by
  simp only [List.mem_append, List.mem_cons, List.not_mem_nil, or_false, not_or] at hword
  obtain ⟨hmodifier, hnon, hat, hsemicolon, hbrace, hcloser⟩ := hword
  exact ⟨⟨by simpa [h.spellsAny] using hmodifier, by simp [h.spells, hnon],
    by simp [beginsAnnotations, h.spells, hat]⟩, by simp [h.spells, hsemicolon],
    by simp [h.spells, hbrace], by simp [h.spells, hcloser]⟩

/-- No sign comes directly behind the first word of a type but those of the type. -/
theorem ReadAsType.startsMember (h : ReadAsType as) (hsealed : begins "sealed" as = false)
    (hrest : begins "-" rest = false) : StartsMember (as ++ rest) := by
  obtain ⟨t, us, rfl, ht, hus⟩ := h.head
  refine ht.startsMember hsealed ?_
  have hminus : begins "-" (us ++ rest) = false := by
    rcases hus with rfl | ⟨v, vs, rfl, hv⟩
    · exact hrest
    · exact hv.spells (by decide)
  rw [List.append_eq, hminus, Bool.and_false]

/-- The type of a field or a method starts a member. -/
theorem MemberType.startsMember (h : MemberType as) (rest : List Token) :
    StartsMember (as ++ rest) := by
  obtain ⟨has, hnames⟩ := h
  obtain ⟨t, us, rfl, ht, -⟩ := has.head
  have hnon : t.spells "non" = false := hnames "non" (by decide)
  exact ht.startsMember (hnames "sealed" (by decide)) (by rw [hnon, Bool.false_and])

/-- The type of a method, `void` included, starts a member. -/
theorem ReturnType.startsMember (h : ReturnType as) (rest : List Token) :
    StartsMember (as ++ rest) := by
  cases h with
  | void ht => exact ht.startsMember (by decide) _
  | value has => exact has.startsMember rest

/-- The words of a type declaration start a member. -/
theorem TypeWords.startsMember (h : TypeWords kind ts) (rest : List Token) :
    StartsMember (ts ++ rest) := by
  cases h with
  | classType ht => exact ht.startsMember (by decide) _
  | interfaceType ht => exact ht.startsMember (by decide) _
  | enumType ht => exact ht.startsMember (by decide) _
  | annotationType hat ht =>
    have hword : "@" ∉ memberModifiers := by decide
    exact ⟨⟨by simp [hat.spellsAny, hword], by simp [hat.spells],
      by simp [beginsAnnotations, hat.spells, ht.spells]⟩, by simp [hat.spells],
      by simp [hat.spells], by simp [hat.spells]⟩

/-! ## Modifiers -/

/-- A word that is no modifier does not come first if it does not come after the modifiers. -/
theorem Modifiers.begins (h : Modifiers allowed ms found) {word : String} (hword : word ∉ allowed)
    (hnon : word ≠ "non") (hrest : begins word rest = false) :
    begins word (ms ++ rest) = false := by
  cases h with
  | none => exact hrest
  | word ht hallowed =>
    have hne : _ ≠ word := fun heq => hword (heq ▸ hallowed)
    simp [ht.spells, hne]
  | nonSealed ht => simp [ht.spells, Ne.symm hnon]

/-- Modifiers that start a member start no static initializer. -/
theorem Modifiers.not_initializer (h : Modifiers memberModifiers ms found)
    (hrest : StartsMember rest) :
    (Source.begins "static" (ms ++ rest) && Source.begins "\x7b" (ms ++ rest).tail) = false := by
  cases h with
  | none =>
    have hstatic : Source.begins "static" rest = false := by
      have hword := hrest.unmodified.word
      cases rest with
      | nil => rfl
      | cons t rest =>
        rw [startsWith_cons] at hword
        simp only [memberModifiers, Token.spellsAny_cons, Bool.or_eq_false_iff] at hword
        exact hword.2.2.2.1
    simp [hstatic]
  | word _ _ hms =>
    have hbrace : Source.begins "\x7b" (_ ++ rest) = false :=
      hms.begins (by decide) (by decide) hrest.brace
    simp [hbrace]
  | nonSealed ht => simp [ht.spells]

variable {s : Scope}

/-- One modifier, if there is one. -/
def modifierRound (allowed : List String) : Parser (Option (List String)) := do
  match ← ahead with
  | [] => return none
  | t :: rest =>
    if t.spellsAny allowed then
      skip
      return some [t.text]
    else if t.spells "non" && begins "-" rest && begins "sealed" rest.tail then
      resumeAt (rest.drop 2)
      return some []
    else if beginsAnnotations (t :: rest) then
      skipAnnotations
      return some []
    else return none

/-- Modifiers are gathered round by round. -/
theorem modifiers_eq (allowed : List String) : modifiers allowed = (do
    let found ← gather (modifierRound allowed)
    return found.flatten) := rfl

/-- A round that finds no modifier ends the gathering. -/
theorem modifierRound_done (h : Unmodified allowed ts) :
    modifierRound allowed s ts = .ok ⟨none, [], ts⟩ := by
  cases ts with
  | nil => rfl
  | cons t ts =>
    obtain ⟨hword, hnon, hannotations⟩ := h
    rw [startsWith_cons] at hword
    rw [begins_cons, List.tail_cons] at hnon
    rw [modifierRound, bind_of_ok (ahead_apply s _), recording_nil]
    simp only [hword, hnon, hannotations, Bool.false_and, Bool.false_eq_true, if_false, pure_apply]

/-- Modifiers are read up to what they modify. -/
theorem gather_modifiers (h : Modifiers allowed ms found) (hnon : "non" ∉ allowed)
    (hrest : Unmodified allowed rest) :
    ∃ parts, gather (modifierRound allowed) s (ms ++ rest) = .ok ⟨parts, [], rest⟩ ∧
      parts.flatten = found := by
  induction h with
  | none => exact ⟨[], gather_done (modifierRound_done hrest), rfl⟩
  | @word t word ms found ht hword _ ih =>
    obtain ⟨parts, hread, rfl⟩ := ih
    have hround : modifierRound allowed s (t :: (ms ++ rest)) =
        .ok ⟨some [t.text], [], ms ++ rest⟩ := by
      simp [modifierRound, bind_apply, ht.spellsAny, hword]
    exact ⟨[t.text] :: parts, gather_again hround (by simp) hread, by simp [ht.2]⟩
  | @nonSealed non minus unsealed ms found hn hminus hsealed _ ih =>
    -- the first of the three tokens may also be a name, and is told by the two after it
    obtain ⟨parts, hread, rfl⟩ := ih
    have hround : modifierRound allowed s (non :: minus :: unsealed :: (ms ++ rest)) =
        .ok ⟨some [], [], ms ++ rest⟩ := by
      simp [modifierRound, bind_apply, hn.spellsAny, hnon, hn.spells, hminus.spells, hsealed.spells]
    refine ⟨[] :: parts, gather_again hround ?_ hread, by simp⟩
    simp only [List.length_cons]
    omega

/-- Modifiers are read to the first token that is none. -/
theorem modifiers_apply (h : Modifiers allowed ms found) (hnon : "non" ∉ allowed)
    (hrest : Unmodified allowed rest) (s : Scope) :
    modifiers allowed s (ms ++ rest) = .ok ⟨found, [], rest⟩ := by
  obtain ⟨parts, hread, rfl⟩ := gather_modifiers (s := s) h hnon hrest
  rw [modifiers_eq, bind_of_ok hread]
  rfl

/-! ## Types -/

/-- Nothing after a type continues it. -/
structure EndsType (rest : List Token) : Prop where
  name : EndsName rest
  bracket : begins "[" rest = false

/-- An identifier ends a type. -/
theorem Token.IsIdentifier.endsType (h : t.IsIdentifier) (rest : List Token) :
    EndsType (t :: rest) := by
  constructor <;> simp [EndsName, h.spells_signs]

/-- A sign ends a type, except the three that go on with it. -/
theorem Token.IsSign.endsType {sign : String} (h : t.IsSign sign)
    (hsign : sign ∉ ["<", ".", "["]) (rest : List Token) : EndsType (t :: rest) := by
  simp only [List.mem_cons, List.not_mem_nil, or_false, not_or] at hsign
  constructor <;> simp [EndsName, h.spells, hsign]

/-- A type is read up to what ends it. -/
theorem type_apply (has : ReadAsType as) (hrest : EndsType rest) (s : Scope) :
    type s (as ++ rest) = .ok ⟨(), [], rest⟩ := by
  rw [has.read s _ hrest.name, dimensionsRest_of_not_opener hrest.bracket]

/-- Types with commas between them are read one after the other. -/
theorem afterCommas_types {count : TypeCount} (h : WrittenType count as)
    (hcount : count = .several) (hrest : EndsType rest) (hcomma : Source.begins "," rest = false)
    (s : Scope) :
    ∃ mid, type s (as ++ rest) = .ok ⟨(), [], mid⟩ ∧ mid.length ≤ (as ++ rest).length ∧
      afterCommas type s mid = .ok ⟨(), [], rest⟩ := by
  induction h with
  | last hts => exact ⟨rest, type_apply hts.readAsType hrest s, by simp, afterCommas_done hcomma⟩
  | @more ts us comma hts hsign _ _ ih =>
    obtain ⟨mid, hnext, hle, hmore⟩ := ih rfl
    refine ⟨comma :: (us ++ rest), ?_, by simp, ?_⟩
    · rw [List.append_assoc, List.cons_append]
      exact type_apply hts.readAsType (hsign.endsType (by decide) _) s
    · rw [afterCommas_again (by simp [hsign.spells]) hnext hle, hmore]
      rfl
  | _ => cases hcount

/-- The clause of thrown types is read to its end. -/
theorem throwsClause_apply (h : ThrowsClause ts) (hthrows : Source.begins "throws" rest = false)
    (hrest : EndsType rest) (hcomma : Source.begins "," rest = false) (s : Scope) :
    throwsClause s (ts ++ rest) = .ok ⟨(), [], rest⟩ := by
  cases h with
  | none => simp [throwsClause, bind_apply, hthrows]
  | types ht has =>
    obtain ⟨mid, hfirst, -, hmore⟩ := afterCommas_types has rfl hrest hcomma s
    simp [throwsClause, bind_apply, ht.spells, hfirst, hmore]

/-! ## Headers of types -/

/-- The words that declare a type are told from all others. -/
theorem typeKeyword?_words (h : TypeWords kind ts) (rest : List Token) :
    typeKeyword? (ts ++ rest) = some (kind, ts.length) := by
  cases h with
  | classType ht => simp [typeKeyword?, ht.spells]
  | interfaceType ht => simp [typeKeyword?, ht.spells]
  | enumType ht => simp [typeKeyword?, ht.spells]
  | annotationType hat ht => simp [typeKeyword?, hat.spells, ht.spells]

/-- The word `record` before a name and a parenthesis declares a record. -/
theorem typeKeyword?_record (ht : t.IsWord "record") (hx : x.IsIdentifier) (hl : l.IsSign "(")
    (rest : List Token) : typeKeyword? (t :: x :: l :: rest) = some (.recordType, 1) := by
  simp [typeKeyword?, ht.spells, hx.isName, hl.spells]

/-- Between angles there is no brace. -/
theorem Angled.not_brace (h : Angled ts) :
    ∀ t ∈ ts, t.spells "\x7b" = false := by
  induction h with
  | nil => simp
  | token ht _ ih => simpa using ⟨ht.spells_signs.2.2.2.2.2.1, ih⟩
  | pair hl hr _ ih => simpa [hl.spells, hr.spells] using ih
  | group hless _ hgreater _ ihinside ih =>
    simp only [List.mem_cons, List.mem_append]
    rintro t (rfl | ht | rfl | ht)
    · simp [hless.spells]
    · exact ihinside t ht
    · simp [hgreater.spells]
    · exact ih t ht

/-- The clauses of a type header hold no brace. -/
theorem Clauses.not_brace (h : Clauses cs) :
    ∀ t ∈ cs, t.spells "\x7b" = false := by
  induction h with
  | none => simp
  | clause ht hword has _ ih =>
    simp only [List.mem_cons, List.mem_append]
    rintro t (rfl | hmem | hmem)
    · rcases hword with rfl | rfl <;> simp [ht.spells]
    · exact has.angled.not_brace t hmem
    · exact ih t hmem

/-- The rest of a header is passed over up to the body. -/
theorem untilSees_brace (h : ∀ t ∈ cs, t.spells "\x7b" = false) (hl : l.IsSign "\x7b") (s : Scope)
    (rest : List Token) : untilSees "\x7b" skip s (cs ++ l :: rest) = .ok ⟨(), [], l :: rest⟩ := by
  induction cs with
  | nil => exact untilSees_done (by simp [hl.spells])
  | cons t cs ih =>
    have hbrace : begins "\x7b" (t :: (cs ++ l :: rest)) = false := h t (by simp)
    rw [List.cons_append, untilSees_again hbrace (skip_cons s t _) (by simp), recording_nil,
      ih fun u hu => h u (by simp [hu])]

/-! ## Parameters -/

/-- One parameter, or the end of the list. -/
def parameterRound (counts : Nat × Bool) : Parser (Nat × Bool ⊕ Nat × Bool) := do
  let (arity, varargs) := counts
  if ← sees ")" then return .inr (arity, varargs)
  discard (modifiers localModifiers)
  type
  let ellipsis ← sees "..."
  if ellipsis then skip
  let receiver ← sees "this"
  if receiver then skip else declareValue .parameter (← name)
  dimensions
  if ← sees "," then skip
  else if !(← sees ")") then failAhead (.expectedEither "," ")")
  return .inl (if receiver then arity else arity + 1, varargs || ellipsis)

/-- Parameters are read round by round. -/
theorem parameters_eq_round : parameters = (do
    expect "("
    let counts ← iterate parameterRound (0, false)
    expect ")"
    return counts) := rfl

/-- No modifier comes before a type. -/
theorem ReadAsType.unmodified (h : ReadAsType as) (hrest : begins "-" rest = false) :
    Unmodified localModifiers (as ++ rest) := by
  obtain ⟨t, us, rfl, ht, hus⟩ := h.head
  have hminus : begins "-" (us ++ rest) = false := by
    rcases hus with rfl | ⟨v, vs, rfl, hv⟩
    · exact hrest
    · exact hv.spells (by decide)
  have hat : t.spells "@" = false := ht.spells (by decide) (by decide)
  exact ⟨ht.not_modifier, by simp [hminus], by simp [beginsAnnotations, hat]⟩

/-- What may follow a parameter, and what is left behind it: a comma is read and a parenthesis is
not. -/
inductive AfterParameter : List Token → List Token → Prop
  | comma {t : Token} {rest : List Token} (ht : t.IsSign ",") : AfterParameter (t :: rest) rest
  | closed {t : Token} {rest : List Token} (ht : t.IsSign ")") :
      AfterParameter (t :: rest) (t :: rest)

/-- What follows a parameter is no bracket. -/
theorem AfterParameter.bracket (h : AfterParameter ts rest) : begins "[" ts = false := by
  cases h with
  | comma ht => simp [ht.spells]
  | closed ht => simp [ht.spells]

/-- A written type begins with no reserved word but a primitive type. -/
theorem WrittenType.begins (h : WrittenType .one as) {word : String}
    (hword : word ∈ keywords ++ signs) (hvalue : word ∉ valueTypes) (rest : List Token) :
    begins word (as ++ rest) = false := by
  obtain ⟨t, us, rfl, ht, -⟩ := h.head
  exact ht.spells hword hvalue

/-- One parameter is one round, which counts it and declares its name. -/
theorem parameterRound_apply (h : Parameter x varargs ps) (hrest : AfterParameter ts rest)
    (arity : Nat) (any : Bool) (s : Scope) :
    parameterRound (arity, any) s (ps ++ ts) =
      .ok ⟨.inl (arity + 1, any || varargs), declaredValue .parameter s.owner x, rest⟩ := by
  -- behind a parameter stands a comma or a parenthesis, and no bracket
  have hdimensions : dimensions s ts = .ok ⟨(), [], ts⟩ :=
    dimensions_apply_of_not_opener hrest.bracket s
  cases h with
  -- a parameter of one value, and one of several with its ellipsis
  | @single ms as found hms has hx =>
    have hclose : Source.begins ")" (ms ++ (as ++ x :: ts)) = false :=
      hms.begins (by decide) (by decide) (has.begins (by decide) (by decide) _)
    have hminus : Source.begins "-" (x :: ts) = false := by simp [hx.spells_signs]
    have hmodifiers := discard_of_ok (modifiers_apply hms (by decide)
      (has.readAsType.unmodified hminus) s)
    have htype := type_apply has.readAsType (hx.endsType ts) s
    rw [List.append_assoc, List.append_assoc, List.singleton_append]
    cases hrest with
    | comma ht =>
      simp [parameterRound, bind_apply, hclose, hmodifiers, htype, hx.spells_signs, hx.spells_words,
        name_cons hx.isName, hdimensions, ht.spells]
    | closed ht =>
      simp [parameterRound, bind_apply, hclose, hmodifiers, htype, hx.spells_signs, hx.spells_words,
        name_cons hx.isName, hdimensions, ht.spells]
  | @several ms as found ellipsis hms has hellipsis hx =>
    have hclose : Source.begins ")" (ms ++ (as ++ ellipsis :: x :: ts)) = false :=
      hms.begins (by decide) (by decide) (has.begins (by decide) (by decide) _)
    have hminus : Source.begins "-" (ellipsis :: x :: ts) = false := by simp [hellipsis.spells]
    have hmodifiers := discard_of_ok (modifiers_apply hms (by decide)
      (has.readAsType.unmodified hminus) s)
    have htype := type_apply has.readAsType (hellipsis.endsType (by decide) (x :: ts)) s
    rw [List.append_assoc, List.append_assoc, List.cons_append, List.singleton_append]
    cases hrest with
    | comma ht =>
      simp [parameterRound, bind_apply, hclose, hmodifiers, htype, hellipsis.spells,
        hx.spells_words, name_cons hx.isName, hdimensions, ht.spells]
    | closed ht =>
      simp [parameterRound, bind_apply, hclose, hmodifiers, htype, hellipsis.spells,
        hx.spells_words, name_cons hx.isName, hdimensions, ht.spells]

/-- A parameter takes a token at least. -/
theorem Parameter.length_pos (h : Parameter x varargs ps) : 0 < ps.length := by
  cases h <;> exact List.length_pos_iff.2 (by simp)

/-- Parameters are counted and declared in order. -/
theorem iterate_parameterRound (h : ParameterList xs varargs ps) (hr : r.IsSign ")") (s : Scope)
    (arity : Nat) (any : Bool) (rest : List Token) :
    iterate parameterRound (arity, any) s (ps ++ r :: rest) =
      .ok ⟨(arity + xs.length, any || varargs), parametersFacts s xs, r :: rest⟩ := by
  have hdone : ∀ counts, iterate parameterRound counts s (r :: rest) =
      .ok ⟨counts, [], r :: rest⟩ := fun counts =>
    iterate_done (by simp [parameterRound, bind_apply, hr.spells])
  induction h generalizing arity any with
  | none => simpa [parametersFacts] using hdone (arity, any)
  | one hps =>
    have hlength := hps.length_pos
    rw [iterate_again (parameterRound_apply hps (.closed hr) arity any s) (by simp; omega), hdone]
    simp [parametersFacts]
  | more hps hcomma _ ih =>
    rw [List.append_assoc, List.cons_append,
      iterate_again (parameterRound_apply hps (.comma hcomma) arity any s) (by simp; omega), ih]
    simp [parametersFacts, Nat.add_assoc, Nat.add_comm 1, Bool.or_assoc]

/-- A parameter list is read with its parentheses. -/
theorem parameters_apply (hl : l.IsSign "(") (h : ParameterList xs varargs ps) (hr : r.IsSign ")")
    (s : Scope) (rest : List Token) :
    parameters s (l :: (ps ++ r :: rest)) =
      .ok ⟨(xs.length, varargs), parametersFacts s xs, rest⟩ := by
  rw [parameters_eq_round, bind_of_ok (expect_cons (by simp [hl.spells]) s _), recording_nil,
    bind_of_ok (iterate_parameterRound h hr s 0 false rest)]
  simp [bind_apply, expect_cons, hr.spells]

end Assay.Source
