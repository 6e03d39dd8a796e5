import Assay.Proofs.HeaderBarriers

/-!
# Members and their headers

What a member that declares something does with the line it starts on, and where its parameter list
opens. Main statements: nothing but the line of one declaration depends on that line
(`Dated.declaredMember`), a member with a header is read by the header and by what comes behind it
(`OpensParameters.read`), and a member without one declares a field or a type that is no record, or it
is a compact constructor (`declaredMember_eq_ok`).
-/

namespace Assay.Source

open Assay.Source.Parser

variable {α β : Type} {ts us x : List Token} {s : Scope} {nested : Construct → Parser Unit}
  {line : Nat} {b : Token}

/-! ## Headers -/

/-- What a header with a parameter list declares. -/
inductive Header
  | method (isStatic : Bool) (declared : Token)
  | constructor (declared : Token)
  | record (declared : Token)

/-- The parameters of a record belong to the record. -/
def Header.scope (s : Scope) : Header → Scope
  | .method _ _ | .constructor _ => s
  | .record declared => { s with enclosing := some ⟨declared.text, .recordType⟩ }

/-- Reads a member from its parameter list on. -/
def Header.readRest (nested : Construct → Parser Unit) (line : Nat) : Header → Parser Unit
  | .method isStatic declared => methodRest nested declared isStatic line
  | .constructor declared => do
    let (arity, varargs) ← parameters
    declareCallable .constructor declared.text line arity varargs false
    throwsClause
    block nested
  | .record declared => do
    declare .recordType declared.text line
    within ⟨declared.text, .recordType⟩ do
      discard parameters
      untilSees "\x7b" skip
      classBody nested

/-- The constructor of the type around starts here, with parameters or without. -/
def startsConstructor (s : Scope) (ts : List Token) : Bool :=
  startsWith (fun t => t.isName && t.text == s.owner) ts &&
    (begins "(" ts.tail || s.ownerKind == some .recordType && begins "\x7b" ts.tail)

/-- The tokens of a member and those from its parameter list on: the header is read up to there. -/
inductive OpensParameters (s : Scope) : Header → List Token → List Token → Prop
  | method {ts us vs ps : List Token} {found : List String} {declared l : Token}
      (hmodifiers : modifiers memberModifiers s ts = .ok ⟨found, [], us⟩)
      (hkeyword : typeKeyword? us = none)
      (harguments : skipOptionalTypeArguments s us = .ok ⟨(), [], vs⟩)
      (hconstructor : startsConstructor s vs = false)
      (htype : type s vs = .ok ⟨(), [], declared :: l :: ps⟩) (hdeclared : declared.isName)
      (hl : l.IsSign "(") :
      OpensParameters s (.method (found.contains "static") declared) ts (l :: ps)
  | constructor {ts us ps : List Token} {found : List String} {declared l : Token}
      (hmodifiers : modifiers memberModifiers s ts = .ok ⟨found, [], us⟩)
      (hkeyword : typeKeyword? us = none)
      (harguments : skipOptionalTypeArguments s us = .ok ⟨(), [], declared :: l :: ps⟩)
      (hdeclared : declared.isName) (howner : declared.text = s.owner) (hl : l.IsSign "(") :
      OpensParameters s (.constructor declared) ts (l :: ps)
  | record {ts us ps : List Token} {found : List String} {keyword declared l : Token}
      (hmodifiers : modifiers memberModifiers s ts = .ok ⟨found, [], keyword :: declared :: us⟩)
      (hkeyword : typeKeyword? (keyword :: declared :: us) = some (.recordType, 1))
      (hdeclared : declared.isName)
      (harguments : skipOptionalTypeArguments ((Header.record declared).scope s) us =
        .ok ⟨(), [], l :: ps⟩) (hl : l.IsSign "(") :
      OpensParameters s (.record declared) ts (l :: ps)

/-- An opening parenthesis is a token that bars the look for a constructor from reading further. -/
theorem Token.IsSign.isBarrier {l : Token} (h : l.IsSign "(") : l.IsBarrier :=
  .inl (by simp [h.spells])

/-- A parser that stops before a barrier reads its tokens whatever comes behind the barrier. -/
theorem Barred.exists_read {p : Parser α} (hp : Barred p) (hb : b.IsBarrier) (vs : List Token)
    {a : α} {facts : List Fact} (h : p s ts = .ok ⟨a, facts, vs ++ b :: x⟩) :
    ∃ us, ts = us ++ vs ++ b :: x ∧
      ∀ y, p s (us ++ vs ++ b :: y) = .ok ⟨a, facts, vs ++ b :: y⟩ := by
  obtain ⟨us, rfl⟩ := hp.suffix h
  refine ⟨us, (List.append_assoc ..).symm, fun y => ?_⟩
  rw [← List.append_assoc] at h
  exact hp.keeps hb h rfl y

/-- What is declared is told before the parameter list. -/
theorem typeKeyword?_barred {l : Token} (hl : l.IsSign "(") (us x y : List Token) :
    typeKeyword? (us ++ l :: x) = typeKeyword? (us ++ l :: y) := by
  match us with
  | [] => simp [typeKeyword?, hl.spells]
  | [t] => simp [typeKeyword?, hl.isName]
  | [_, _] => rfl
  | _ :: _ :: _ :: _ => rfl

/-- Whether a constructor starts is decided before the first barrier, whatever stands behind it. -/
theorem startsConstructor_barred {us : List Token} (hus : us ≠ []) (l : Token) (x y : List Token) :
    startsConstructor s (us ++ l :: x) = startsConstructor s (us ++ l :: y) := by
  match us with
  | [t] => rfl
  | _ :: _ :: _ => rfl

/-- A header is read in the same way whatever comes behind the parenthesis that opens the parameter
list. -/
theorem OpensParameters.splice {header : Header} {ps : List Token}
    (h : OpensParameters s header ts ps) :
    ∃ us l more, ts = us ++ l :: more ∧ ps = l :: more ∧ l.IsSign "(" ∧
      ∀ y, OpensParameters s header (us ++ l :: y) (l :: y) := by
  -- the parenthesis bars every look of the header, so nothing behind it is seen
  cases h with
  | @method _ _ _ ps _ declared l hmodifiers hkeyword harguments hconstructor htype hdeclared hl =>
    have hb := hl.isBarrier
    obtain ⟨cs, rfl, htypes⟩ := Barred.type.exists_read hb [declared] htype
    obtain ⟨bs, rfl, hargumentss⟩ := Barred.skipOptionalTypeArguments.exists_read hb _ harguments
    obtain ⟨as, rfl, hmodifierss⟩ := (Barred.modifiers _).exists_read hb _ hmodifiers
    refine ⟨_, l, ps, rfl, rfl, hl, fun y => ?_⟩
    rw [startsConstructor_barred (by simp) l ps y] at hconstructor
    exact .method (hmodifierss y) ((typeKeyword?_barred hl _ _ _).trans hkeyword) (hargumentss y)
      hconstructor (htypes y) hdeclared hl
  | @constructor _ _ ps _ declared l hmodifiers hkeyword harguments hdeclared howner hl =>
    have hb := hl.isBarrier
    obtain ⟨bs, rfl, hargumentss⟩ :=
      Barred.skipOptionalTypeArguments.exists_read hb [declared] harguments
    obtain ⟨as, rfl, hmodifierss⟩ := (Barred.modifiers _).exists_read hb _ hmodifiers
    refine ⟨_, l, ps, rfl, rfl, hl, fun y => ?_⟩
    exact .constructor (hmodifierss y) ((typeKeyword?_barred hl _ _ _).trans hkeyword)
      (hargumentss y) hdeclared howner hl
  | @record _ _ ps _ keyword declared l hmodifiers hkeyword hdeclared harguments hl =>
    have hb := hl.isBarrier
    obtain ⟨bs, rfl, hargumentss⟩ := Barred.skipOptionalTypeArguments.exists_read hb [] harguments
    obtain ⟨as, rfl, hmodifierss⟩ :=
      (Barred.modifiers _).exists_read hb (keyword :: declared :: (bs ++ [])) hmodifiers
    refine ⟨_, l, ps, rfl, rfl, hl, fun y => ?_⟩
    exact .record (hmodifierss y)
      ((typeKeyword?_barred hl (keyword :: declared :: (bs ++ [])) _ _).trans hkeyword) hdeclared
      (hargumentss y) hl

/-- What reads in the same way from elsewhere goes on in the same way. -/
theorem bind_of_same {p : Parser α} {f : α → Parser β} (h : p s ts = p s us) :
    (p >>= f) s ts = (p >>= f) s us := by
  rw [bind_apply, bind_apply, h]

/-- What follows a header is read in the same way from elsewhere if the parameters are. -/
theorem Header.readRest_congr {nested : Construct → Parser Unit} {line : Nat} {header : Header}
    (h : parameters (header.scope s) ts = parameters (header.scope s) us) :
    header.readRest nested line s ts = header.readRest nested line s us := by
  cases header with
  | method isStatic declared => exact bind_of_same h
  | constructor declared => exact bind_of_same h
  | record declared =>
    have hdiscard : discard parameters ((Header.record declared).scope s) ts =
        discard parameters ((Header.record declared).scope s) us := by
      rw [discard_apply, discard_apply, h]
    rw [readRest, bind_of_ok (declare_apply _ _ line s ts), bind_of_ok (declare_apply _ _ line s us),
      within_apply, within_apply]
    exact congrArg (recording _) (bind_of_same hdiscard)

/-! ## What parameters record -/

namespace Mute

/-- Expecting a token records nothing. -/
theorem expect (word : String) : Mute (Parser.expect word) :=
  (sees word).bind fun _ => ite skip (failAhead _)

/-- Skipping type arguments records nothing. -/
theorem skipTypeArguments : Mute Parser.skipTypeArguments := by
  refine (expect "<").bind fun _ => iterate (fun depth => ?_) 1
  refine next.bind fun t => ite (pure _) (ite (ite (pure _) (pure _)) (ite ?_ (pure _)))
  exact fun _ _ _ h => by cases h

/-- Skipping type arguments that may be missing records nothing. -/
theorem skipOptionalTypeArguments : Mute Parser.skipOptionalTypeArguments :=
  (sees "<").bind fun _ => ite skipTypeArguments (pure _)

/-- Reading dimensions records nothing. -/
theorem dimensions : Mute Parser.dimensions := ahead.bind fun _ => resumeAt _

/-- Reading a type records nothing. -/
theorem type : Mute Parser.type := by
  refine mute_skipAnnotations.bind fun _ => ahead.bind fun _ => ite (skip.bind fun _ => dimensions) ?_
  refine name.discard.bind fun _ => skipOptionalTypeArguments.bind fun _ =>
    (repeatWhile ?_).bind fun _ => dimensions
  exact ahead.bind fun _ => ite (skip.bind fun _ => mute_skipAnnotations.bind fun _ =>
    name.discard.bind fun _ => skipOptionalTypeArguments.bind fun _ => pure _) (pure _)

/-- Reading the clause of thrown types records nothing. -/
theorem throwsClause : Mute Parser.throwsClause := by
  refine (sees "throws").bind fun _ => ite (skip.bind fun _ => type.bind fun _ => ?_) (pure _)
  exact repeatWhile ((sees ",").bind fun _ => ite (skip.bind fun _ => type.bind fun _ => pure _)
    (pure _))

end Mute

/-- The end of a parameter counts it unless it is a receiver, and records nothing. -/
theorem parameterEnd_eq_ok {arity : Nat} {varargs receiver : Bool}
    {r : Parsed (Nat × Bool ⊕ Nat × Bool)} (h : parameterEnd arity varargs receiver s ts = .ok r) :
    r.value = .inl (if receiver then arity else arity + 1, varargs) ∧ r.facts = [] := by
  obtain ⟨a, ha, b, hb, rfl⟩ := bind_eq_ok.1 h
  rw [Mute.dimensions s ts a ha]
  rw [bind_of_ok (sees_apply "," s _), recording_nil] at hb
  cases hcomma : begins "," a.rest with
  | true =>
    rw [hcomma, if_pos rfl] at hb
    obtain ⟨c, hc, heq⟩ := giving_eq_ok hb
    cases heq
    exact ⟨rfl, Mute.skip s _ c hc⟩
  | false =>
    rw [hcomma, if_neg Bool.false_ne_true, bind_of_ok (sees_apply ")" s _), recording_nil] at hb
    cases hclose : begins ")" a.rest with
    | true =>
      rw [hclose] at hb
      cases hb
      exact ⟨rfl, rfl⟩
    | false =>
      rw [hclose] at hb
      obtain ⟨c, hc, heq⟩ := giving_eq_ok hb
      cases heq
      exact ⟨rfl, Mute.failAhead _ s _ c hc⟩

/-- Once its type is read, what a parameter records is what its name declares. -/
theorem parameterName_eq_ok {arity : Nat} {varargs : Bool} {r : Parsed (Nat × Bool ⊕ Nat × Bool)}
    (h : parameterName arity varargs s ts = .ok r) : ParameterRead s.owner arity r := by
  rw [parameterName, bind_of_ok (sees_apply "this" s ts), recording_nil] at h
  split_ifs at h with hthis
  · obtain ⟨a, ha, b, hb, rfl⟩ := bind_eq_ok.1 h
    obtain ⟨hvalue, hfacts⟩ := parameterEnd_eq_ok hb
    rw [if_pos hthis] at hvalue
    refine ⟨0, varargs, hvalue, [], rfl, ?_⟩
    rw [Mute.skip s ts a ha, hfacts]
    rfl
  · obtain ⟨a, ha, b, hb, rfl⟩ := bind_eq_ok.1 h
    rw [bind_of_ok (declareValue_apply _ _ s _)] at hb
    obtain ⟨c, hc, rfl⟩ := recording_eq_ok.1 hb
    obtain ⟨hvalue, hfacts⟩ := parameterEnd_eq_ok hc
    rw [if_neg hthis] at hvalue
    refine ⟨1, varargs, hvalue, [a.value], rfl, ?_⟩
    rw [Mute.name s ts a ha, hfacts]
    simp

/-- A parameter read from its type on records the parameter it counts. -/
theorem parameterBody_eq_ok {arity : Nat} {varargs : Bool} {r : Parsed (Nat × Bool ⊕ Nat × Bool)}
    (h : parameterBody (arity, varargs) s ts = .ok r) : ParameterRead s.owner arity r := by
  obtain ⟨a, ha, b, hb, rfl⟩ := bind_eq_ok.1 h
  obtain ⟨c, hc, d, hd, rfl⟩ := bind_eq_ok.1 hb
  rw [(mute_modifiers localModifiers).discard s ts a ha, Mute.type s _ c hc, List.nil_append,
    List.nil_append]
  rw [bind_of_ok (sees_apply "..." s _), recording_nil] at hd
  split_ifs at hd
  · obtain ⟨e, he, f, hf, rfl⟩ := bind_eq_ok.1 hd
    rw [Mute.skip s _ e he]
    exact parameterName_eq_ok hf
  · exact parameterName_eq_ok hd

/-- A round of parameters records as many as it adds to the count. -/
theorem iterate_parameter_eq_ok {counts : Nat × Bool} {r : Parsed (Nat × Bool)}
    (h : iterate parameter counts s ts = .ok r) :
    ∃ added, r.value.1 = counts.1 + added ∧ ParameterFacts s.owner added r.facts := by
  refine iterate_induction (motive := fun counts _ r => ∃ added, r.value.1 = counts.1 + added ∧
    ParameterFacts s.owner added r.facts) ?_ ?_ h
  · intro counts ts _ facts rest hround
    rw [parameter_eq, bind_of_ok (sees_apply ")" s ts), recording_nil] at hround
    split_ifs at hround
    · cases hround
      exact ⟨0, rfl, [], rfl, rfl⟩
    · obtain ⟨_, _, hvalue, -⟩ := parameterBody_eq_ok hround
      cases hvalue
  · rintro counts ts _ facts rest more hround - ⟨later, hlater, hmore⟩
    obtain ⟨added, varargs, hvalue, hfacts⟩ := parameterBody_eq_ok (parameter_eq_inl hround).2
    cases hvalue
    exact ⟨added + later, by rw [hlater]; exact Nat.add_assoc .., hfacts.append hmore⟩

/-- A parameter list gives the number of the parameters it records, be their names proper or not. -/
theorem parameterFacts_of_parameters {r : Parsed (Nat × Bool)} (h : parameters s ts = .ok r) :
    ParameterFacts s.owner r.value.1 r.facts := by
  rw [parameters_eq_iterate] at h
  obtain ⟨a, ha, b, hb, rfl⟩ := bind_eq_ok.1 h
  obtain ⟨c, hc, d, hd, rfl⟩ := bind_eq_ok.1 hb
  obtain ⟨e, he, heq⟩ := giving_eq_ok hd
  cases heq
  obtain ⟨added, hvalue, hfacts⟩ := iterate_parameter_eq_ok hc
  rw [Mute.expect "(" s ts a ha, Mute.expect ")" s _ e he, List.nil_append, List.append_nil]
  show ParameterFacts s.owner c.value.1 c.facts
  rw [hvalue, Nat.zero_add]
  exact hfacts

/-! ## The line of a declaration -/

/-- The second facts are the first but for the line of the one declaration that a member makes of
itself, behind those of its parameters. -/
inductive Redated (s : Scope) (line line' : Nat) : List Fact → List Fact → Prop
  | undeclared (facts : List Fact) : Redated s line line' facts facts
  | declared {d : Declaration} {params more : List Fact} (hkind : d.kind ≠ .parameter)
      (howner : d.owner = s.owner) (hline : d.line = line)
      (hparams : ParameterFacts s.owner d.arity params) :
      Redated s line line' (params ++ .declaration d :: more)
        (params ++ .declaration { d with line := line' } :: more)

/-- Behind the given facts, the parser makes at most one declaration on the line it is given, and
nothing else that it does depends on the line. -/
def Dated (s : Scope) (before : List Fact) (p : Nat → Parser Unit) : Prop :=
  ∀ ts r line line', p line s ts = .ok r → ∃ facts,
    Redated s line line' (before ++ r.facts) (before ++ facts) ∧
      p line' s ts = .ok ⟨(), facts, r.rest⟩

namespace Dated

variable {before : List Fact} {p q : Nat → Parser Unit}

/-- A parser that takes no line dates nothing. -/
theorem const (p : Parser Unit) : Dated s before fun _ => p :=
  fun _ r _ _ h => ⟨r.facts, .undeclared _, h⟩

/-- Mute parsers may stand in front of a dated one. -/
theorem behind {q : Parser α} {f : α → Nat → Parser Unit} (hq : Mute q)
    (hf : ∀ a, Dated s before (f a)) : Dated s before fun line => q >>= fun a => f a line := by
  intro ts r line line' h
  obtain ⟨a, ha, b, hb, rfl⟩ := bind_eq_ok.1 h
  obtain ⟨facts, hfacts, hrun⟩ := hf a.value _ b line line' hb
  have hmute : a.facts = [] := hq s ts a ha
  rw [hmute]
  refine ⟨facts, hfacts, bind_eq_ok.2 ⟨a, ha, _, hrun, ?_⟩⟩
  rw [hmute]
  rfl

/-- Both branches of a condition may be dated alike. -/
theorem ite {c : Prop} [Decidable c] (hp : Dated s before p) (hq : Dated s before q) :
    Dated s before fun line => if c then p line else q line := by
  by_cases h : c
  · simpa only [if_pos h] using hp
  · simpa only [if_neg h] using hq

/-- A declaration made after its parameters is dated by the line handed to it. -/
theorem declare {kind : DeclarationKind} {arity : Nat} (hkind : kind ≠ .parameter)
    (hbefore : ParameterFacts s.owner arity before) (name : String) (varargs isStatic : Bool)
    (p : Parser Unit) : Dated s before fun line =>
      declareCallable kind name line arity varargs isStatic >>= fun _ => p := by
  intro ts r line line' h
  obtain ⟨a, ha, b, hb, rfl⟩ := bind_eq_ok.1 h
  cases ha
  exact ⟨_, .declared hkind rfl rfl hbefore, bind_eq_ok.2 ⟨_, rfl, b, hb, rfl⟩⟩

/-- Parameters are dated apart from the declaration that is made behind them. -/
theorem parameters {f : Nat × Bool → Nat → Parser Unit}
    (hf : ∀ counts before, ParameterFacts s.owner counts.1 before → Dated s before (f counts)) :
    Dated s [] fun line => Parser.parameters >>= fun counts => f counts line := by
  intro ts r line line' h
  obtain ⟨a, ha, b, hb, rfl⟩ := bind_eq_ok.1 h
  have hparameters := parameterFacts_of_parameters ha
  obtain ⟨facts, hfacts, hrun⟩ := hf a.value a.facts hparameters _ b line line' hb
  exact ⟨a.facts ++ facts, hfacts, bind_eq_ok.2 ⟨a, ha, _, hrun, rfl⟩⟩

/-- A constructor is dated by the line handed to it. -/
theorem constructor : Dated s [] (Parser.constructor nested) :=
  behind Mute.name fun _ => parameters fun _ _ hbefore => declare (by decide) hbefore _ _ _ _

/-- What follows the type and the name of a method is dated by the line handed to it. -/
theorem methodRest (declared : Token) (isStatic : Bool) :
    Dated s [] (Parser.methodRest nested declared isStatic) := by
  refine parameters fun counts before hbefore => behind Mute.dimensions fun _ =>
    behind Mute.throwsClause fun _ => behind (fun _ _ _ h => by cases h; rfl) fun around => ?_
  exact ite (const _) (declare (by decide) hbefore _ _ _ _)

/-- A field or a method is dated by the line handed to it. -/
theorem fieldOrMethod (isStatic : Bool) : Dated s [] (Parser.fieldOrMethod nested isStatic) := by
  refine behind Mute.type fun _ => behind Mute.name fun declared =>
    behind (Mute.sees "(") fun _ => ite (methodRest declared isStatic) ?_
  refine behind (fun _ _ _ h => by cases h; rfl) fun around => declare ?_ ⟨[], rfl, rfl⟩ _ _ _ _
  split <;> decide

/-- What follows the modifiers of a member is dated by the line handed to it. -/
theorem memberRest (isStatic : Bool) : Dated s [] (Parser.memberRest nested isStatic) := by
  refine behind Mute.skipOptionalTypeArguments fun _ =>
    behind (fun _ _ _ h => by cases h; rfl) fun around => behind Mute.ahead fun ts => ?_
  exact ite constructor (ite (const _) (fieldOrMethod isStatic))

end Dated

/-! ## Members -/

/-- An empty declaration or an initializer comes next, which declares nothing. -/
def beginsUndeclared (ts : List Token) : Bool :=
  begins ";" ts || begins "\x7b" ts || (begins "static" ts && begins "\x7b" ts.tail)

/-- Reads a member that declares something, with the line it does so on. -/
def declaredMember (nested : Construct → Parser Unit) (line : Nat) : Parser Unit := do
  let found ← modifiers memberModifiers
  let ts ← ahead
  match typeKeyword? ts with
  | none => memberRest nested (found.contains "static") line
  | some (kind, length) => typeFrom nested line ts kind length

/-- A member that is not skipped and is no initializer is a declared member on its own line. -/
theorem member_eq_declaredMember (h : beginsUndeclared ts = false) :
    member nested s ts = declaredMember nested (lineAt s ts) s ts := by
  simp only [beginsUndeclared, Bool.or_eq_false_iff] at h
  obtain ⟨⟨hsemicolon, hbrace⟩, hstatic⟩ := h
  rw [member, bind_of_ok (ahead_apply s ts), recording_nil]
  simp only [hsemicolon, hbrace, hstatic, Bool.false_eq_true, if_false]
  rw [bind_of_ok (line_apply s ts), recording_nil]
  simp only [typeDeclaration_orElse]
  rfl

/-- What the words of a type declare; a record has one word. -/
theorem typeKeyword?_kind {kind : DeclarationKind} {length : Nat}
    (h : typeKeyword? ts = some (kind, length)) :
    kind ∉ [.method, .constructor, .recordType, .parameter] ∨ (kind = .recordType ∧ length = 1) := by
  cases TypeKeyword.of_eq_some h <;> decide

/-- A declared member is dated by the line handed to it. -/
theorem Dated.declaredMember : Dated s [] (declaredMember nested) := by
  refine behind (mute_modifiers _) fun found => behind Mute.ahead fun ts => ?_
  cases hkeyword : typeKeyword? ts with
  | none => exact memberRest _
  | some found =>
    have hkind : found.1 ≠ .parameter := by
      rintro hkind
      rcases typeKeyword?_kind hkeyword with hplain | ⟨hrecord, -⟩
      · exact hplain (by simp [hkind])
      · exact absurd (hkind.symm.trans hrecord) (by decide)
    exact behind (Mute.resumeAt _) fun _ => behind Mute.name fun _ =>
      declare hkind ⟨[], rfl, rfl⟩ _ _ _ _

/-! ## Headers of members -/

/-- Type arguments, the name of the owner and a parenthesis are read as the header of a
constructor. -/
theorem memberRest_constructorHeader {declared l : Token} {us ps : List Token} {isStatic : Bool}
    (harguments : skipOptionalTypeArguments s us = .ok ⟨(), [], declared :: l :: ps⟩)
    (hdeclared : declared.isName) (howner : declared.text = s.owner) (hl : l.IsSign "(") :
    memberRest nested isStatic line s us =
      (Header.constructor declared).readRest nested line s (l :: ps) := by
  have hname : startsWith (fun t => t.isName && t.text == s.owner) (declared :: l :: ps) = true := by
    simp [hdeclared, howner]
  have hopen : begins "(" (declared :: l :: ps).tail = true := by simp [hl.spells]
  rw [memberRest, bind_of_ok harguments, recording_nil, bind_of_ok (scope_apply s _), recording_nil,
    ahead_bind_apply]
  simp only [hname, hopen, Bool.true_and, if_true]
  rw [constructor, bind_of_ok (name_cons hdeclared s _), recording_nil]
  rfl

/-- A type, a name and a parenthesis are read as the header of a method. -/
theorem memberRest_methodHeader {declared l : Token} {us vs ps : List Token} {isStatic : Bool}
    (harguments : skipOptionalTypeArguments s us = .ok ⟨(), [], vs⟩)
    (hconstructor : startsConstructor s vs = false)
    (htype : type s vs = .ok ⟨(), [], declared :: l :: ps⟩) (hdeclared : declared.isName)
    (hl : l.IsSign "(") :
    memberRest nested isStatic line s us =
      (Header.method isStatic declared).readRest nested line s (l :: ps) := by
  have hneither : (startsWith (fun t => t.isName && t.text == s.owner) vs && begins "(" vs.tail) = false ∧
      (startsWith (fun t => t.isName && t.text == s.owner) vs && s.ownerKind == some .recordType &&
        begins "\x7b" vs.tail) = false := by
    rw [startsConstructor, Bool.and_or_distrib_left, Bool.or_eq_false_iff, ← Bool.and_assoc] at hconstructor
    exact hconstructor
  rw [memberRest, bind_of_ok harguments, recording_nil, bind_of_ok (scope_apply s _), recording_nil,
    ahead_bind_apply]
  simp only [hneither, Bool.false_eq_true, if_false]
  rw [fieldOrMethod, bind_of_ok htype, recording_nil, bind_of_ok (name_cons hdeclared s _),
    recording_nil, bind_of_ok (sees_apply "(" s _), recording_nil, begins_cons,
    if_pos (by simp [hl.spells])]
  rfl

/-- The keyword, a name and its type parameters are read as the header of a record. -/
theorem typeFrom_recordHeader {keyword declared l : Token} {us ps : List Token} (hdeclared : declared.isName)
    (harguments : skipOptionalTypeArguments ((Header.record declared).scope s) us =
      .ok ⟨(), [], l :: ps⟩) :
    typeFrom nested line (keyword :: declared :: us) .recordType 1 s (keyword :: declared :: us) =
      (Header.record declared).readRest nested line s (l :: ps) := by
  rw [typeFrom, bind_of_ok (resumeAt_apply _ s _), recording_nil,
    show (keyword :: declared :: us).drop 1 = declared :: us from rfl,
    bind_of_ok (name_cons hdeclared s us), recording_nil, bind_of_ok (declare_apply _ _ line s us),
    Header.readRest, bind_of_ok (declare_apply _ _ line s (l :: ps)), within_apply, within_apply]
  refine congrArg (recording _) ?_
  exact (bind_of_ok harguments).trans (recording_nil _)

/-- A member with a header is read by its header and by what comes behind. -/
theorem OpensParameters.read {header : Header} {ps : List Token} (h : OpensParameters s header ts ps) :
    declaredMember nested line s ts = header.readRest nested line s ps := by
  cases h with
  | method hmodifiers hkeyword harguments hconstructor htype hdeclared hl =>
    rw [declaredMember, bind_of_ok hmodifiers, recording_nil, ahead_bind_apply, hkeyword]
    exact memberRest_methodHeader harguments hconstructor htype hdeclared hl
  | constructor hmodifiers hkeyword harguments hdeclared howner hl =>
    rw [declaredMember, bind_of_ok hmodifiers, recording_nil, ahead_bind_apply, hkeyword]
    exact memberRest_constructorHeader harguments hdeclared howner hl
  | record hmodifiers hkeyword hdeclared harguments hl =>
    rw [declaredMember, bind_of_ok hmodifiers, recording_nil, ahead_bind_apply, hkeyword]
    exact typeFrom_recordHeader hdeclared harguments

/-! ## Members without a header -/

/-- Where parameters are read, the first token is the opening parenthesis. -/
theorem parameters_opens {r : Parsed (Nat × Bool)} (hlexical : Lexical ts) (h : parameters s ts = .ok r) :
    ∃ l ps, ts = l :: ps ∧ l.IsSign "(" := by
  obtain ⟨a, ha, -⟩ := bind_eq_ok.1 h
  obtain ⟨l, rfl, hl⟩ := expect_eq_ok ha
  exact ⟨l, a.rest, rfl, (hlexical l (by simp)).isSign (by decide) hl⟩

/-- The member has a header with a parameter list. -/
def HasHeader (s : Scope) (ts : List Token) : Prop := ∃ header l ps, OpensParameters s header ts (l :: ps)

/-- A record read behind its modifiers stands behind a header. -/
theorem hasHeader_of_record {found : List String} {r : Parsed Unit} (hlexical : Lexical us)
    (hmodifiers : modifiers memberModifiers s ts = .ok ⟨found, [], us⟩)
    (hkeyword : typeKeyword? us = some (.recordType, 1))
    (h : typeFrom nested line us .recordType 1 s us = .ok r) : HasHeader s ts := by
  cases us with
  | nil => cases hkeyword
  | cons keyword us =>
    obtain ⟨a, ha, b, hb, -⟩ := bind_eq_ok.1 h
    cases ha
    obtain ⟨n, hn, c, hc, -⟩ := bind_eq_ok.1 hb
    obtain ⟨hus, hname⟩ := name_eq_ok hn
    obtain rfl : us = n.value :: n.rest := hus
    obtain ⟨d, hd, e, he, -⟩ := bind_eq_ok.1 hc
    cases hd
    obtain ⟨f, hf, g, hg, -⟩ := bind_eq_ok.1 he
    obtain ⟨i, hi, -⟩ := bind_eq_ok.1 hg
    obtain ⟨counts, hcounts, -⟩ := giving_eq_ok hi
    have hsuffix : f.rest <:+ n.rest := Barred.skipOptionalTypeArguments.suffix hf
    obtain ⟨l, ps, hps, hl⟩ := parameters_opens (hlexical.tail.tail.of_suffix hsuffix) hcounts
    have harguments : skipOptionalTypeArguments ((Header.record n.value).scope s) n.rest =
        .ok ⟨(), [], l :: ps⟩ := by
      rw [← hps, ← Mute.skipOptionalTypeArguments _ _ f hf]
      exact hf
    exact ⟨_, l, ps, .record hmodifiers hkeyword hname harguments hl⟩

/-- A field or a type that is no record is declared on the line. -/
def DeclaresPlain (s : Scope) (line : Nat) (facts : List Fact) : Prop :=
  ∃ kind name more, kind ∉ [.method, .constructor, .recordType, .parameter] ∧
    facts = .declaration ⟨kind, name, line, s.owner, 0, false, false⟩ :: more

/-- A type other than a record declares itself on the line handed to it. -/
theorem declaresPlain_of_type {kind : DeclarationKind} {length : Nat} {r : Parsed Unit}
    (hkind : kind ∉ [.method, .constructor, .recordType, .parameter])
    (h : typeFrom nested line us kind length s us = .ok r) : DeclaresPlain s line r.facts := by
  obtain ⟨a, ha, b, hb, rfl⟩ := bind_eq_ok.1 h
  cases ha
  obtain ⟨n, hn, c, hc, rfl⟩ := bind_eq_ok.1 hb
  obtain ⟨d, hd, e, he, rfl⟩ := bind_eq_ok.1 hc
  cases hd
  refine ⟨kind, n.value.text, e.facts, hkind, ?_⟩
  rw [Mute.name s _ n hn]
  rfl

/-- A field is declared, or the member has a header. -/
theorem fieldOrMethod_eq_ok {isStatic : Bool} {found : List String} {vs : List Token} {r : Parsed Unit}
    (hlexical : Lexical vs) (hmodifiers : modifiers memberModifiers s ts = .ok ⟨found, [], us⟩)
    (hkeyword : typeKeyword? us = none)
    (harguments : skipOptionalTypeArguments s us = .ok ⟨(), [], vs⟩)
    (hconstructor : startsConstructor s vs = false)
    (h : fieldOrMethod nested isStatic line s vs = .ok r) :
    HasHeader s ts ∨ DeclaresPlain s line r.facts := by
  obtain ⟨a, ha, b, hb, rfl⟩ := bind_eq_ok.1 h
  obtain ⟨n, hn, c, hc, rfl⟩ := bind_eq_ok.1 hb
  obtain ⟨hrest, hname⟩ := name_eq_ok hn
  have htype : type s vs = .ok ⟨(), [], n.value :: n.rest⟩ := by
    rw [← hrest, ← Mute.type s vs a ha]
    exact ha
  rw [bind_of_ok (sees_apply "(" s _), recording_nil] at hc
  cases hopen : begins "(" n.rest with
  | true =>
    obtain ⟨l, ps, hps, hl⟩ := begins_eq_true hopen
    rw [hps] at htype
    have hmem : l ∈ vs := (Barred.type.suffix htype).subset (by simp)
    exact .inl ⟨_, l, ps, .method hmodifiers hkeyword harguments hconstructor htype hname
      ((hlexical l hmem).isSign (by decide) hl)⟩
  | false =>
    rw [hopen, if_neg Bool.false_ne_true, bind_of_ok (scope_apply s _), recording_nil] at hc
    obtain ⟨d, hd, e, he, rfl⟩ := bind_eq_ok.1 hc
    cases hd
    rw [Mute.type s vs a ha, Mute.name s _ n hn]
    refine .inr ⟨_, _, _, ?_, rfl⟩
    split <;> decide

/-- A member that is no type has a header, or declares a field, or is a compact constructor. -/
theorem memberRest_eq_ok {isStatic : Bool} {found : List String} {r : Parsed Unit} (hlexical : Lexical us)
    (hmodifiers : modifiers memberModifiers s ts = .ok ⟨found, [], us⟩)
    (hkeyword : typeKeyword? us = none) (h : memberRest nested isStatic line s us = .ok r) :
    HasHeader s ts ∨ DeclaresPlain s line r.facts ∨
      s.ownerKind = some .recordType ∧ ∃ us, block nested s us = .ok r := by
  obtain ⟨a, ha, b, hb, rfl⟩ := bind_eq_ok.1 h
  obtain ⟨⟨⟩, facts, vs⟩ := a
  obtain rfl : facts = [] := Mute.skipOptionalTypeArguments s us _ ha
  have hlexical' : Lexical vs := hlexical.of_suffix (Barred.skipOptionalTypeArguments.suffix ha)
  rw [bind_of_ok (scope_apply s _), recording_nil, ahead_bind_apply] at hb
  -- a constructor, a compact constructor, or what has a type in front of its name
  split_ifs at hb with hopen hcompact
  · obtain ⟨hown, htail⟩ := Bool.and_eq_true_iff.1 hopen
    obtain ⟨declared, vs, rfl, hdeclared⟩ := startsWith_eq_true hown
    obtain ⟨l, ps, rfl, hl⟩ := begins_eq_true htail
    rw [Bool.and_eq_true, beq_iff_eq] at hdeclared
    exact .inl ⟨_, l, ps, .constructor hmodifiers hkeyword ha hdeclared.1 hdeclared.2
      ((hlexical' l (by simp)).isSign (by decide) hl)⟩
  · obtain ⟨c, hc, d, hd, rfl⟩ := bind_eq_ok.1 hb
    simp only [Bool.and_eq_true, beq_iff_eq] at hcompact
    refine .inr (.inr ⟨hcompact.1.2, c.rest, ?_⟩)
    rw [Mute.skip s vs c hc]
    exact hd
  · have hconstructor : startsConstructor s vs = false := by
      rw [startsConstructor, Bool.and_or_distrib_left, ← Bool.and_assoc, Bool.or_eq_false_iff]
      exact ⟨Bool.eq_false_iff.2 hopen, Bool.eq_false_iff.2 hcompact⟩
    rcases fieldOrMethod_eq_ok hlexical' hmodifiers hkeyword ha hconstructor hb with hheader | hplain
    · exact .inl hheader
    · exact .inr (.inl hplain)

/-- A member without a header with parameters declares a field or a type that is no record, or it is
the compact constructor of a record. -/
theorem declaredMember_eq_ok {r : Parsed Unit} (hlexical : Lexical ts)
    (h : declaredMember nested line s ts = .ok r) :
    HasHeader s ts ∨ DeclaresPlain s line r.facts ∨
      s.ownerKind = some .recordType ∧ ∃ us, block nested s us = .ok r := by
  obtain ⟨m, hm, b, hb, rfl⟩ := bind_eq_ok.1 h
  obtain ⟨found, facts, us⟩ := m
  obtain rfl : facts = [] := mute_modifiers memberModifiers s ts _ hm
  have hlexical' : Lexical us := hlexical.of_suffix ((Barred.modifiers _).suffix hm)
  rw [ahead_bind_apply] at hb
  cases hkeyword : typeKeyword? us with
  | some kind =>
    obtain ⟨kind, length⟩ := kind
    simp only [hkeyword] at hb
    rcases typeKeyword?_kind hkeyword with hplain | ⟨rfl, rfl⟩
    · exact .inr (.inl (declaresPlain_of_type hplain hb))
    · exact .inl (hasHeader_of_record hlexical' hm hkeyword hb)
  | none =>
    simp only [hkeyword] at hb
    exact memberRest_eq_ok hlexical' hm hkeyword hb

end Assay.Source
