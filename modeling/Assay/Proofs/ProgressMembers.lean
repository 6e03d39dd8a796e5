import Assay.Proofs.ProgressExpressions
import Assay.Proofs.TypeDeclaration

/-!
# Statements and members make progress

The parsers of statements, members and declarations of types make progress and what they record fits
together, if that holds of the parsers of the constructs inside; so it holds of all constructs, by
induction on the depth.
-/

namespace Assay.Source

open Assay.Source.Parser

variable {t u : Token} {ts rest : List Token} {d k : Nat} {nested : Construct → Parser Unit}
  {moves : Unit → Prop} {line : Nat} {kind : DeclarationKind} {length : Nat}

/-- Parameters take their parenthesis. -/
theorem Takes.parameters : Takes consistency d k Parser.parameters := fun _ hproper _ s =>
  (Settles.parameters hproper s).mono fun _ _ hr => ⟨fun _ => hr.1, .parameterFacts hr.2⟩

/-! ## Declarations of types -/

/-- The kind of a type keyword is a type. -/
theorem isType_of_typeKeyword? (h : typeKeyword? ts = some (kind, length)) : kind.isType := by
  cases TypeKeyword.of_eq_some h <;> rfl

/-- A type and what is read inside it. -/
theorem Keeps.declareType {name : String} {p : Parser Unit} (hkind : kind.isType)
    (h : Keeps consistency d k p) :
    Keeps consistency d k (do declare kind name line; within ⟨name, kind⟩ p) := by
  intro ts hproper hbudget s
  let declared : Declaration := ⟨kind, name, line, s.owner, 0, false, false⟩
  have hrun : declare kind name line s ts = .ok ⟨(), [.declaration declared], ts⟩ := rfl
  refine Settles.bind (Q := fun r => r = ⟨(), [.declaration declared], ts⟩)
    (.of_ok hrun (List.suffix_refl ts) rfl) ?_
  rintro _ - rfl
  have hinside : Settles { s with enclosing := some ⟨name, kind⟩ } ts p _ := h ts hproper hbudget _
  exact hinside.mono fun r _ hr => ⟨False.elim, Consistent.typeDeclaration hkind rfl hr.2⟩

namespace Sturdy

/-- An enum constant takes its name. -/
theorem enumConstant (h : Sturdy d nested) : Takes consistency d k (Parser.enumConstant nested) := by
  refine Keeps.skipAnnotations.bind fun _ => (Keeps.sees ",").bind fun _ => .cond Takes.skip ?_
  refine Takes.name.step fun t => (Keeps.record fun _ => Consistent.value).bind fun _ =>
    (Keeps.sees "(").bind fun _ => .when h.parenthesized.keeps fun _ => (Keeps.sees "\x7b").bind fun _ =>
      .cond h.anonymousBody.keeps (.pure _ (by simp))

/-- The body of an enum takes its brace. -/
theorem enumBody (h : Sturdy d nested) : Takes consistency d k (Parser.enumBody nested) := by
  refine (Takes.expect "\x7b").step fun _ => .bind (Keeps.repeatWhile ?_) fun _ => .seesWhen fun _ _ =>
    (Keeps.untilSees "\x7d" (h.nestedMember (by omega))).bind fun _ => (Takes.expect "\x7d").keeps
  exact (Keeps.sees ";").bind fun _ => (Keeps.sees "\x7d").bind fun _ =>
    .cond (.pure _ (by simp)) <|
    h.enumConstant.step fun _ => .pure _ (by simp)

/-- The rest of a type declaration keeps to its tokens. -/
theorem typeRest (h : Sturdy d nested) : Keeps consistency d k (Source.typeRest nested kind) := by
  have hbody : Keeps consistency d k (do
      untilSees "\x7b" skip
      if kind == .enumType then Parser.enumBody nested else Parser.classBody nested) :=
    (Keeps.untilSees "\x7b" Takes.skip).bind fun _ => .cond h.enumBody.keeps h.classBody.keeps
  exact .cond (Keeps.skipOptionalTypeArguments.bind fun _ => Takes.parameters.discard.keeps.bind
    fun _ => hbody) hbody

/-- A type declaration runs out of no budget. -/
theorem typeFrom (h : Sturdy d nested) (hkind : kind.isType) :
    RunsAt consistency d k moves ts (Source.typeFrom nested line ts kind length) := by
  refine .bind (.resumeAt (List.drop_suffix length ts) fun _ => False.elim) fun _ => ?_
  exact Takes.name.step fun t => .declareType hkind h.typeRest

/-- If no type is declared, nothing is read. -/
theorem typeDeclaration (h : Sturdy d nested) (line : Nat) :
    Runs consistency d k (fun done => done = true) (Parser.typeDeclaration nested line) := by
  rw [typeDeclaration_eq]
  refine .ahead fun ts => ?_
  cases hkeyword : typeKeyword? ts with
  | none => exact Runs.pure _ (by simp) ts
  | some found =>
    obtain ⟨kind, length⟩ := found
    exact (h.typeFrom (isType_of_typeKeyword? hkeyword)).step fun _ => .pure _ (by simp)

/-! ## Variables and loops -/

/-- An initializer keeps to its tokens. -/
theorem initializer (h : Sturdy d nested) : Keeps consistency d k (Parser.initializer nested) :=
  Keeps.dimensions.bind fun _ => .seesSkip ((Keeps.sees "\x7b").bind fun _ =>
    .cond (h.nestedArray (by omega)).keeps (h.nestedExpression _ (by omega))) (.pure _ (by simp))

/-- A local variable takes its name. -/
theorem localVariable (h : Sturdy d nested) : Takes consistency d k (Parser.localVariable nested) :=
  Takes.name.step fun _ => (Keeps.declareValue (.inr rfl)).bind fun _ => h.initializer

/-- A local declaration takes its type. -/
theorem localDeclaration (h : Sturdy d nested) :
    Takes consistency d k (Parser.localDeclaration nested) :=
  Takes.type.step fun _ => h.localVariable.keeps.bind fun _ => Keeps.afterCommas h.localVariable.keeps

/-- The start of a `for` header keeps to its tokens. -/
theorem forInitializer (h : Sturdy d nested) (hk : 2 ≤ k) :
    Keeps consistency d k (Parser.forInitializer nested) :=
  (Keeps.modifiers localModifiers).bind fun _ => .ahead fun ts =>
    .ite (fun _ => h.localDeclaration.keeps ts) fun _ => h.nestedExpression _ hk ts

/-- A `for` statement takes its word. -/
theorem forStatement (h : Sturdy d nested) (line : Nat) :
    Takes consistency d k (Parser.forStatement nested line) := by
  have hbody : ∀ kind, Keeps consistency d (k + 3)
      (do expect ")"; record (.loop ⟨kind, line⟩); nested .statement) := fun kind =>
    (Takes.expect ")").keeps.bind fun _ => (Keeps.record fun _ => Consistent.loop).bind fun _ =>
      (h.nestedStatement (by omega)).keeps
  refine (Takes.expect "for").step fun _ => (Takes.expect "(").keeps.bind fun _ =>
    .ahead fun ts => .ite (fun _ => ?_) fun _ => ?_
  · exact (Keeps.modifiers localModifiers).discard.bind (fun _ => Takes.type.keeps.bind fun _ =>
      Takes.name.keeps.bind fun t => (Keeps.declareValue (.inr rfl)).bind fun _ =>
      (Takes.expect ":").keeps.bind fun _ => (h.nestedExpression _ (by omega)).bind fun _ =>
      (Runs.pure _ (by simp)).bind hbody) ts
  · exact (Keeps.sees ";").bind (fun _ => .when (h.forInitializer (by omega)) fun _ =>
      (Takes.expect ";").keeps.bind fun _ => (Keeps.sees ";").bind fun _ =>
      .when (h.nestedExpression _ (by omega)) fun _ => (Takes.expect ";").keeps.bind fun _ =>
      (Keeps.sees ")").bind fun _ => .when (h.nestedExpression _ (by omega)) fun _ =>
      (Runs.pure _ (by simp)).bind hbody) ts

/-- What a resource starts with is not what it ends before. -/
theorem resource (h : Sturdy d nested) (hclose : begins ")" ts = false) (hk : 3 ≤ k) :
    RunsAt consistency d k moves ts (Parser.resource nested) := by
  have hfault : ∀ text, (Fault.expectedEither ";" ")" text).IsFair := fun _ => ⟨nofun, .inl rfl⟩
  have hrest : ∀ us, startsWith (·.spellsAny [";", ")"]) us = false →
      RunsAt consistency d k moves us (do
        nested (.expression [";", ")"])
        if !(startsWith (·.spellsAny [";", ")"]) (← ahead)) then
          failAhead (.expectedEither ";" ")")) :=
    fun us hus => .checked (h.nestedExpression _ (by omega)) hus hfault
  have hchecked : Keeps consistency d k (do
      nested (.expression [";", ")"])
      if !(startsWith (·.spellsAny [";", ")"]) (← ahead)) then
        failAhead (.expectedEither ";" ")")) :=
    (h.nestedExpression _ (by omega)).bind fun _ => .ahead fun us =>
      .ite (fun _ => Runs.failAhead hfault us) fun _ => Runs.pure _ (by simp) us
  -- a word that a resource ends before is passed by the loop around it, so it does not stand here
  refine .choose (fun _ => Takes.skip.weaken (Nat.le_refl k) (fun _ _ => trivial) ts) fun hend => ?_
  have hts : startsWith (·.spellsAny [";", ")"]) ts = false := by
    cases ts with
    | nil => rfl
    | cons t ts =>
      rw [begins_cons] at hend hclose
      simp [hend, hclose]
  have hdeclared : Takes consistency d k (do
      type
      declareValue .variableDeclarator (← name)
      expect "="
      nested (.expression [";", ")"])
      if !(startsWith (·.spellsAny [";", ")"]) (← ahead)) then
        failAhead (.expectedEither ";" ")")) :=
    Takes.type.step fun _ => Takes.name.keeps.bind fun t => (Keeps.declareValue (.inr rfl)).bind
      fun _ => (Takes.expect "=").keeps.bind fun _ => hchecked.weaken (by omega) fun _ => id
  refine (Keeps.modifiers localModifiers ts).bindAt (fun found => .ahead ?_) fun found =>
    .ahead fun us => ?_
  · exact .ite (fun _ => hdeclared.weaken (Nat.le_refl k) (fun _ _ => trivial) ts) fun _ => hrest ts hts
  · exact .ite (fun _ => hdeclared.keeps us) fun _ => hchecked us

/-- A `catch` clause takes its parenthesis. -/
theorem catchRest (h : Sturdy d nested) (line : Nat) :
    Takes consistency d k (Parser.catchRest nested line) := by
  refine (Takes.expect "(").step fun _ => (Keeps.modifiers localModifiers).discard.bind fun _ =>
    Takes.type.keeps.bind fun _ => .bind (Keeps.repeatWhile ?_) fun _ => Takes.name.keeps.bind fun t =>
    (Keeps.declareValue (.inl rfl)).bind fun _ => (Takes.expect ")").keeps.bind fun _ =>
    (Keeps.record fun _ => Consistent.catchClause).bind fun _ => h.block.keeps
  exact .seesSkip (Takes.type.keeps.bind fun _ => .pure _ (by simp)) (.pure _ (by simp))

/-- A `try` statement takes its word. -/
theorem tryStatement (h : Sturdy d nested) : Takes consistency d k (Parser.tryStatement nested) := by
  have hhandlers : Keeps consistency d (k + 3) (do
      Parser.block nested
      repeatWhile do
        if ← sees "catch" then
          let line ← line
          skip
          Parser.catchRest nested line
          return true
        return false
      if ← sees "finally" then
        skip
        Parser.block nested) := by
    refine h.block.keeps.bind fun _ => .bind (Keeps.repeatWhile ?_) fun _ =>
      .seesSkip h.block.keeps (.pure _ (by simp))
    exact (Keeps.sees "catch").bind fun _ => .cond (Keeps.line.bind fun line =>
      Takes.skip.step fun _ => (h.catchRest line).keeps.bind fun _ =>
        .pure _ (by simp)) (.pure _ (by simp))
  refine (Takes.expect "try").step fun _ => .seesSkip ?_ hhandlers
  exact (Keeps.untilSeesAt ")" fun ts hclose => h.resource hclose (by omega)).bind fun _ =>
    (Takes.expect ")").keeps.bind fun _ => hhandlers.weaken (by omega) fun _ => id

/-! ## Statements -/

/-- A statement told by its first token runs out of no budget. -/
theorem unnamedStatement (h : Sturdy d nested) (line : Nat) (hk : 2 ≤ k) :
    RunsAt consistency d k (fun _ => True) ts (Parser.unnamedStatement nested ts line) := by
  have hdeclaration : Takes consistency d k (do Parser.localDeclaration nested; expect ";") :=
    h.localDeclaration.step fun _ => (Takes.expect ";").keeps
  refine .ite (fun hlabel => ?_) fun _ => .ite (fun _ => ?_) fun _ => ?_
  · exact .step (.resumeAt (List.drop_suffix 2 ts) fun _ _ => length_drop_two hlabel) fun _ =>
      (h.nestedStatement (by omega)).keeps
  · exact (Keeps.modifiers localModifiers).discard.bind (fun _ us => .unless (h.typeDeclaration line us)
      hdeclaration) ts
  · refine .unless (h.typeDeclaration line ts)
      (.cond hdeclaration (h.expressionStatement (by omega)))

/-- A statement takes a token at least. -/
theorem statement (h : Sturdy d nested) (hk : 2 ≤ k) :
    Takes consistency d k (Parser.statement nested) := by
  have hskip : Takes consistency d k Parser.skip := Takes.skip
  refine .ahead fun ts => ?_
  cases ts with
  | nil =>
    have hend : ∀ _ : String, Fault.unexpectedEnd.IsFair := fun _ => ⟨nofun, .inr rfl⟩
    exact Runs.failAhead hend _
  | cons t ts =>
    -- every form starts with the token that tells it, so what is nested has fewer tokens
    refine .ite (fun _ => h.block _) fun _ => .ite (fun _ => hskip _) fun _ =>
      .ite (fun _ => ?_) fun _ => .ite (fun _ => h.forStatement _ _) fun _ => .ite (fun _ => ?_)
      fun _ => .ite (fun _ => ?_) fun _ => .ite (fun _ => h.tryStatement _) fun _ =>
      .ite (fun _ => ?_) fun _ => .ite (fun _ => ?_) fun _ => .ite (fun _ => ?_) fun _ =>
      .ite (fun _ => ?_) fun _ => h.unnamedStatement _ hk
    · exact hskip.step (fun _ => h.parenthesized.keeps.bind fun _ =>
        (h.nestedStatement (by omega)).keeps.bind
        fun _ => .seesSkip (h.nestedStatement (by omega)).keeps (.pure _ (by simp))) _
    · exact hskip.step (fun _ => h.parenthesized.keeps.bind fun _ =>
        (Keeps.record fun _ => Consistent.loop).bind fun _ =>
          (h.nestedStatement (by omega)).keeps) _
    · exact hskip.step (fun _ => (Keeps.record fun _ => Consistent.loop).bind fun _ =>
        (h.nestedStatement (by omega)).keeps.bind fun _ =>
          (Takes.expect "while").keeps.bind fun _ =>
        h.parenthesized.keeps.bind fun _ => (Takes.expect ";").keeps) _
    · exact hskip.step (fun _ => h.parenthesized.keeps.bind fun _ => h.switchBlock.keeps) _
    · exact hskip.step (fun _ => h.parenthesized.keeps.bind fun _ => h.block.keeps) _
    · exact hskip.step (fun _ => (h.expressionStatement (by omega)).keeps) _
    · exact hskip.step (fun _ => .ahead fun ts => .ite (fun _ => Takes.skip.keeps.bind
        (fun _ => (Takes.expect ";").keeps) ts) fun _ => (Takes.expect ";").keeps ts) _

end Sturdy

/-! ## Members -/

/-- A method or constructor is recorded after its parameters, with their number. -/
theorem Settles.callable {s : Scope} {params : List Fact} {callee : DeclarationKind}
    {name : String} {arity : Nat} {varargs isStatic : Bool} {p : Parser Unit}
    (hparams : ParameterFacts s.owner arity params)
    (hkind : callee = .method ∨ callee = .constructor)
    (hname : callee = .constructor → name = s.owner ∧ s.owner ≠ "")
    (hp : Keeps consistency d k p) (hproper : Proper ts) (hbudget : 3 * ts.length + k ≤ d) :
    Settles s ts (do declareCallable callee name line arity varargs isStatic; p) fun r =>
      Consistent s.owner (params ++ r.facts) := by
  let declared : Declaration := ⟨callee, name, line, s.owner, arity, varargs, isStatic⟩
  have hrun : declareCallable callee name line arity varargs isStatic s ts =
      .ok ⟨(), [.declaration declared], ts⟩ := rfl
  refine Settles.bind (Q := fun r => r = ⟨(), [.declaration declared], ts⟩)
    (.of_ok hrun (List.suffix_refl ts) rfl) ?_
  rintro _ - rfl
  refine (hp ts hproper hbudget s).mono fun r _ hr => ?_
  have hcallable : Consistent s.owner (params ++ [.declaration declared]) :=
    .callable hparams hkind rfl hname
  have hall := hcallable.append hr.2
  rwa [List.append_assoc] at hall

namespace Sturdy

/-- An element value of an annotation keeps to its tokens. -/
theorem elementValue (h : Sturdy d nested) (hk : 2 ≤ k) :
    Keeps consistency d k (Parser.elementValue nested) :=
  (Keeps.sees "\x7b").bind fun _ => .cond (h.nestedArray (by omega)).keeps <|
    (Keeps.sees "@").bind fun _ =>
    .cond Keeps.skipAnnotations (h.nestedExpression _ (by omega))

/-- The rest of a method takes its parenthesis. -/
theorem methodRest (h : Sturdy d nested) (isStatic : Bool) (line : Nat) :
    Takes consistency d k (Parser.methodRest nested t isStatic line) := by
  intro ts hproper hbudget s
  refine (Settles.parameters hproper s).bind fun a hsuffix ha => ?_
  obtain ⟨⟨arity, varargs⟩, params, rest⟩ := a
  obtain ⟨hlt, hparams⟩ : rest.length < ts.length ∧ ParameterFacts s.owner arity params := ha
  have hproper' := hproper.of_suffix hsuffix
  refine Settles.mono (Q := fun r => Consistent s.owner (params ++ r.facts)) ?_ fun r hr hfacts =>
    ⟨fun _ => Nat.lt_of_le_of_lt hr.length_le hlt, hfacts⟩
  refine (Runs.settles (fun _ => Keeps.dimensions) hproper' s).silently fun b hb _ => ?_
  have hproper'' := hproper'.of_suffix hb
  refine (Runs.settles (fun _ => Keeps.throwsClause) hproper'' s).silently fun c hc _ => ?_
  have hlength : c.rest.length ≤ rest.length := (hc.trans hb).length_le
  refine .still (scope_apply s c.rest) (.ite (fun _ => ?_) fun _ => ?_)
  · have helement : Keeps consistency d (k + 3) (do
        if ← sees "default" then
          skip
          Parser.elementValue nested
        expect ";") :=
      .seesSkip ((h.elementValue (by omega)).bind fun _ =>
        (Takes.expect ";").keeps) (Takes.expect ";").keeps
    refine (helement c.rest (hproper''.of_suffix hc) (by omega) s).mono fun r _ hr => ?_
    exact (Consistent.parameterFacts hparams).append hr.2
  · have hbody : Keeps consistency d (k + 3) (do
        if ← sees ";" then skip else Parser.block nested) :=
      (Keeps.sees ";").bind fun _ => .cond Takes.skip.keeps h.block.keeps
    exact .callable hparams (.inl rfl) nofun hbody (hproper''.of_suffix hc) (by omega)

/-- A constructor that has the name of its owner takes it, and what it records is consistent. -/
theorem constructor (h : Sturdy d nested) {s : Scope} {line : Nat} (hproper : Proper ts)
    (hbudget : 3 * ts.length + k ≤ d)
    (hname : startsWith (fun t => t.isName && t.text == s.owner) ts) :
    Settles s ts (Parser.constructor nested line) fun r =>
      r.rest.length < ts.length ∧ Consistent s.owner r.facts := by
  obtain ⟨t, us, rfl, ht⟩ := startsWith_eq_true hname
  obtain ⟨ht, howner⟩ := Bool.and_eq_true_iff.1 ht
  have howner : t.text = s.owner := eq_of_beq howner
  have hnonempty : t.text ≠ "" :=
    (hproper t List.mem_cons_self (Bool.and_eq_true_iff.1 ht).1).1
  refine Settles.bind (Q := fun r => r = ⟨t, [], us⟩)
    (.of_ok (name_cons ht s us) (List.suffix_cons t us) rfl) ?_
  rintro _ hsuffix rfl
  have hproper' : Proper us := hproper.of_suffix hsuffix
  rw [List.length_cons] at hbudget
  refine (Settles.parameters hproper' s).bind fun a hsuffix' ha => ?_
  obtain ⟨⟨arity, varargs⟩, params, rest⟩ := a
  obtain ⟨hlt, hparams⟩ : rest.length < us.length ∧ ParameterFacts s.owner arity params := ha
  have hbody : Keeps consistency d k (do throwsClause; Parser.block nested) :=
    Keeps.throwsClause.bind fun _ => h.block.keeps
  refine (Settles.callable hparams (.inr rfl) (fun _ => ⟨howner, howner ▸ hnonempty⟩) hbody
    (hproper'.of_suffix hsuffix') (by simp only; omega)).mono fun r hr hfacts => ⟨?_, hfacts⟩
  exact Nat.lt_succ_of_lt (Nat.lt_of_le_of_lt hr.length_le hlt)

/-- The first name of a field declaration and what follows it. -/
theorem firstField (h : Sturdy d nested) (isStatic : Bool) (line : Nat) :
    Keeps consistency d k (do
      declare (if isStatic then .staticField else .instanceField) t.text line
      Parser.fieldRest nested isStatic t) := by
  have hrecords : (do
      declare (if isStatic then .staticField else .instanceField) t.text line
      Parser.fieldRest nested isStatic t) = ((do
        declare (if isStatic then .staticField else .instanceField) t.text line
        record (.value t.text)
        record (.field t.text isStatic)) >>= fun _ => Parser.initializer nested) := by
    simp only [Parser.fieldRest, bind_bind]
  rw [hrecords]
  exact fun ts => .after (fun s => ⟨_, rfl, Consistent.firstField isStatic⟩) (h.initializer ts)

/-- A further name of a field declaration and what follows it. -/
theorem fieldRest (h : Sturdy d nested) (isStatic : Bool) :
    Keeps consistency d k (Parser.fieldRest nested isStatic t) := by
  have hrecords : Parser.fieldRest nested isStatic t = ((do
      record (.value t.text)
      record (.field t.text isStatic)) >>= fun _ => Parser.initializer nested) := by
    simp only [Parser.fieldRest, bind_bind]
  rw [hrecords]
  exact fun ts => .after (fun s => ⟨_, rfl, Consistent.furtherField isStatic⟩) (h.initializer ts)

/-- A field or a method takes its type. -/
theorem fieldOrMethod (h : Sturdy d nested) (isStatic : Bool) (line : Nat) :
    Takes consistency d k (Parser.fieldOrMethod nested isStatic line) := by
  refine Takes.type.step fun _ => Takes.name.keeps.bind fun t => (Keeps.sees "(").bind fun _ =>
    .cond (h.methodRest _ _).keeps <| Keeps.scope.bind fun _ => .two (h.firstField _ _) fun _ =>
    .bind (Keeps.afterCommas ?_) fun _ => (Takes.expect ";").keeps
  exact Takes.name.keeps.bind fun t => h.fieldRest _

/-- The rest of a member takes a token at least. -/
theorem memberRest (h : Sturdy d nested) (isStatic : Bool) (line : Nat) :
    Takes consistency d k (Parser.memberRest nested isStatic line) := by
  intro ts hproper hbudget s
  refine (Runs.settles (fun _ => Keeps.skipOptionalTypeArguments) hproper s).silently
    fun a hsuffix _ => ?_
  have hproper' := hproper.of_suffix hsuffix
  have hlength := hsuffix.length_le
  refine Settles.mono (Q := fun r => r.rest.length < a.rest.length ∧ Consistent s.owner r.facts) ?_
    fun r _ hr => ⟨fun _ => Nat.lt_of_lt_of_le hr.1 hlength, hr.2⟩
  refine .still (scope_apply s a.rest) (.still (ahead_apply s a.rest) (.ite (fun hown => ?_)
    fun _ => ?_))
  · exact h.constructor (k := k) hproper' (by omega) (Bool.and_eq_true_iff.1 hown).1
  · have hrest : Takes consistency d k (do
        if startsWith (fun t => t.isName && t.text == s.owner) a.rest &&
            s.ownerKind == some .recordType && begins "\x7b" a.rest.tail then
          skip
          Parser.block nested
        else Parser.fieldOrMethod nested isStatic line) :=
      .cond (Takes.skip.step fun _ => h.block.keeps) (h.fieldOrMethod _ _)
    exact (hrest a.rest hproper' (by omega) s).mono fun r _ hr => ⟨hr.1 trivial, hr.2⟩

/-- A member takes a token at least. -/
theorem member (h : Sturdy d nested) : Takes consistency d k (Parser.member nested) := by
  refine .ahead fun ts => .ite (fun _ => Takes.skip ts) fun _ => .ite (fun _ => h.block ts) fun _ =>
    .ite (fun _ => Takes.skip.step (fun _ => h.block.keeps) ts) fun _ => ?_
  exact Keeps.line.bind (fun line => (Keeps.modifiers memberModifiers).bind fun _ ts =>
    .unless (h.typeDeclaration line ts) (h.memberRest _ line)) ts

/-! ## Constructs -/

/-- One construct may be open more than inside it. -/
theorem constructStep (h : Sturdy d nested) : Sturdy (d + 1) (Parser.constructStep nested) := by
  have hmore : ∀ {spent : Nat} {moves : Unit → Prop} {p : Parser Unit},
      Runs consistency d spent moves p → Runs consistency (d + 1) (spent + 1) moves p :=
    fun hp ts hproper hbudget s => hp ts hproper (by omega) s
  intro c spent hspent
  cases spent with
  | zero => cases c <;> simp [Construct.rank] at hspent
  | succ spent =>
    refine hmore ?_
    cases c with
    | member => exact h.member
    | statement => exact h.statement (Nat.le_of_succ_le_succ hspent)
    | expression stop => exact h.expression stop (Nat.le_of_succ_le_succ hspent)
    | arrayInitializer => exact h.arrayInitializer

end Sturdy

/-- All constructs make progress, as deep as the budget for nesting allows. -/
theorem sturdy_construct (depth : Nat) : Sturdy depth (construct depth) := by
  induction depth with
  | zero =>
    intro c spent hspent ts _ hbudget
    have : 0 < c.rank := by cases c <;> simp [Construct.rank]
    omega
  | succ depth ih => exact ih.constructStep

end Assay.Source
