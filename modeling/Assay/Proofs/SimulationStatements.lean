import Assay.Proofs.SimulationExpressions
import Assay.Proofs.TypeDeclaration

/-!
# Statements and types alike

The parsers of statements and of type declarations run alike on tokens that are read alike, if the
parsers of the constructs inside do.
-/

namespace Assay.Source.Simulation

open Assay.Source.Parser

variable {σ : Simulation} {R : Prop} {last : Bool} {ts us : List Token} {m n : Nat}
  {nested nested' : Construct → Parser Unit}

/-! ## Types -/

/-- An enum constant is simulated. -/
theorem Nests.enumConstant (h : σ.Nests nested nested') :
    σ.Sim R false Eq (Parser.enumConstant nested) (Parser.enumConstant nested') := by
  refine Sim.skipAnnotations.bindEq fun _ => (Sim.sees ",").bindEq fun _ => .cond .skip ?_
  refine Sim.name.bind fun t u => Sim.bindEq (.record fun hR => ?_) fun _ =>
    (Sim.sees "(").bindEq fun _ => .when h.parenthesized fun _ => (Sim.sees "\x7b").bindEq fun _ =>
    .cond h.anonymousBody (.pure fun _ => rfl)
  rw [hR.2.2]
  exact .value _

/-- The body of an enum is simulated, and may be what ends the text. -/
theorem Nests.enumBody (h : σ.Nests nested nested') :
    σ.Sim R last Eq (Parser.enumBody nested) (Parser.enumBody nested') := by
  refine (Sim.expect "\x7b" (by simp)).bindEq fun _ => Sim.bindEq (.repeatWhile ?_) fun _ =>
    (Sim.sees ";").bindEq fun _ => .when .skip fun _ =>
    (Sim.untilSees "\x7d" (h.sim _)).bindEq fun _ => .expect "\x7d" (by simp)
  refine (Sim.sees ";").bindEq fun _ => (Sim.sees "\x7d").bindEq fun _ =>
    .cond (.pure fun _ => rfl) <| h.enumConstant.bindEq fun _ => .pure fun _ => rfl

/-- A type declaration behind its modifiers is simulated where the kinds and the lines agree. -/
theorem Nests.typeFrom (h : σ.Nests nested nested') {kind : DeclarationKind} {length : Nat}
    (hts : R → σ.tokens ts us ∧ typeKeyword? ts = some (kind, length) ∧ σ.line m n) :
    σ.SimAt R last Eq ts us (typeFrom nested m ts kind length)
      (typeFrom nested' n us kind length) := by
  refine SimAt.bindEq (.resumeAt (List.drop_suffix length ts) fun hR => ?_) fun _ => ?_
  · exact drop_typeKeyword (hts hR).1 (hts hR).2.1
  · refine Sim.name.bind fun t u => Sim.bindEq (Sim.declareCallable fun hR => ?_) fun _ =>
      .within (fun hR => ?_) (.detour ?_ fun hrest => ?_)
    · exact ⟨hR.2.2, (hts hR.1).2.2⟩
    · rw [hR.2.2]
    · exact (Sim.untilSees "\x7b" .skip).bindEq fun _ => .cond h.enumBody h.classBody
    · exact Sim.skipOptionalTypeArguments.bindEq fun _ => Sim.parameters.discard.bindEq fun _ => hrest

/-- A type declaration is simulated where the lines agree. -/
theorem Nests.typeDeclaration (h : σ.Nests nested nested') (hline : R → σ.line m n) :
    σ.Sim R false Eq (Parser.typeDeclaration nested m) (Parser.typeDeclaration nested' n) := by
  rw [typeDeclaration_eq, typeDeclaration_eq]
  refine .ahead fun ts us => .congr (fun hR => by rw [← typeKeyword?_alike hR.2]) ?_
  cases hkeyword : typeKeyword? ts with
  | none => exact .pure (fun _ => rfl) And.right
  | some found =>
    obtain ⟨kind, length⟩ := found
    exact (h.typeFrom fun hR => ⟨hR.2, hkeyword, hline hR.1⟩).bindEq fun _ => .pure fun _ => rfl

/-! ## Local variables and loops -/

/-- An initializer is simulated. -/
theorem Nests.initializer (h : σ.Nests nested nested') :
    σ.Sim R false Eq (Parser.initializer nested) (Parser.initializer nested') :=
  Sim.dimensions.bindEq fun _ => (Sim.sees "=").bindEq fun _ => .cond
    (Sim.skip.bindEq fun _ => (Sim.sees "\x7b").bindEq fun _ => .cond (h.sim _) (h.sim _))
    (.pure fun _ => rfl)

/-- A local variable is simulated. -/
theorem Nests.localVariable (h : σ.Nests nested nested') :
    σ.Sim R false Eq (Parser.localVariable nested) (Parser.localVariable nested') :=
  Sim.name.bind fun _ _ => (Sim.declareValue And.right).bindEq fun _ => h.initializer

/-- A local declaration is simulated. -/
theorem Nests.localDeclaration (h : σ.Nests nested nested') :
    σ.Sim R false Eq (Parser.localDeclaration nested) (Parser.localDeclaration nested') :=
  Sim.type.bindEq fun _ => h.localVariable.bindEq fun _ => .afterCommas h.localVariable

/-- The start of a `for` header is simulated. -/
theorem Nests.forInitializer (h : σ.Nests nested nested') :
    σ.Sim R false Eq (Parser.forInitializer nested) (Parser.forInitializer nested') :=
  (Sim.modifiers _).bindEq fun _ =>
    .test (fun h => by rw [isLocalDeclaration_alike h]) h.localDeclaration (h.sim _)

/-- A `for` statement is simulated where the lines agree. -/
theorem Nests.forStatement (h : σ.Nests nested nested') (hline : R → σ.line m n) :
    σ.Sim R false Eq (Parser.forStatement nested m) (Parser.forStatement nested' n) := by
  have hbody : ∀ kind, σ.Sim R false Eq
      (do expect ")"; record (.loop ⟨kind, m⟩); nested .statement)
      (do expect ")"; record (.loop ⟨kind, n⟩); nested' .statement) := fun kind =>
    (Sim.expect ")" (by simp)).bindEq fun _ => Sim.bindEq (.record fun hR =>
      .loop (hline hR)) fun _ => h.sim _
  refine .expect_bind fun ts us => .expect_bind (fun hR => tail_of_begins hR.2.2 hR.2.1 rfl rfl) ?_
  refine .still_bind (fun s => ahead_apply s _) (fun _ s => ahead_apply s _) (fun _ _ _ _ => .nil) ?_
  have htail : (R ∧ begins "for" ts ∧ σ.tokens ts us) ∧ begins "(" ts.tail →
      σ.tokens ts.tail.tail us.tail.tail := fun hR =>
    tail_of_begins (tail_of_begins hR.1.2.2 hR.1.2.1 rfl rfl) hR.2 rfl rfl
  refine .ite (fun hR => ?_) ?_ ?_
  · rw [σ.isForEach hR.1.2.2 hR.1.2.1 hR.2]
  · refine .bindEq ((Sim.modifiers _).discard.at fun hR => ⟨hR, htail hR.1⟩) fun _ =>
      Sim.type.bindEq fun _ => Sim.name.bind fun t u => (Sim.declareValue And.right).bindEq fun _ =>
      (Sim.expect ":" (by simp)).bindEq fun _ => (h.sim _).bindEq fun _ => ?_
    exact Sim.bindEq (.pure fun _ => rfl) fun kind => (hbody kind).mono fun hR => hR.1.1.1.1
  · refine .bindEq ((Sim.sees ";").at fun hR => ⟨hR, htail hR⟩) fun _ =>
      .when h.forInitializer fun _ => (Sim.expect ";" (by simp)).bindEq fun _ =>
        (Sim.sees ";").bindEq fun _ =>
      .when (h.sim _) fun _ => (Sim.expect ";" (by simp)).bindEq fun _ =>
        (Sim.sees ")").bindEq fun _ =>
      .when (h.sim _) fun _ => ?_
    exact Sim.bindEq (.pure fun _ => rfl) fun kind => (hbody kind).mono fun hR => hR.1.1

/-- A resource is simulated. -/
theorem Nests.resource (h : σ.Nests nested nested') :
    σ.Sim R false Eq (Parser.resource nested) (Parser.resource nested') := by
  refine (Sim.sees ";").bindEq fun _ => .cond .skip ?_
  have hrest : σ.Sim R false Eq
      (do
        nested (.expression [";", ")"])
        if !(startsWith (·.spellsAny [";", ")"]) (← ahead)) then
          failAhead (.expectedEither ";" ")"))
      (do
        nested' (.expression [";", ")"])
        if !(startsWith (·.spellsAny [";", ")"]) (← ahead)) then
          failAhead (.expectedEither ";" ")")) :=
    (h.sim _).bindEq fun _ => .test (fun h => by rw [startsAny_alike h])
      (.failAhead fun _ _ => rfl) (.pure fun _ => rfl)
  refine (Sim.modifiers _).bindEq fun _ => .test (fun h => by rw [isLocalDeclaration_alike h]) ?_ hrest
  exact Sim.type.bindEq fun _ => Sim.name.bind fun t u => (Sim.declareValue And.right).bindEq fun _ =>
    (Sim.expect "=" (by simp)).bindEq fun _ => hrest.mono And.left

/-- A `catch` clause is simulated where the lines agree. -/
theorem Nests.catchRest (h : σ.Nests nested nested') (hline : R → σ.line m n) :
    σ.Sim R false Eq (Parser.catchRest nested m) (Parser.catchRest nested' n) := by
  refine (Sim.expect "(" (by simp)).bindEq fun _ => (Sim.modifiers _).discard.bindEq fun _ =>
    Sim.type.bindEq fun _ => Sim.bindEq (.repeatWhile ?_) fun _ => Sim.name.bind fun t u =>
    (Sim.declareValue And.right).bindEq fun _ => (Sim.expect ")" (by simp)).bindEq fun _ =>
    Sim.bindEq (.record fun hR => .catchClause (hline hR.1)) fun _ => h.block
  exact (Sim.sees "|").bindEq fun _ => .cond
    (Sim.skip.bindEq fun _ => Sim.type.bindEq fun _ => .pure fun _ => rfl) (.pure fun _ => rfl)

/-- A `try` statement is simulated. -/
theorem Nests.tryStatement (h : σ.Nests nested nested') :
    σ.Sim R false Eq (Parser.tryStatement nested) (Parser.tryStatement nested') := by
  refine (Sim.expect "try" (by simp)).bindEq fun _ => (Sim.sees "(").bindEq fun _ =>
    .detour ?_ fun hrest => ?_
  · refine h.block.bindEq fun _ => Sim.bindEq (.repeatWhile ?_) fun _ =>
      (Sim.sees "finally").bindEq fun _ => .cond (Sim.skip.bindEq fun _ => h.block)
        (.pure fun _ => rfl)
    refine (Sim.sees "catch").bindEq fun _ => .cond ?_ (.pure fun _ => rfl)
    exact Sim.line.bind fun m n => Sim.skip.bindEq fun _ =>
      (h.catchRest And.right).bindEq fun _ => .pure fun _ => rfl
  · exact Sim.skip.bindEq fun _ => (Sim.untilSees ")" h.resource).bindEq fun _ =>
      (Sim.expect ")" (by simp)).bindEq fun _ => hrest

/-! ## Statements -/

/-- A statement told by its first token is simulated. -/
theorem Nests.unnamedStatement (h : σ.Nests nested nested')
    (hts : R → σ.tokens ts us ∧ σ.line m n) :
    σ.SimAt R false Eq ts us (Parser.unnamedStatement nested ts m)
      (Parser.unnamedStatement nested' us n) := by
  unfold Parser.unnamedStatement
  have hdeclaration : ∀ {P : Prop}, σ.Sim P false Eq
      (do Parser.localDeclaration nested; expect ";")
      (do Parser.localDeclaration nested'; expect ";") :=
    h.localDeclaration.bindEq fun _ => .expect ";" (by simp)
  refine .ite (fun hR => ?_) ?_ (.ite (fun hR => ?_) ?_ ?_)
  · rw [startsWith_and_alike (hts hR).1 (fun halike => halike.isName) (fun hlast => hlast.isName)
      fun h => begins_alike h ":"]
  · refine .bindEq (.resumeAt (List.drop_suffix 2 ts) fun hR => ?_) fun _ => h.sim _
    obtain ⟨hname, hcolon⟩ := Bool.and_eq_true_iff.1 hR.2
    rw [drop_two, drop_two]
    exact tail_of_begins (tail_of_startsWith (hts hR.1).1 (fun hlast => hlast.isName) hname) hcolon
      rfl rfl
  · rw [startsAny_alike (hts hR).1, beginsAnnotations_alike (hts hR).1]
  · refine .bindEq ((Sim.modifiers _).discard.at fun hR => ⟨hR, (hts hR.1).1⟩) fun _ =>
      (h.typeDeclaration fun hR => (hts hR.1).2).bindEq fun _ => .cond hdeclaration
      (.pure fun _ => rfl)
  · refine .bindEq ((h.typeDeclaration fun hR => (hts hR).2).at fun hR => ⟨hR, (hts hR).1⟩) fun _ =>
      .cond (.ite (fun hR => ?_) hdeclaration h.expressionStatement) (.pure fun _ => rfl)
    rw [isLocalDeclaration_alike (hts hR).1]

/-- A statement is simulated. -/
theorem Nests.statement (h : σ.Nests nested nested') :
    σ.Sim R false Eq (Parser.statement nested) (Parser.statement nested') := by
  refine .ahead fun ts us => .split And.right ?_ fun t ts u us hts => ?_
  · exact (Sim.failAhead fun _ _ => rfl).at id
  subst hts
  -- the first token decides what kind of statement is read, and it is alike on both sides
  have halike : ∀ {us' : List Token}, (R ∧ σ.tokens (t :: ts) us') ∧ us' = u :: us →
      σ.tokens (t :: ts) (u :: us) ∧ t.Alike σ.line u := by
    rintro us' ⟨hR, rfl⟩
    exact ⟨hR.2, alike_of_tokens hR.2⟩
  have hskip : ∀ {us' : List Token} {c : Prop},
      σ.SimAt (((R ∧ σ.tokens (t :: ts) us') ∧ us' = u :: us) ∧ c) false Eq (t :: ts) us'
        Parser.skip Parser.skip := Sim.skip.at fun hR => ⟨hR, hR.1.1.2⟩
  refine .ite (fun hR => by rw [(halike hR).2.spells]) (h.block.at fun hR => ⟨hR, hR.1.1.2⟩) <|
    .ite (fun hR => by rw [(halike hR).2.spells]) hskip <| .ite (fun hR => by rw [(halike hR).2.spells]) ?_ <|
    .ite (fun hR => by rw [(halike hR).2.spells]) ?_ <| .ite (fun hR => by rw [(halike hR).2.spells]) ?_ <|
    .ite (fun hR => by rw [(halike hR).2.spells]) ?_ <| .ite (fun hR => by rw [(halike hR).2.spells]) ?_ <|
    .ite (fun hR => by rw [(halike hR).2.spells]) ?_ <| .ite (fun hR => ?_) ?_ <|
    .ite (fun hR => by rw [(halike hR).2.spellsAny]) ?_ <|
    .ite (fun hR => by rw [(halike hR).2.spellsAny]) ?_ ?_
  · exact hskip.bindEq fun _ => h.parenthesized.bindEq fun _ => (h.sim _).bindEq fun _ =>
      (Sim.sees "else").bindEq fun _ => .cond (Sim.skip.bindEq fun _ => h.sim _) (.pure fun _ => rfl)
  · exact (h.forStatement fun hR => (halike hR.1).2.2).at fun hR => ⟨hR, hR.1.1.2⟩
  · exact hskip.bindEq fun _ => h.parenthesized.bindEq fun _ =>
      Sim.bindEq (.record fun hR => .loop (halike hR.1).2.2) fun _ => h.sim _
  · exact hskip.bindEq fun _ => Sim.bindEq (.record fun hR => .loop (halike hR.1).2.2)
      fun _ => (h.sim _).bindEq fun _ => (Sim.expect "while" (by simp)).bindEq fun _ =>
      h.parenthesized.bindEq fun _ => .expect ";" (by simp)
  · exact h.tryStatement.at fun hR => ⟨hR, hR.1.1.2⟩
  · exact hskip.bindEq fun _ => h.parenthesized.bindEq fun _ => h.switchBlock
  -- `synchronized` is a statement only before a parenthesis
  · exact Bool.eq_iff_iff.1 <| begins_and_alike (w := "synchronized") (halike hR).1 rfl rfl fun h =>
      begins_alike h "("
  · exact hskip.bindEq fun _ => h.parenthesized.bindEq fun _ => h.block
  · exact hskip.bindEq fun _ => h.expressionStatement
  · exact hskip.bindEq fun _ => .test startsName_alike (Sim.skip.bindEq fun _ =>
      .expect ";" (by simp)) (.expect ";" (by simp))
  · exact h.unnamedStatement fun hR => ⟨hR.1.2, (halike hR).2.2⟩

end Assay.Source.Simulation
