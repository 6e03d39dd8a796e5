import Assay.Proofs.PaymentExpressions
import Assay.Proofs.TypeDeclaration

/-!
# Statements and members pay for what they record

The parsers of statements, members and declarations of types pay for what they record, if the parsers
of the constructs inside do; so those of all constructs do, by induction on the depth. A loop is paid
for with its keyword, and a `do` loop also with the `while` behind its body.
-/

namespace Assay.Source

open Assay.Source.Parser

variable {t : Token} {ts : List Token} {held : List Mark} {nested : Construct → Parser Unit}
  {kind : DeclarationKind} {length : Nat}

/-- A type declaration needs one identifier. -/
theorem needs_typeKeyword? (h : typeKeyword? ts = some (kind, length)) :
    kind.needs = [.identifier] := by
  cases TypeKeyword.of_eq_some h <;> rfl

namespace Solvent

/-! ## Declarations of types -/

/-- An enum constant is covered where the recursion is. -/
theorem enumConstant (h : Solvent nested) : Covers held (Parser.enumConstant nested) := by
  refine Covers.skipAnnotations.bind fun _ => (Covers.sees ",").bind fun _ => .cond Covers.skip ?_
  exact Covers.name.bind fun t => (Pays.record (.value t.text)).bind fun _ =>
    (Covers.sees "(").bind fun _ => .when h.parenthesized.forget fun _ =>
    (Covers.sees "\x7b").bind fun _ => .cond h.anonymousBody (.pure _)

/-- The body of an enum is covered where the recursion is. -/
theorem enumBody (h : Solvent nested) : Covers held (Parser.enumBody nested) := by
  refine (Covers.expect "\x7b").bind fun _ => .bind (Covers.repeatWhile ?_) fun _ =>
    .seesWhen fun _ _ => (Covers.untilSees "\x7d" (h _ _)).bind fun _ => Covers.expect "\x7d"
  exact (Covers.sees ";").bind fun _ => (Covers.sees "\x7d").bind fun _ => .cond (.pure _) <|
    h.enumConstant.bind fun _ => .pure _

/-- The rest of a type declaration is covered where the recursion is. -/
theorem typeRest (h : Solvent nested) (kind : DeclarationKind) :
    Covers held (Source.typeRest nested kind) := by
  have hbody : Covers held (do
      untilSees "\x7b" Parser.skip
      if kind == .enumType then Parser.enumBody nested else Parser.classBody nested) :=
    (Covers.untilSees "\x7b" .skip).bind fun _ => .cond h.enumBody h.classBody
  have hparameters : Covers held (Functor.discard Parser.parameters) := Pays.parameters.forget.discard
  exact .cond (Covers.skipOptionalTypeArguments.bind fun _ => hparameters.bind fun _ => hbody) hbody

/-- A type declaration pays for itself with its name. -/
theorem typeDeclaration (h : Solvent nested) (line : Nat) :
    Covers held (Parser.typeDeclaration nested line) := by
  rw [typeDeclaration_eq]
  refine .ahead fun ts => ?_
  cases hkeyword : typeKeyword? ts with
  | none => exact Pays.pure _ _
  | some found =>
    obtain ⟨kind, length⟩ := found
    have hdeclare : ∀ (t : Token), Pays (.identifier :: held) (fun _ => held)
        (declare kind t.text line) := by
      intro t
      have hneeds := needs_typeKeyword? hkeyword
      have hpays : Pays (kind.needs ++ held) (fun _ => held) (declare kind t.text line) :=
        .declareCallable
      rwa [hneeds] at hpays
    refine PaysAt.bind ?_ fun _ => .pure _
    exact (PaysAt.resumeAt (List.drop_suffix length ts)).bind fun _ => Pays.name.bind fun t =>
      (hdeclare t).bind fun _ => .within (h.typeRest kind)

/-! ## Variables and loops -/

/-- An initializer is covered where the recursion is. -/
theorem initializer (h : Solvent nested) : Covers held (Parser.initializer nested) :=
  Covers.dimensions.bind fun _ => .seesSkip ((Covers.sees "\x7b").bind fun _ =>
    .cond (h _ _) (h _ _)) (.pure _)

/-- A local variable pays for its declaration with its name. -/
theorem localVariable (h : Solvent nested) : Covers held (Parser.localVariable nested) :=
  Pays.name.bind fun t => (Pays.declareValue .variableDeclarator t).bind fun _ => h.initializer

/-- A local declaration is covered where the recursion is. -/
theorem localDeclaration (h : Solvent nested) : Covers held (Parser.localDeclaration nested) :=
  Covers.type.bind fun _ => h.localVariable.bind fun _ => Covers.afterCommas h.localVariable

/-- The start of a `for` header is covered where the recursion is. -/
theorem forInitializer (h : Solvent nested) : Covers held (Parser.forInitializer nested) :=
  (Covers.modifiers _).bind fun _ => .ahead fun ts => .ite (fun _ => h.localDeclaration ts)
    fun _ => h _ _ ts

/-- A `for` statement pays for its loop with its word. -/
theorem forStatement (h : Solvent nested) (line : Nat) :
    Covers held (Parser.forStatement nested line) := by
  -- what is held behind the header is the keyword, which either kind of loop needs
  have hbody : ∀ kind : LoopKind, Pays (kind.needs ++ held) (fun _ => held)
      (do expect ")"; record (.loop ⟨kind, line⟩); nested .statement) := fun kind =>
    (Covers.expect ")").bind fun _ => (Pays.record (.loop ⟨kind, line⟩)).bind fun _ => h _ _
  let left : LoopKind → List Mark := fun kind => kind.needs ++ held
  refine (Pays.expect "for").bind fun _ => (Covers.expect "(").bind fun _ =>
    .ahead fun ts => .ite (fun _ => ?_) fun _ => ?_
  · exact (Covers.discardModifiers _).bind (fun _ => Covers.type.bind fun _ => Pays.name.bind fun t =>
      (Pays.declareValue .variableDeclarator t).bind fun _ => (Covers.expect ":").bind fun _ =>
      (h _ _).bind fun _ => (Pays.give left .forEachLoop).bind hbody) ts
  · exact (Covers.sees ";").bind (fun _ => .when h.forInitializer fun _ =>
      (Covers.expect ";").bind fun _ => (Covers.sees ";").bind fun _ => .when (h _ _) fun _ =>
      (Covers.expect ";").bind fun _ => (Covers.sees ")").bind fun _ => .when (h _ _) fun _ =>
      (Pays.give left .forLoop).bind hbody) ts

/-- A resource is covered where the recursion is. -/
theorem resource (h : Solvent nested) : Covers held (Parser.resource nested) := by
  have hrest : Covers held (do
      nested (.expression [";", ")"])
      if !(startsWith (·.spellsAny [";", ")"]) (← ahead)) then
        failAhead (.expectedEither ";" ")")) :=
    (h _ _).bind fun _ => .ahead fun ts => .ite (fun _ => Pays.failAhead _ ts) fun _ => Pays.pure _ ts
  refine (Covers.sees ";").bind fun _ => .cond Covers.skip <| (Covers.modifiers _).bind fun _ =>
    .ahead fun ts => .ite (fun _ => ?_) fun _ => hrest ts
  exact Covers.type.bind (fun _ => Pays.name.bind fun t =>
    (Pays.declareValue .variableDeclarator t).bind fun _ => (Covers.expect "=").bind fun _ => hrest) ts

/-- A `catch` clause spends the word that stands before it. -/
theorem catchRest (h : Solvent nested) (line : Nat) :
    Pays (.word "catch" :: held) (fun _ => held) (Parser.catchRest nested line) := by
  refine (Covers.expect "(").bind fun _ => (Covers.discardModifiers _).bind fun _ => Covers.type.bind
    fun _ => .bind (Covers.repeatWhile ?_) fun _ => Pays.name.bind fun t =>
    (Pays.declareValue .parameter t).bind fun _ => (Covers.expect ")").bind fun _ =>
    (Pays.record (.catchClause line)).bind fun _ => h.block
  exact .seesSkip (Covers.type.bind fun _ => .pure _) (.pure _)

/-- A `try` statement is covered where the recursion is. -/
theorem tryStatement (h : Solvent nested) : Covers held (Parser.tryStatement nested) := by
  have hrest : Covers held (do
      Parser.block nested
      repeatWhile do
        if ← sees "catch" then
          let line ← line
          skip
          Parser.catchRest nested line
          return true
        return false
      if ← sees "finally" then
        skip
        Parser.block nested) := by
    refine h.block.bind fun _ => .bind (Covers.repeatWhile ?_) fun _ => .seesSkip h.block (.pure _)
    refine .choose (fun ts hts => .line_bind fun line => ?_) (.pure _)
    exact (PaysAt.skipWord hts).bind fun _ => (h.catchRest line).bind fun _ => .pure _
  refine (Covers.expect "try").bind fun _ => .seesSkip ?_ hrest
  exact (Covers.untilSees ")" h.resource).bind fun _ => (Covers.expect ")").bind fun _ => hrest

/-! ## Statements -/

/-- A statement told by its first token pays for what it records. -/
theorem unnamedStatement (h : Solvent nested) (line : Nat) (ts : List Token) :
    PaysAt held (fun _ => held) ts (Parser.unnamedStatement nested ts line) := by
  have hdeclaration : Covers held (do Parser.localDeclaration nested; expect ";") :=
    h.localDeclaration.bind fun _ => Covers.expect ";"
  refine .ite (fun _ => ?_) fun _ => .ite (fun _ => ?_) fun _ => ?_
  · exact (PaysAt.resumeAt (List.drop_suffix 2 ts)).bind fun _ => h _ _
  · exact (Covers.discardModifiers _).bind (fun _ => (h.typeDeclaration line).bind fun _ =>
      .cond hdeclaration (.pure _)) ts
  · exact (h.typeDeclaration line).bind (fun _ => .cond (.cond hdeclaration h.expressionStatement)
      (.pure _)) ts

/-- A statement is covered where the recursion is. -/
theorem statement (h : Solvent nested) : Covers held (Parser.statement nested) := by
  have hskip : Covers held Parser.skip := .skip
  refine .ahead fun ts => ?_
  cases ts with
  | nil => exact Pays.failAhead _ _
  | cons t ts =>
    refine .ite (fun _ => h.block _) fun _ => .ite (fun _ => hskip _) fun _ =>
      .ite (fun _ => ?_) fun _ => .ite (fun _ => h.forStatement _ _) fun _ => .ite (fun ht => ?_)
      fun _ => .ite (fun ht => ?_) fun _ => .ite (fun _ => h.tryStatement _) fun _ =>
      .ite (fun _ => ?_) fun _ => .ite (fun _ => ?_) fun _ => .ite (fun _ => ?_) fun _ =>
      .ite (fun _ => ?_) fun _ => h.unnamedStatement _ _
    · exact hskip.bind (fun _ => h.parenthesized.forget.bind fun _ => (h _ _).bind fun _ =>
        .seesSkip (h _ _) (.pure _)) _
    · exact (PaysAt.skipSpelled ht).bind fun _ => h.parenthesized.forget.bind fun _ =>
        (Pays.record (.loop ⟨.whileLoop, t.line⟩)).bind fun _ => h _ _
    · -- the loop is recorded before the other of its two words is read
      exact (PaysAt.skipSpelled ht).bind fun _ => .recordBefore <|
        (h _ _).bind fun _ => (Pays.expect "while").bind fun _ => h.parenthesized.forget.bind fun _ =>
        Covers.expect ";"
    · exact hskip.bind (fun _ => h.parenthesized.forget.bind fun _ => h.switchBlock) _
    · exact hskip.bind (fun _ => h.parenthesized.forget.bind fun _ => h.block) _
    · exact hskip.bind (fun _ => h.expressionStatement) _
    · exact hskip.bind (fun _ => .ahead fun ts => .ite (fun _ => hskip.bind
        (fun _ => Covers.expect ";") ts) fun _ => Covers.expect ";" ts) _

/-! ## Members -/

/-- The rest of a field is covered where the recursion is. -/
theorem fieldRest (h : Solvent nested) (isStatic : Bool) (t : Token) :
    Covers held (Parser.fieldRest nested isStatic t) :=
  (Pays.record (.value t.text)).bind fun _ => (Pays.record (.field t.text isStatic)).bind fun _ =>
    h.initializer

/-- An element value of an annotation is covered where the recursion is. -/
theorem elementValue (h : Solvent nested) : Covers held (Parser.elementValue nested) :=
  (Covers.sees "\x7b").bind fun _ => .cond (h _ _) <| (Covers.sees "@").bind fun _ =>
    .cond Covers.skipAnnotations (h _ _)

/-- A method pays for itself with its name, which was read before, and its parenthesis. -/
theorem methodRest (h : Solvent nested) (t : Token) (isStatic : Bool) (line : Nat) :
    Pays (.identifier :: held) (fun _ => held) (Parser.methodRest nested t isStatic line) := by
  refine Pays.parameters.bind fun _ => Covers.dimensions.bind fun _ =>
    (Pays.silent fun _ => Keeps.throwsClause).bind fun _ => Covers.scope.bind fun _ => .cond ?_ ?_
  · refine .spare [.word "(", .identifier] ?_
    exact .seesSkip (h.elementValue.bind fun _ => Covers.expect ";") (Covers.expect ";")
  · exact Pays.declareCallable.bind fun _ => (Covers.sees ";").bind fun _ => .cond Covers.skip h.block

/-- A constructor pays for its declaration with its name. -/
theorem constructor (h : Solvent nested) (line : Nat) :
    Covers held (Parser.constructor nested line) :=
  Pays.name.bind fun _ => Pays.parameters.bind fun _ => Pays.declareCallable.bind fun _ =>
    (Pays.silent fun _ => Keeps.throwsClause).bind fun _ => h.block

/-- A field or a method pays for its declaration with its name. -/
theorem fieldOrMethod (h : Solvent nested) (isStatic : Bool) (line : Nat) :
    Covers held (Parser.fieldOrMethod nested isStatic line) := by
  have hdeclare : ∀ (isStatic : Bool) (t : Token), Pays (.identifier :: held) (fun _ => held)
      (declare (if isStatic then .staticField else .instanceField) t.text line) := by
    intro isStatic t
    cases isStatic <;> exact Pays.declareCallable
  refine Covers.type.bind fun _ => Pays.name.bind fun t => (Covers.sees "(").bind fun _ =>
    .cond (h.methodRest t isStatic line) <| Covers.scope.bind fun _ => (hdeclare _ t).bind fun _ =>
    (h.fieldRest _ t).bind fun _ => .bind (Covers.afterCommas ?_) fun _ => Covers.expect ";"
  exact Covers.name.bind fun t => h.fieldRest _ t

/-- The rest of a member is covered where the recursion is. -/
theorem memberRest (h : Solvent nested) (isStatic : Bool) (line : Nat) :
    Covers held (Parser.memberRest nested isStatic line) := by
  have hskip : Covers held Parser.skip := .skip
  exact Covers.skipOptionalTypeArguments.bind fun _ => Covers.scope.bind fun s => .ahead fun ts =>
    .ite (fun _ => h.constructor line ts) fun _ => .ite (fun _ => hskip.bind (fun _ => h.block) ts)
    fun _ => h.fieldOrMethod isStatic line ts

/-- A member is covered where the recursion is. -/
theorem member (h : Solvent nested) : Covers held (Parser.member nested) := by
  have hskip : Covers held Parser.skip := .skip
  refine .ahead fun ts => .ite (fun _ => hskip ts) fun _ => .ite (fun _ => h.block ts) fun _ =>
    .ite (fun _ => hskip.bind (fun _ => h.block) ts) fun _ => ?_
  exact Covers.line.bind (fun line => (Covers.modifiers memberModifiers).bind fun _ =>
    (h.typeDeclaration line).bind fun _ => .cond (h.memberRest _ line) (.pure _)) ts

/-! ## Constructs -/

/-- One level of nesting is covered where the next one is. -/
theorem constructStep (h : Solvent nested) : Solvent (Parser.constructStep nested) := by
  intro c held
  cases c with
  | member => exact h.member
  | statement => exact h.statement
  | expression stop => exact h.expression stop
  | arrayInitializer => exact h.arrayInitializer

end Solvent

/-- All constructs pay for what they record, however deep they are nested. -/
theorem solvent_construct (depth : Nat) : Solvent (construct depth) := by
  induction depth with
  | zero => exact fun c held => Covers.line.bind fun _ => .failOn _ _
  | succ depth ih => exact ih.constructStep

end Assay.Source
