import Assay.Proofs.Reading
import Assay.Source.CompilationUnit
import Mathlib.Data.Nat.Find

/-!
# Reading with less room

Constructs are read with room for so many that are open at a time. A parser with less room does what
one with more does as long as it can, and gives up for want of room where it cannot: it never goes
wrong in another way and never gives another result. `Imitates` says so of two parsers, and there is a
rule for each way of building parsers. Main statement: every file has a nesting, which is as much room
as it needs; with less the reading is exhausted, with as much or more it is always the same
(`exists_nesting`).
-/

namespace Assay.Source

open Assay.Source.Parser

variable {α β σ : Type} {s : Scope} {ts rest : List Token}

/-- A construct was to be opened for which there was no room left. -/
def Exhausted (o : Except SourceError α) : Prop := ∃ line, o = .error ⟨.exhausted, line⟩

/-- A sequence gives up where its first part does. -/
theorem Exhausted.bind {p : Parser α} {f : α → Parser β} (h : Exhausted (p s ts)) :
    Exhausted ((p >>= f) s ts) := by
  obtain ⟨line, hfails⟩ := h
  exact ⟨line, bind_of_error hfails⟩

/-- A sequence gives up where its second part does, behind the first. -/
theorem Exhausted.behind {p : Parser α} {f : α → Parser β} {a : α} {facts : List Fact}
    (hp : p s ts = .ok ⟨a, facts, rest⟩) (h : Exhausted (f a s rest)) :
    Exhausted ((p >>= f) s ts) := by
  obtain ⟨line, hfails⟩ := h
  exact ⟨line, by rw [bind_of_ok hp, hfails, recording_error]⟩

/-- The first parser gives up for want of room, or its outcome is that of the second. -/
def Imitates (p q : Parser α) : Prop := ∀ s ts, Exhausted (p s ts) ∨ p s ts = q s ts

/-- The first parser of constructs reads with less room than the second. -/
def Roomier (nested nested' : Construct → Parser Unit) : Prop :=
  ∀ c, Imitates (nested c) (nested' c)

namespace Imitates

/-! ## Sequences, choices and loops -/

/-- A parser imitates itself. -/
protected theorem refl (p : Parser α) : Imitates p p := fun _ _ => .inr rfl

/-- Imitations in a row imitate the whole. -/
theorem bind {p q : Parser α} {f g : α → Parser β} (hp : Imitates p q)
    (hf : ∀ a, Imitates (f a) (g a)) : Imitates (p >>= f) (q >>= g) := by
  intro s ts
  rcases hp s ts with hfails | hsame
  · exact .inl hfails.bind
  cases hrun : p s ts with
  | error e => exact .inr ((bind_of_error hrun).trans (bind_of_error (hsame ▸ hrun)).symm)
  | ok a =>
    obtain ⟨value, facts, rest⟩ := a
    -- what the first part recorded stands before an outcome of either kind
    rcases hf value s rest with hfails | hmore
    · exact .inl (.behind hrun hfails)
    · exact .inr (by rw [bind_of_ok hrun, bind_of_ok (hsame ▸ hrun), hmore])

/-- What comes after a part that opens no construct. -/
theorem after (p : Parser α) {f g : α → Parser β} (hf : ∀ a, Imitates (f a) (g a)) :
    Imitates (p >>= f) (p >>= g) :=
  (Imitates.refl p).bind hf

/-- A condition is imitated branch by branch. -/
theorem cond {p p' q q' : Parser α} {c : Prop} [Decidable c] (hp : Imitates p q)
    (hp' : Imitates p' q') : Imitates (if c then p else p') (if c then q else q') := by
  by_cases hc : c
  · rwa [if_pos hc, if_pos hc]
  · rwa [if_neg hc, if_neg hc]

/-- A part that may be missing. -/
theorem when {p q : Parser Unit} {f g : Unit → Parser β} {c : Prop} [Decidable c]
    (hp : Imitates p q) (hf : ∀ a, Imitates (f a) (g a)) :
    Imitates (if c then p >>= f else f ()) (if c then q >>= g else g ()) :=
  cond (hp.bind hf) (hf ())

/-- Inside another type the imitation goes on. -/
theorem within {p q : Parser α} (type : Enclosing) (h : Imitates p q) :
    Imitates (Parser.within type p) (Parser.within type q) :=
  fun s ts => h { s with enclosing := some type } ts

/-- A loop is imitated where each round is. -/
theorem iterate {round round' : σ → Parser (σ ⊕ β)} (h : ∀ a, Imitates (round a) (round' a))
    (a : σ) : Imitates (Parser.iterate round a) (Parser.iterate round' a) := by
  intro s ts
  -- on the number of tokens, since a round that asks for another has to leave fewer of them
  induction hn : ts.length using Nat.strongRecOn generalizing a ts with
  | ind n ih =>
    subst hn
    rcases h a s ts with ⟨line, hfails⟩ | hsame
    · exact .inl ⟨line, iterate_of_error hfails⟩
    cases hrun : round a s ts with
    | error e => exact .inr ((iterate_of_error hrun).trans (iterate_of_error (hsame ▸ hrun)).symm)
    | ok r =>
      rw [hrun] at hsame
      obtain ⟨b | b, facts, rest⟩ := r
      · by_cases hlt : rest.length < ts.length
        · rw [iterate_again hrun hlt, iterate_again hsame.symm hlt]
          rcases ih _ hlt b rest rfl with ⟨line, hfails⟩ | hmore
          · exact .inl ⟨line, by rw [hfails, recording_error]⟩
          · exact .inr (by rw [hmore])
        · exact .inr ((iterate_stalled hrun hlt).trans (iterate_stalled hsame.symm hlt).symm)
      · exact .inr ((iterate_done hrun).trans (iterate_done hsame.symm).symm)

/-- A loop that asks whether to go on is imitated where the question is. -/
theorem repeatWhile {ask ask' : Parser Bool} (h : Imitates ask ask') :
    Imitates (Parser.repeatWhile ask) (Parser.repeatWhile ask') :=
  iterate (fun _ => h.bind fun _ => .refl _) ()

/-- A loop up to a word is imitated where its rounds are. -/
theorem untilSees {p q : Parser Unit} (word : String) (h : Imitates p q) :
    Imitates (Parser.untilSees word p) (Parser.untilSees word q) :=
  repeatWhile <| after _ fun _ => cond (.refl _) (h.bind fun _ => .refl _)

/-- A list behind commas is imitated where its elements are. -/
theorem afterCommas {p q : Parser Unit} (h : Imitates p q) :
    Imitates (Parser.afterCommas p) (Parser.afterCommas q) :=
  repeatWhile <| after _ fun _ => cond (after _ fun _ => h.bind fun _ => .refl _) (.refl _)

end Imitates

namespace Roomier

open Imitates

variable {nested nested' : Construct → Parser Unit}

/-! ## Blocks, bodies and types -/

/-- An argument list opens one level of nesting. -/
theorem parenthesized (h : Roomier nested nested') :
    Imitates (Parser.parenthesized nested) (Parser.parenthesized nested') :=
  after _ fun _ => (h _).bind fun _ => .refl _

/-- A block opens one level of nesting. -/
theorem block (h : Roomier nested nested') :
    Imitates (Parser.block nested) (Parser.block nested') :=
  after _ fun _ => .bind (.untilSees _ (h _)) fun _ => .refl _

/-- A class body opens one level of nesting. -/
theorem classBody (h : Roomier nested nested') :
    Imitates (Parser.classBody nested) (Parser.classBody nested') :=
  after _ fun _ => .bind (.untilSees _ (h _)) fun _ => .refl _

/-- The body of an anonymous class opens the level of its class body. -/
theorem anonymousBody (h : Roomier nested nested') :
    Imitates (Parser.anonymousBody nested) (Parser.anonymousBody nested') :=
  .within _ h.classBody

/-- An enum constant nests its arguments and its body. -/
theorem enumConstant (h : Roomier nested nested') :
    Imitates (Parser.enumConstant nested) (Parser.enumConstant nested') :=
  after _ fun _ => after _ fun _ => cond (.refl _) <| after _ fun _ => after _ fun _ =>
    after _ fun _ => when h.parenthesized fun _ => after _ fun _ => cond h.anonymousBody (.refl _)

/-- The body of an enum nests its constants and its members. -/
theorem enumBody (h : Roomier nested nested') :
    Imitates (Parser.enumBody nested) (Parser.enumBody nested') := by
  refine after _ fun _ => .bind (.repeatWhile ?_) fun _ => after _ fun _ => when (.refl _) fun _ =>
    .bind (.untilSees _ (h _)) fun _ => .refl _
  exact after _ fun _ => after _ fun _ => cond (.refl _) (h.enumConstant.bind fun _ => .refl _)

/-- A type declaration nests its body. -/
theorem typeDeclaration (h : Roomier nested nested') (line : Nat) :
    Imitates (Parser.typeDeclaration nested line) (Parser.typeDeclaration nested' line) := by
  refine after _ fun ts => ?_
  cases typeKeyword? ts with
  | none => exact .refl _
  | some found =>
    obtain ⟨kind, length⟩ := found
    have hbody : Imitates
        (do
          Parser.untilSees "\x7b" skip
          if kind == .enumType then Parser.enumBody nested else Parser.classBody nested)
        (do
          Parser.untilSees "\x7b" skip
          if kind == .enumType then Parser.enumBody nested' else Parser.classBody nested') :=
      after _ fun _ => cond h.enumBody h.classBody
    refine after _ fun _ => after _ fun declared => after _ fun _ => .bind (.within _ ?_) fun _ =>
      .refl _
    exact cond (after _ fun _ => after _ fun _ => hbody) hbody

/-! ## Members -/

/-- An initializer nests its block. -/
theorem initializer (h : Roomier nested nested') :
    Imitates (Parser.initializer nested) (Parser.initializer nested') :=
  after _ fun _ => after _ fun _ => cond (after _ fun _ => after _ fun _ => cond (h _) (h _))
    (.refl _)

/-- The rest of a field nests its initial values. -/
theorem fieldRest (h : Roomier nested nested') (isStatic : Bool) (declared : Token) :
    Imitates (Parser.fieldRest nested isStatic declared)
      (Parser.fieldRest nested' isStatic declared) :=
  after _ fun _ => after _ fun _ => h.initializer

/-- An element value of an annotation nests its array or its expression. -/
theorem elementValue (h : Roomier nested nested') :
    Imitates (Parser.elementValue nested) (Parser.elementValue nested') :=
  after _ fun _ => cond (h _) <| after _ fun _ => cond (.refl _) (h _)

/-- The rest of a method nests its body. -/
theorem methodRest (h : Roomier nested nested') (declared : Token) (isStatic : Bool) (line : Nat) :
    Imitates (Parser.methodRest nested declared isStatic line)
      (Parser.methodRest nested' declared isStatic line) := by
  refine after _ fun counts => after _ fun _ => after _ fun _ => after _ fun s => cond ?_ ?_
  · exact after _ fun _ => cond (after _ fun _ => h.elementValue.bind fun _ => .refl _) (.refl _)
  · exact after _ fun _ => after _ fun _ => cond (.refl _) h.block

/-- A constructor nests its body. -/
theorem constructor (h : Roomier nested nested') (line : Nat) :
    Imitates (Parser.constructor nested line) (Parser.constructor nested' line) :=
  after _ fun _ => after _ fun _ => after _ fun _ => after _ fun _ => h.block

/-- A field or a method nests what either of them does. -/
theorem fieldOrMethod (h : Roomier nested nested') (isStatic : Bool) (line : Nat) :
    Imitates (Parser.fieldOrMethod nested isStatic line)
      (Parser.fieldOrMethod nested' isStatic line) := by
  refine after _ fun _ => after _ fun declared => after _ fun _ => cond (h.methodRest _ _ _) ?_
  refine after _ fun s => after _ fun _ => (h.fieldRest _ _).bind fun _ => ?_
  refine .bind (.afterCommas ?_) fun _ => .refl _
  exact after _ fun _ => h.fieldRest _ _

/-- The rest of a member nests what its kind does. -/
theorem memberRest (h : Roomier nested nested') (isStatic : Bool) (line : Nat) :
    Imitates (Parser.memberRest nested isStatic line) (Parser.memberRest nested' isStatic line) :=
  after _ fun _ => after _ fun _ => after _ fun _ => cond (h.constructor line) <|
    cond (after _ fun _ => h.block) (h.fieldOrMethod isStatic line)

/-- A member nests what it declares. -/
theorem member (h : Roomier nested nested') :
    Imitates (Parser.member nested) (Parser.member nested') := by
  refine after _ fun ts => cond (.refl _) <| cond h.block <| cond (after _ fun _ => h.block) ?_
  exact after _ fun line => after _ fun found => (h.typeDeclaration line).bind fun _ =>
    cond (h.memberRest _ line) (.refl _)

/-! ## Statements -/

/-- A local variable nests its initial value. -/
theorem localVariable (h : Roomier nested nested') :
    Imitates (Parser.localVariable nested) (Parser.localVariable nested') :=
  after _ fun _ => after _ fun _ => h.initializer

/-- A local declaration nests the initial values of its variables. -/
theorem localDeclaration (h : Roomier nested nested') :
    Imitates (Parser.localDeclaration nested) (Parser.localDeclaration nested') :=
  after _ fun _ => h.localVariable.bind fun _ => .afterCommas h.localVariable

/-- An expression statement nests its expression. -/
theorem expressionStatement (h : Roomier nested nested') :
    Imitates (Parser.expressionStatement nested) (Parser.expressionStatement nested') :=
  (h _).bind fun _ => .refl _

/-- The start of a `for` header nests a declaration or expressions. -/
theorem forInitializer (h : Roomier nested nested') :
    Imitates (Parser.forInitializer nested) (Parser.forInitializer nested') :=
  after _ fun _ => after _ fun _ => cond h.localDeclaration (h _)

/-- A `for` statement nests its header and its body. -/
theorem forStatement (h : Roomier nested nested') (line : Nat) :
    Imitates (Parser.forStatement nested line) (Parser.forStatement nested' line) := by
  have hbody (kind : LoopKind) : Imitates
      (do expect ")"; record (.loop ⟨kind, line⟩); nested .statement)
      (do expect ")"; record (.loop ⟨kind, line⟩); nested' .statement) :=
    after _ fun _ => after _ fun _ => h _
  refine after _ fun _ => after _ fun _ => after _ fun ts => cond ?_ ?_
  · exact after _ fun _ => after _ fun _ => after _ fun _ => after _ fun _ => after _ fun _ =>
      (h _).bind fun _ => after _ fun _ => hbody _
  · exact after _ fun _ => when h.forInitializer fun _ => after _ fun _ => after _ fun _ =>
      when (h _) fun _ => after _ fun _ => after _ fun _ => when (h _) fun _ => after _ fun _ =>
      hbody _

/-- A resource nests its expression. -/
theorem resource (h : Roomier nested nested') :
    Imitates (Parser.resource nested) (Parser.resource nested') := by
  have hvalue : Imitates
      (do
        nested (.expression [";", ")"])
        if !(startsWith (·.spellsAny [";", ")"]) (← ahead)) then
          failAhead (.expectedEither ";" ")"))
      (do
        nested' (.expression [";", ")"])
        if !(startsWith (·.spellsAny [";", ")"]) (← ahead)) then
          failAhead (.expectedEither ";" ")")) :=
    (h _).bind fun _ => .refl _
  refine after _ fun _ => cond (.refl _) <| after _ fun _ => after _ fun _ => cond ?_ hvalue
  exact after _ fun _ => after _ fun _ => after _ fun _ => after _ fun _ => hvalue

/-- A `catch` clause nests its block. -/
theorem catchRest (h : Roomier nested nested') (line : Nat) :
    Imitates (Parser.catchRest nested line) (Parser.catchRest nested' line) :=
  after _ fun _ => after _ fun _ => after _ fun _ => after _ fun _ => after _ fun _ =>
    after _ fun _ => after _ fun _ => after _ fun _ => h.block

/-- A `try` statement nests its resources and its blocks. -/
theorem tryStatement (h : Roomier nested nested') :
    Imitates (Parser.tryStatement nested) (Parser.tryStatement nested') := by
  -- resources or not, the same clauses follow
  have hclauses : Imitates
      (do
        Parser.block nested
        Parser.repeatWhile do
          if ← sees "catch" then
            let line ← Parser.line
            skip
            Parser.catchRest nested line
            return true
          return false
        if ← sees "finally" then
          skip
          Parser.block nested)
      (do
        Parser.block nested'
        Parser.repeatWhile do
          if ← sees "catch" then
            let line ← Parser.line
            skip
            Parser.catchRest nested' line
            return true
          return false
        if ← sees "finally" then
          skip
          Parser.block nested') := by
    refine h.block.bind fun _ => .bind (.repeatWhile ?_) fun _ => after _ fun _ =>
      cond (after _ fun _ => h.block) (.refl _)
    exact after _ fun _ => cond (after _ fun line => after _ fun _ => (h.catchRest line).bind
      fun _ => .refl _) (.refl _)
  refine after _ fun _ => after _ fun _ => cond ?_ hclauses
  exact after _ fun _ => .bind (.untilSees _ h.resource) fun _ => after _ fun _ => hclauses

/-- What follows the label of a case nests its statements. -/
theorem caseRest (h : Roomier nested nested') :
    Imitates (Parser.caseRest nested) (Parser.caseRest nested') :=
  after _ fun _ => cond (after _ fun _ => after _ fun _ => cond h.block <| after _ fun _ =>
    cond (h _) h.expressionStatement) (.refl _)

/-- The block of a switch nests its cases. -/
theorem switchBlock (h : Roomier nested nested') :
    Imitates (Parser.switchBlock nested) (Parser.switchBlock nested') := by
  refine after _ fun _ => .bind (.untilSees _ ?_) fun _ => .refl _
  refine after _ fun _ => cond (after _ fun _ => (h _).bind fun _ => h.caseRest) ?_
  exact after _ fun _ => cond (after _ fun _ => h.caseRest) (h _)

/-- A statement told by its first token nests its parts. -/
theorem unnamedStatement (h : Roomier nested nested') (ts : List Token) (line : Nat) :
    Imitates (Parser.unnamedStatement nested ts line)
      (Parser.unnamedStatement nested' ts line) := by
  have hdeclaration : Imitates
      (do Parser.localDeclaration nested; expect ";")
      (do Parser.localDeclaration nested'; expect ";") :=
    h.localDeclaration.bind fun _ => .refl _
  refine cond (after _ fun _ => h _) <| cond ?_ ?_
  · exact after _ fun _ => (h.typeDeclaration line).bind fun _ => cond hdeclaration (.refl _)
  · exact (h.typeDeclaration line).bind fun _ =>
      cond (cond hdeclaration h.expressionStatement) (.refl _)

/-- A statement nests what its kind does. -/
theorem statement (h : Roomier nested nested') :
    Imitates (Parser.statement nested) (Parser.statement nested') := by
  refine after _ fun ts => ?_
  cases ts with
  | nil => exact .refl _
  | cons t rest =>
    refine cond h.block <| cond (.refl _) <| cond ?_ <| cond (h.forStatement _) <| cond ?_ <|
      cond ?_ <| cond h.tryStatement <| cond ?_ <| cond ?_ <|
      cond (after _ fun _ => h.expressionStatement) <| cond (.refl _) (h.unnamedStatement _ _)
    · exact after _ fun _ => h.parenthesized.bind fun _ => (h _).bind fun _ => after _ fun _ =>
        cond (after _ fun _ => h _) (.refl _)
    · exact after _ fun _ => h.parenthesized.bind fun _ => after _ fun _ => h _
    · exact after _ fun _ => after _ fun _ => (h _).bind fun _ => after _ fun _ =>
        h.parenthesized.bind fun _ => .refl _
    · exact after _ fun _ => h.parenthesized.bind fun _ => h.switchBlock
    · exact after _ fun _ => h.parenthesized.bind fun _ => h.block

/-! ## Expressions -/

/-- A call nests its arguments. -/
theorem call (h : Roomier nested nested') (name qualifier : String) (kind : QualifierKind)
    (line : Nat) :
    Imitates (Parser.call nested name qualifier kind line)
      (Parser.call nested' name qualifier kind line) :=
  after _ fun _ => after _ fun _ => h.parenthesized

/-- A selected member nests the arguments of its call. -/
theorem selected (h : Roomier nested nested') (qualifier : String) (kind : QualifierKind) :
    Imitates (Parser.selected nested qualifier kind) (Parser.selected nested' qualifier kind) :=
  after _ fun _ => after _ fun _ => cond (h.call _ _ _ _) (.refl _)

/-- What follows `this` or `super` nests the arguments of its call. -/
theorem thisOrSuper (h : Roomier nested nested') :
    Imitates (Parser.thisOrSuper nested) (Parser.thisOrSuper nested') :=
  after _ fun _ => after _ fun _ => cond h.parenthesized <|
    cond (after _ fun _ => after _ fun _ => h.selected _ _) <|
    cond (after _ fun _ => h.selected _ _) (.refl _)

/-- A chain of names nests the arguments of its call. -/
theorem nameChain (h : Roomier nested nested') :
    Imitates (Parser.nameChain nested) (Parser.nameChain nested') := by
  refine after _ fun first => after _ fun more => after _ fun ts => cond (.refl _) <| cond ?_ ?_
  · refine after _ fun _ => ?_
    cases more.getLast? with
    | none => exact h.call _ _ _ _
    | some last => exact h.call _ _ _ _
  · exact after _ fun _ => cond (after _ fun _ => h.thisOrSuper) (.refl _)

/-- A selector nests what is selected. -/
theorem selector (h : Roomier nested nested') :
    Imitates (Parser.selector nested) (Parser.selector nested') :=
  after _ fun _ => after _ fun _ => after _ fun _ => cond (.refl _) <| cond (.refl _) <|
    cond h.thisOrSuper (h.selected _ _)

/-- A creation nests its arguments, its dimensions and its body. -/
theorem creation (h : Roomier nested nested') :
    Imitates (Parser.creation nested) (Parser.creation nested') := by
  refine after _ fun _ => after _ fun _ => after _ fun _ => cond ?_ ?_
  · exact h.parenthesized.bind fun _ => after _ fun _ => cond h.anonymousBody (.refl _)
  · refine .bind (.repeatWhile ?_) fun _ => after _ fun _ => cond (h _) (.refl _)
    exact after _ fun _ => cond (after _ fun _ => after _ fun _ => when (h _) fun _ => .refl _)
      (.refl _)

/-- An array initializer nests its elements. -/
theorem arrayInitializer (h : Roomier nested nested') :
    Imitates (Parser.arrayInitializer nested) (Parser.arrayInitializer nested') := by
  refine after _ fun _ => .bind (.untilSees _ ?_) fun _ => .refl _
  exact after _ fun _ => cond (.refl _) <| after _ fun _ => cond (h _) <|
    (h _).bind fun _ => .refl _

/-- A round that begins at a parenthesis nests the group. -/
theorem fromParenthesis (h : Roomier nested nested') (rest : List Token) :
    Imitates (Parser.fromParenthesis nested rest) (Parser.fromParenthesis nested' rest) := by
  refine after _ fun group => ?_
  obtain ⟨inside, behind⟩ := group
  refine cond (.refl _) ?_
  cases castRest? rest with
  | none => exact h.parenthesized.bind fun _ => .refl _
  | some operand => exact .refl _

/-- A round of an expression nests its part. -/
theorem expressionPart (h : Roomier nested nested') (stop : List String) (afterArrow : Bool)
    (t : Token) (rest : List Token) :
    Imitates (Parser.expressionPart nested stop afterArrow t rest)
      (Parser.expressionPart nested' stop afterArrow t rest) := by
  have hthen {p q : Parser Unit} (hp : Imitates p q) :
      Imitates (do p; return false) (do q; return false) := hp.bind fun _ => .refl _
  refine cond ((h.fromParenthesis rest).bind fun _ => .refl _) <| cond (.refl _) ?_
  refine cond (after _ fun _ => (h _).bind fun _ => .refl _) <|
    cond (cond (hthen h.block) (hthen (h _))) <| cond (.refl _) <| cond (hthen h.selector) <|
    cond (hthen h.creation) <| cond ?_ <| cond (hthen h.thisOrSuper) <| cond (.refl _) <|
    cond (cond (.refl _) (hthen h.nameChain)) (.refl _)
  exact after _ fun _ => h.parenthesized.bind fun _ => h.switchBlock.bind fun _ => .refl _

/-- An expression nests its parts. -/
theorem expression (h : Roomier nested nested') (stop : List String) :
    Imitates (Parser.expression nested stop) (Parser.expression nested' stop) := by
  refine .iterate (fun afterArrow => after _ fun ts => ?_) false
  cases ts with
  | nil => exact .refl _
  | cons t rest => exact cond (.refl _) ((h.expressionPart _ _ _ _).bind fun _ => .refl _)

/-! ## Constructs and files -/

/-- One construct may be open more. -/
theorem constructStep (h : Roomier nested nested') :
    Roomier (Parser.constructStep nested) (Parser.constructStep nested') := by
  intro c
  cases c with
  | member => exact h.member
  | statement => exact h.statement
  | expression stop => exact h.expression stop
  | arrayInitializer => exact h.arrayInitializer

/-- A top level declaration nests its type. -/
theorem topLevelDeclaration (h : Roomier nested nested') :
    Imitates (Parser.topLevelDeclaration nested) (Parser.topLevelDeclaration nested') :=
  after _ fun _ => cond (.refl _) <| cond (.refl _) <| after _ fun line => after _ fun _ =>
    (h.typeDeclaration line).bind fun _ => .refl _

/-- A file nests its declarations. -/
theorem file (h : Roomier nested nested') :
    Imitates (Parser.file nested) (Parser.file nested') := by
  refine after _ fun _ => after _ fun _ => .repeatWhile ?_
  exact after _ fun _ => cond (.refl _) (h.topLevelDeclaration.bind fun _ => .refl _)

end Roomier

end Assay.Source
