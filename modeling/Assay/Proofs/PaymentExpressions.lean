import Assay.Proofs.PaymentRules
import Assay.Proofs.ProgressExpressions

/-!
# Expressions pay for what they record

A parameter list pays for its parameters with their names and leaves the mark of its parenthesis. The
parsers of expressions pay for what they record, if the parsers of the constructs inside do: a field or
a method that is selected is paid for with the dot before it, a call with its parenthesis, and the
parameters of a lambda expression with their names.
-/

namespace Assay.Source

open Assay.Source.Parser

variable {t : Token} {ts rest inside : List Token} {held marks : List Mark} {m : Mark}
  {nested : Construct → Parser Unit} {kind : QualifierKind} {closing : List String}

/-! ## Headers -/

/-- A name is taken without a charge. -/
theorem Covers.name : Covers held Parser.name := .silent fun _ => Takes.name

/-- Annotations are covered by the tokens they take. -/
theorem Covers.skipAnnotations : Covers held Parser.skipAnnotations :=
  .silent fun _ => Keeps.skipAnnotations

/-- Modifiers are covered by the tokens they take. -/
theorem Covers.modifiers (allowed : List String) : Covers held (Parser.modifiers allowed) :=
  .silent fun _ => Keeps.modifiers allowed

/-- Modifiers whose names are dropped are covered as well. -/
theorem Covers.discardModifiers (allowed : List String) :
    Covers held (Functor.discard (Parser.modifiers allowed)) := (Covers.modifiers allowed).discard

/-- Type arguments that may be missing are covered. -/
theorem Covers.skipOptionalTypeArguments : Covers held Parser.skipOptionalTypeArguments :=
  .silent fun _ => Keeps.skipOptionalTypeArguments

/-- Dimensions are covered. -/
theorem Covers.dimensions : Covers held Parser.dimensions := .silent fun _ => Keeps.dimensions

/-- A type is covered. -/
theorem Covers.type : Covers held Parser.type := .silent fun _ => Takes.type

/-- The end of a parameter is covered. -/
theorem Covers.parameterEnd (arity : Nat) (varargs receiver : Bool) :
    Covers held (Source.parameterEnd arity varargs receiver) :=
  Covers.dimensions.bind fun _ => .seesJoin (fun _ _ => .pure _) fun hrest seen =>
    (Covers.sees ")").bind fun _ => .when (.failAhead _) (hrest seen)

/-- A parameter pays for its declaration with its name. -/
theorem Covers.parameter (counts : Nat × Bool) : Covers held (Source.parameter counts) := by
  refine (Covers.sees ")").bind fun _ => .cond (.pure _) <| (Covers.discardModifiers _).bind fun _ =>
    Covers.type.bind fun _ => .seesWhen fun ellipsis _ => ?_
  -- a parameter is paid for with its name
  exact .seesJoin (fun receiver _ => Covers.parameterEnd _ _ receiver) fun hrest receiver =>
    Pays.name.bind fun t => (Pays.declareValue .parameter t).bind fun a => hrest receiver a

/-- Parameters pay with the parenthesis that opens them for the fact that is recorded behind
them. -/
theorem Pays.parameters : Pays held (fun _ => .word "(" :: held) Parser.parameters := by
  rw [parameters_eq_iterate]
  exact (Pays.expect "(").bind fun _ => (Covers.iterate Covers.parameter _).bind fun _ =>
    (Covers.expect ")").bind fun _ => .pure _

/-! ## Constructs inside -/

/-- The parsers of the constructs inside pay for what they record. -/
def Solvent (nested : Construct → Parser Unit) : Prop := ∀ c held, Covers held (nested c)

namespace Solvent

/-- An argument list in parentheses pays one opening parenthesis. -/
theorem parenthesized (h : Solvent nested) :
    Pays held (fun _ => .word "(" :: held) (Parser.parenthesized nested) :=
  (Pays.expect "(").bind fun _ => (h _ _).bind fun _ => Covers.expect ")"

/-- A block is covered where the recursion is. -/
theorem block (h : Solvent nested) : Covers held (Parser.block nested) :=
  (Covers.expect "\x7b").bind fun _ => (Covers.untilSees "\x7d" (h _ _)).bind fun _ =>
    Covers.expect "\x7d"

/-- A class body is covered where the recursion is. -/
theorem classBody (h : Solvent nested) : Covers held (Parser.classBody nested) :=
  (Covers.expect "\x7b").bind fun _ => (Covers.untilSees "\x7d" (h _ _)).bind fun _ =>
    Covers.expect "\x7d"

/-- The body of an anonymous class is covered where the recursion is. -/
theorem anonymousBody (h : Solvent nested) : Covers held (Parser.anonymousBody nested) :=
  .within h.classBody

/-- An expression statement is covered where the recursion is. -/
theorem expressionStatement (h : Solvent nested) :
    Covers held (Parser.expressionStatement nested) := (h _ _).bind fun _ => Covers.expect ";"

/-- What follows the label of a case is covered where the recursion is. -/
theorem caseRest (h : Solvent nested) : Covers held (Parser.caseRest nested) :=
  .seesSkip ((Covers.sees "\x7b").bind fun _ => .cond h.block <| (Covers.sees "throw").bind fun _ =>
    .cond (h _ _) h.expressionStatement) (Covers.expect ":")

/-- The block of a switch is covered where the recursion is. -/
theorem switchBlock (h : Solvent nested) : Covers held (Parser.switchBlock nested) := by
  refine (Covers.expect "\x7b").bind fun _ => .bind (Covers.untilSees "\x7d" ?_) fun _ =>
    Covers.expect "\x7d"
  exact .seesSkip ((h _ _).bind fun _ => h.caseRest) (.seesSkip h.caseRest (h _ _))

/-- An array initializer is covered where the recursion is. -/
theorem arrayInitializer (h : Solvent nested) : Covers held (Parser.arrayInitializer nested) := by
  refine (Covers.expect "\x7b").bind fun _ => .bind (Covers.untilSees "\x7d" ?_) fun _ =>
    Covers.expect "\x7d"
  refine (Covers.sees ",").bind fun _ => .cond Covers.skip <| (Covers.sees "\x7b").bind fun _ =>
    .cond (h _ _) <| (h _ _).bind fun _ => .ahead fun ts => .ite (fun _ => Pays.failAhead _ ts)
    fun _ => Pays.pure _ ts

end Solvent

/-! ## Accesses -/

/-- A call of a method of something is told by its parenthesis and the dot before its name. -/
theorem needs_method (hkind : kind ≠ .none) :
    AccessKind.needs .method kind = [.word "(", .word "."] := by
  cases kind with
  | none => exact absurd rfl hkind
  | name | this | super | expression => rfl

namespace Solvent

/-- A call pays for itself with its parenthesis and with the marks it needs beside that. -/
theorem callWith (h : Solvent nested) {name qualifier : String} {line : Nat}
    (hneeds : AccessKind.needs .method kind = .word "(" :: marks) :
    Pays (marks ++ held) (fun _ => held) (Parser.call nested name qualifier kind line) := by
  refine (Pays.silent fun _ => Keeps.argumentsAhead).bind fun arity => .recordBefore ?_
  have hcall : Fact.needs (.access ⟨.method, name, qualifier, kind, line, some arity⟩) =
      .word "(" :: marks := hneeds
  rw [hcall]
  exact h.parenthesized

/-- A call of a method of something. -/
theorem call (h : Solvent nested) (name qualifier : String) (line : Nat) (hkind : kind ≠ .none) :
    Pays (.word "." :: held) (fun _ => held) (Parser.call nested name qualifier kind line) :=
  h.callWith (needs_method hkind)

/-- A call without a qualifier. -/
theorem plainCall (h : Solvent nested) (name : String) (line : Nat) :
    Covers held (Parser.call nested name "" .none line) := by
  have hcall : Pays ([] ++ held) (fun _ => held) (Parser.call nested name "" .none line) :=
    h.callWith rfl
  exact hcall

/-- A selected member spends the dot that stands before it. -/
theorem selected (h : Solvent nested) (qualifier : String) (hkind : kind ≠ .none) :
    Pays (.word "." :: held) (fun _ => held) (Parser.selected nested qualifier kind) :=
  Covers.name.bind fun t => (Covers.sees "(").bind fun _ =>
    .cond (h.call t.text qualifier t.line hkind) (.record _)

/-- An expression at `this` or `super` is covered where the recursion is. -/
theorem thisOrSuper (h : Solvent nested) : Covers held (Parser.thisOrSuper nested) := by
  refine Covers.next.bind fun t => ?_
  have hkind : (if t.text == "this" then QualifierKind.this else QualifierKind.super) ≠ .none := by
    split <;> decide
  refine .ahead fun ts => .ite (fun _ => h.parenthesized.forget ts) fun _ => .ite (fun hdot => ?_)
    fun _ => .ite (fun hdot => ?_) fun _ => Pays.pure _ ts
  · exact (PaysAt.skipWord (Bool.and_eq_true_iff.1 hdot).1).bind fun _ =>
      (Pays.silent fun _ => Takes.skipTypeArguments).bind fun _ => h.selected t.text hkind
  · exact (PaysAt.skipWord (Bool.and_eq_true_iff.1 hdot).1).bind fun _ => h.selected t.text hkind

end Solvent

/-! ## Chains of names -/

/-- Every name of a chain behind the first leaves the dot before it. -/
theorem Pays.chainSegments :
    Pays held (fun names => names.map (fun _ => .word ".") ++ held) Parser.chainSegments := by
  refine .gather fun held => .ahead fun ts => ?_
  let left : Option String → List Mark := fun found => found.toList.map (fun _ => .word ".") ++ held
  have hstop : PaysAt held left ts (Pure.pure none) := Pays.give left none ts
  have hgo : ∀ {dot : Token} {us rest : List Token} {text : String}, ts = dot :: us →
      dot.spells "." → rest <:+ us → PaysAt held left ts (do resumeAt rest; return some text) := by
    rintro dot us rest text rfl hdot hsuffix _ s r ⟨⟩
    have hmark : dot.bears (.word ".") := hdot
    exact (Paid.token hmark us held).trans (.of_suffix hsuffix)
  match ts with
  | [] => exact hstop
  | [_] => exact hstop
  | dot :: t :: rest =>
    refine .ite (fun hdot => .ite (fun hname => ?_) fun _ => .ite (fun _ => ?_) fun _ => hstop)
      fun _ => hstop
    · exact hgo rfl hdot (List.suffix_cons t rest)
    · cases harguments : typeArgumentsRest? 0 (t :: rest) with
      | none => exact hstop
      | some after =>
        cases after with
        | nil => exact hstop
        | cons segment after =>
          refine .ite (fun hname => hgo rfl hdot ?_) fun _ => hstop
          exact (List.suffix_cons segment after).trans (typeArgumentsRest?_suffix harguments)

/-- The field accesses of a chain are told by one dot each. -/
theorem needs_chainFields (line : Nat) (qualifier : String) (names : List String) :
    (chainFields line qualifier names).flatMap Fact.needs = names.map fun _ => .word "." := by
  induction names generalizing qualifier with
  | nil => rfl
  | cons name names ih => exact congrArg (_ :: ·) (ih _)

/-- The fields of a chain spend one dot each. -/
theorem Pays.chainFields (line : Nat) (qualifier : String) (names : List String) :
    Pays (names.map (fun _ => .word ".") ++ held) (fun _ => held)
      (Parser.recordAll (Parser.chainFields line qualifier names)) := by
  rw [← needs_chainFields line qualifier names]
  exact .recordAll _

namespace Solvent

/-- A chain of names is covered where the recursion is. -/
theorem nameChain (h : Solvent nested) : Covers held (Parser.nameChain nested) := by
  refine Covers.name.bind fun first => Pays.chainSegments.bind fun more => .ahead fun ts => ?_
  refine .ite (fun _ => ?_) fun _ => .ite (fun _ => ?_) fun _ => ?_
  · exact .spare _ (.resumeAt (List.drop_suffix 2 ts))
  · -- the last name is that of the method, and the dots before the others pay for the fields
    cases hlast : more.getLast? with
    | none =>
      rw [List.getLast?_eq_none_iff.1 hlast]
      exact (Pays.chainFields _ _ []).bind (fun _ => h.plainCall _ _) ts
    | some last =>
      obtain ⟨fields, rfl⟩ := List.getLast?_eq_some_iff.1 hlast
      rw [List.dropLast_concat, List.map_append, List.append_assoc]
      exact (Pays.chainFields _ _ fields).bind (fun _ => h.call _ _ _ (by decide)) ts
  · refine (Pays.chainFields _ _ _).bind (fun _ => .cond ?_ (.pure _)) ts
    exact Covers.skip.bind fun _ => h.thisOrSuper

/-- A selector is covered where the recursion is. -/
theorem selector (h : Solvent nested) : Covers held (Parser.selector nested) := by
  refine (Pays.expect ".").bind fun _ => Covers.skipOptionalTypeArguments.bind fun _ =>
    .ahead fun ts => ?_
  refine .ite (fun _ => Pays.forget (.pure _) ts) fun _ => .ite (fun _ => Covers.skip.forget ts)
    fun _ => .ite (fun _ => h.thisOrSuper.forget ts) fun _ => h.selected "" (by decide) ts

end Solvent

/-! ## Parts of expressions -/

/-- A type test is covered. -/
theorem Covers.instanceTest : Covers held Parser.instanceTest := by
  refine Covers.skip.bind fun _ => (Covers.discardModifiers _).bind fun _ => Covers.type.bind fun _ =>
    .ahead fun ts => .ite (fun _ => ?_) fun _ => Pays.pure _ ts
  exact Covers.next.bind (fun u => .record (.value u.text)) ts

namespace Solvent

/-- A creation is covered where the recursion is. -/
theorem creation (h : Solvent nested) : Covers held (Parser.creation nested) := by
  refine (Covers.expect "new").bind fun _ => (Pays.silent fun _ => Keeps.createdName).bind fun _ =>
    (Covers.sees "(").bind fun _ => .cond ?_ ?_
  · exact h.parenthesized.forget.bind fun _ => (Covers.sees "\x7b").bind fun _ =>
      .cond h.anonymousBody (.pure _)
  · refine .bind (Covers.repeatWhile ?_) fun _ => (Covers.sees "\x7b").bind fun _ =>
      .cond (h _ _) (.pure _)
    exact .seesSkip ((Covers.sees "]").bind fun _ => .when (h _ _) fun _ =>
      (Covers.expect "]").bind fun _ => .pure _) (.pure _)

end Solvent

/-- What comes after a group was looked at. -/
theorem PaysAt.group {α : Type} {left : α → List Mark} {f : List Token × List Token → Parser α}
    (hf : ∀ l inside close after, ts = l :: (inside ++ close :: after) →
      PaysAt held left ts (f (inside, after))) :
    PaysAt held left ts (Parser.groupAhead >>= f) := by
  intro hproper s r hr
  obtain ⟨a, ha, b, hb, rfl⟩ := bind_eq_ok.1 hr
  obtain ⟨l, us, inside, after, rfl, hsplit, rfl⟩ := groupAhead_eq_ok ha
  obtain ⟨close, rfl⟩ := splitGroup_eq_append hsplit
  exact hf l inside close after rfl hproper s b hb

/-- The name found in a group of lambda parameters is one of its identifiers. -/
theorem length_find?_isName_le (group : List Token) :
    (group.find? (·.isName)).toList.length ≤ supply group .identifier := by
  cases hfind : group.find? (·.isName) with
  | none => simp
  | some t =>
    have hname : t.bears .identifier :=
      (Bool.and_eq_true_iff.1 (List.find?_some hfind : t.isName = true)).1
    exact List.countP_pos_iff.2 ⟨t, List.mem_of_find?_eq_some hfind, hname⟩

/-- Every parameter of a lambda expression is one of the identifiers in its parentheses. -/
theorem length_lambdaParameters_le (angle : Int) (group ts : List Token) :
    (lambdaParameters angle group ts).length ≤
      supply group .identifier + supply ts .identifier := by
  induction ts generalizing angle group with
  | nil =>
    have hgroup := length_find?_isName_le group
    rw [lambdaParameters]
    split
    · omega
    · simp
  | cons t ts ih =>
    have hgroup := length_find?_isName_le group
    obtain ⟨angle', hstep⟩ : ∃ angle', lambdaParameters angle group (t :: ts) =
        if angle' == 0 && t.spellsAny [",", ")"] then
          (group.find? (·.isName)).toList ++ lambdaParameters angle' [] ts
        else lambdaParameters angle' (t :: group) ts := ⟨_, rfl⟩
    rw [hstep, supply_cons]
    split
    · -- the names of the parameter that ends here are not looked at again
      have hrest := ih angle' []
      rw [supply_nil] at hrest
      rw [List.length_append]
      omega
    · have hrest := ih angle' (t :: group)
      rw [supply_cons] at hrest
      omega

/-- Parameters of a lambda expression are paid for with their names, which lie ahead. -/
theorem Paid.lambdaParameters (l close : Token) (inside after : List Token) (held : List Mark) :
    Paid held (l :: (inside ++ close :: after)) [] after
      ((lambdaParameters 0 [] inside).map (fun _ => .identifier) ++ held) := by
  refine ⟨⟨l :: (inside ++ [close]), by simp⟩, fun m => ?_⟩
  have hlength := length_lambdaParameters_le 0 [] inside
  rw [List.count_append, List.map_const', List.count_replicate, demand_nil, supply_cons, supply_append,
    supply_cons]
  by_cases hm : m = .identifier
  · subst hm
    rw [supply_nil] at hlength
    rw [if_pos (beq_self_eq_true _)]
    omega
  · rw [if_neg (by simpa using Ne.symm hm)]
    omega

/-- Declared parameters need one identifier each. -/
theorem needs_declaredValue (owner : String) (xs : List Token) :
    (xs.flatMap (declaredValue .parameter owner)).flatMap Fact.needs =
      xs.map fun _ => .identifier := by
  induction xs with
  | nil => rfl
  | cons x xs ih => exact congrArg (_ :: ·) ih

namespace Solvent

/-- A round of an expression that begins at a parenthesis pays for what it records. -/
theorem fromParenthesis (h : Solvent nested) :
    PaysAt held (fun _ => held) (t :: ts) (Parser.fromParenthesis nested ts) := by
  refine .group fun l inside close after hts => .ite (fun _ => ?_) fun _ => ?_
  · intro _ s r hr
    obtain ⟨a, ha, b, hb, rfl⟩ := bind_eq_ok.1 hr
    have hrun := (forM_declareValue .parameter (lambdaParameters 0 [] inside) s _).symm.trans ha
    cases hrun
    cases hb
    refine Paid.recordBefore ?_
    rw [needs_declaredValue, hts]
    exact .lambdaParameters l close inside after held
  · cases hcast : castRest? ts with
    | none => exact h.parenthesized.forget.bind (fun _ => .pure _) _
    | some operand =>
      exact (PaysAt.resumeAt ((castRest?_suffix hcast).trans (List.suffix_cons t ts))).bind
        fun _ => .pure _

/-- A round of an expression pays for what it records. -/
theorem expressionPart (h : Solvent nested) (stop : List String) (afterArrow : Bool) :
    PaysAt held (fun _ => held) (t :: ts) (Parser.expressionPart nested stop afterArrow t ts) := by
  have hskip : Covers held Parser.skip := .skip
  unfold Parser.expressionPart
  refine .ite (fun _ => h.fromParenthesis.bind fun _ => .pure _) fun _ =>
    .ite (fun _ => hskip.bind (fun _ => .pure _) _) fun _ => ?_
  refine .ite (fun _ => ?_) fun _ => .ite (fun _ => ?_) fun _ => .ite (fun _ => ?_) fun _ =>
    .ite (fun _ => ?_) fun _ => .ite (fun _ => ?_) fun _ => .ite (fun _ => ?_) fun _ =>
    .ite (fun _ => ?_) fun _ => .ite (fun _ => ?_) fun _ => .ite (fun _ => ?_) fun _ => ?_
  · exact hskip.bind (fun _ => (h _ _).bind fun _ => (Covers.expect "]").bind fun _ => .pure _) _
  · exact .ite (fun _ => h.block.bind (fun _ => .pure _) _) fun _ => (h _ _).bind (fun _ => .pure _) _
  · exact hskip.bind (fun _ => Covers.skipOptionalTypeArguments.bind fun _ =>
      Covers.skip.bind fun _ => .pure _) _
  · exact h.selector.bind (fun _ => .pure _) _
  · exact h.creation.bind (fun _ => .pure _) _
  · exact hskip.bind (fun _ => h.parenthesized.forget.bind fun _ => h.switchBlock.bind fun _ =>
      .pure _) _
  · exact h.thisOrSuper.bind (fun _ => .pure _) _
  · exact Covers.instanceTest.bind (fun _ => .pure _) _
  · refine .ite (fun _ => ?_) fun _ => h.nameChain.bind (fun _ => .pure _) _
    exact Pays.name.bind (fun t => (Pays.declareValue .parameter t).bind fun _ => .pure _) _
  · exact hskip.bind (fun _ => .pure _) _

/-- An expression is covered where the recursion is. -/
theorem expression (h : Solvent nested) (stop : List String) :
    Covers held (Parser.expression nested stop) := by
  refine Covers.iterate (fun afterArrow => .ahead fun ts => ?_) false
  cases ts with
  | nil => exact Pays.failAhead _ _
  | cons t ts =>
    exact .ite (fun _ => Pays.pure _ _) fun _ => (h.expressionPart stop afterArrow).bind fun _ => .pure _

end Solvent

end Assay.Source
