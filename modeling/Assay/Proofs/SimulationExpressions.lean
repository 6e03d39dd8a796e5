import Assay.Proofs.SimulationHeader
import Assay.Source.Body

/-!
# Expressions alike

The parsers of expressions run alike on tokens that are read alike, if the parsers of the constructs
inside do.
-/

namespace Assay.Source.Simulation

open Assay.Source.Parser

variable {σ : Simulation} {R : Prop} {last : Bool} {ts us : List Token}
  {nested nested' : Construct → Parser Unit}

/-- The parsers of the constructs inside run alike. -/
def Nests (σ : Simulation) (nested nested' : Construct → Parser Unit) : Prop :=
  ∀ c, σ.Sim True false Eq (nested c) (nested' c)

/-- What is nested is simulated. -/
theorem Nests.sim (h : σ.Nests nested nested') (c : Construct) :
    σ.Sim R false Eq (nested c) (nested' c) := (h c).mono fun _ => trivial

/-- A simulated expression in parentheses is simulated. -/
theorem Nests.parenthesized (h : σ.Nests nested nested') :
    σ.Sim R false Eq (Parser.parenthesized nested) (Parser.parenthesized nested') :=
  (Sim.expect "(" (by simp)).bindEq fun _ => (h.sim _).bindEq fun _ => .expect ")" (by simp)

/-- A block is simulated. -/
theorem Nests.block (h : σ.Nests nested nested') :
    σ.Sim R last Eq (Parser.block nested) (Parser.block nested') :=
  (Sim.expect "\x7b" (by simp)).bindEq fun _ => (Sim.untilSees "\x7d" (h.sim _)).bindEq fun _ =>
    .expect "\x7d" (by simp)

/-- A class body is simulated. -/
theorem Nests.classBody (h : σ.Nests nested nested') :
    σ.Sim R last Eq (Parser.classBody nested) (Parser.classBody nested') :=
  (Sim.expect "\x7b" (by simp)).bindEq fun _ => (Sim.untilSees "\x7d" (h.sim _)).bindEq fun _ =>
    .expect "\x7d" (by simp)

/-- The body of an anonymous class is simulated. -/
theorem Nests.anonymousBody (h : σ.Nests nested nested') :
    σ.Sim R last Eq (Parser.anonymousBody nested) (Parser.anonymousBody nested') :=
  .within (fun _ => rfl) h.classBody

/-- An expression statement is simulated. -/
theorem Nests.expressionStatement (h : σ.Nests nested nested') :
    σ.Sim R last Eq (Parser.expressionStatement nested) (Parser.expressionStatement nested') :=
  (h.sim _).bindEq fun _ => .expect ";" (by simp)

/-- What follows the label of a case is simulated. -/
theorem Nests.caseRest (h : σ.Nests nested nested') :
    σ.Sim R false Eq (Parser.caseRest nested) (Parser.caseRest nested') :=
  (Sim.sees "->").bindEq fun _ => .cond
    (Sim.skip.bindEq fun _ => (Sim.sees "\x7b").bindEq fun _ => .cond h.block <|
      (Sim.sees "throw").bindEq fun _ => .cond (h.sim _) h.expressionStatement)
    (.expect ":" (by simp))

/-- The block of a switch is simulated. -/
theorem Nests.switchBlock (h : σ.Nests nested nested') :
    σ.Sim R last Eq (Parser.switchBlock nested) (Parser.switchBlock nested') := by
  refine (Sim.expect "\x7b" (by simp)).bindEq fun _ => Sim.bindEq (.untilSees "\x7d" ?_) fun _ =>
    .expect "\x7d" (by simp)
  refine (Sim.sees "case").bindEq fun _ => .cond ?_ <| (Sim.sees "default").bindEq fun _ => .cond ?_ ?_
  · exact Sim.skip.bindEq fun _ => (h.sim _).bindEq fun _ => h.caseRest
  · exact Sim.skip.bindEq fun _ => h.caseRest
  · exact h.sim _

/-- An array initializer is simulated. -/
theorem Nests.arrayInitializer (h : σ.Nests nested nested') :
    σ.Sim R false Eq (Parser.arrayInitializer nested) (Parser.arrayInitializer nested') := by
  refine (Sim.expect "\x7b" (by simp)).bindEq fun _ => Sim.bindEq (.untilSees "\x7d" ?_) fun _ =>
    .expect "\x7d" (by simp)
  refine (Sim.sees ",").bindEq fun _ => .cond .skip <| (Sim.sees "\x7b").bindEq fun _ =>
    .cond (h.sim _) <| (h.sim _).bindEq fun _ => .test ?_ (.failAhead fun _ _ => rfl)
      (.pure fun _ => rfl)
  exact fun h => by rw [startsAny_alike h]

/-! ## Accesses -/

/-- The fields of a chain are alike up to their lines. -/
theorem chainFields_alike {m n : Nat} (hline : σ.line m n) (qualifier : String)
    (names : List String) :
    List.Forall₂ (Fact.Alike σ.line) (chainFields m qualifier names)
      (chainFields n qualifier names) := by
  induction names generalizing qualifier with
  | nil => exact .nil
  | cons name names ih => exact .cons (.access hline) (ih _)

/-- The access of a field is simulated where its name is the same. -/
theorem Sim.accessField {m n : Nat} {name name' qualifier : String} {kind : QualifierKind}
    (h : R → name = name' ∧ σ.line m n) :
    σ.Sim R false Eq (Parser.accessField name qualifier kind m)
      (Parser.accessField name' qualifier kind n) :=
  .record fun hR => by
    rw [(h hR).1]
    exact .access (h hR).2

/-- A call is simulated where its name and its qualifier are the same. -/
theorem Nests.call (h : σ.Nests nested nested') {m n : Nat} {name name' qualifier qualifier' : String}
    {kind : QualifierKind}
    (hsame : R → name = name' ∧ qualifier = qualifier' ∧ σ.line m n)
    (hopen : R → begins "(" ts ∧ σ.tokens ts us) :
    σ.SimAt R false Eq ts us (Parser.call nested name qualifier kind m)
      (Parser.call nested' name' qualifier' kind n) := by
  refine (SimAt.argumentsAhead hopen).bindEq fun arity => Sim.bindEq (.record fun hR => ?_) fun _ =>
    h.parenthesized
  obtain ⟨hname, hqualifier, hline⟩ := hsame hR
  rw [hname, hqualifier]
  exact .access hline

/-- A selected member is simulated. -/
theorem Nests.selected (h : σ.Nests nested nested') (qualifier : String) (kind : QualifierKind) :
    σ.Sim R false Eq (Parser.selected nested qualifier kind)
      (Parser.selected nested' qualifier kind) := by
  refine Sim.name.bind fun t u => .choose (fun ts us _ => ?_) ?_
  · exact h.call (fun hR => ⟨hR.1.2.2, rfl, hR.1.2.1.2⟩) And.right
  · exact .accessField fun hR => ⟨hR.2.2, hR.2.1.2⟩

/-- Asking for `this` or `super` is asking for each of them. -/
theorem startsWith_this_or_super (ts : List Token) :
    startsWith (·.spellsAny ["this", "super"]) ts = (begins "this" ts || begins "super" ts) := by
  cases ts with
  | nil => rfl
  | cons t ts => simp

/-- What follows `this` or `super` is simulated. -/
theorem Nests.thisOrSuper (h : σ.Nests nested nested')
    (hts : R → startsWith (·.spellsAny ["this", "super"]) ts ∧ σ.tokens ts us) :
    σ.SimAt R false Eq ts us (Parser.thisOrSuper nested) (Parser.thisOrSuper nested') := by
  unfold Parser.thisOrSuper
  refine (SimAt.nextWord (fun halike => halike.text_of_spellsAny) hts).bind fun t u => ?_
  refine Sim.mono (S := True ∧ t.text = u.text) ?_ fun hR => ⟨trivial, hR.2.2⟩
  generalize t.text = x
  generalize u.text = y
  revert x y
  refine Sim.same fun text => .ahead fun ts us => ?_
  refine .ite (fun hR => ?_) ?_ (.ite (fun hR => ?_) ?_ (.ite (fun hR => ?_) ?_ ?_))
  · rw [begins_alike hR.2]
  · exact h.parenthesized.at fun hR => ⟨hR, hR.1.2⟩
  · rw [begins_and_alike hR.2 rfl rfl fun h => begins_alike h "<"]
  · exact .bindEq (Sim.skip.at fun hR => ⟨hR, hR.1.2⟩) fun _ => Sim.skipTypeArguments.bindEq fun _ =>
      h.selected _ _
  · rw [begins_and_alike hR.2 rfl rfl fun h => startsName_alike h]
  · exact .bindEq (Sim.skip.at fun hR => ⟨hR, hR.1.2⟩) fun _ => h.selected _ _
  · exact .pure (fun _ => rfl) And.right

/-- A choice by whether a test finds something, and the first token after it. -/
theorem SimAt.found {α : Type} {V : α → α → Prop} {o o' : Option (List Token)} {p q : Parser α}
    {f g : Token → List Token → Parser α} :
    (R → Option.Rel σ.tokens o o') → σ.SimAt R last V ts us p q →
    (∀ t rest u rest', o = some (t :: rest) →
      σ.SimAt (R ∧ σ.tokens (t :: rest) (u :: rest')) last V ts us (f t rest) (g u rest')) →
    σ.SimAt R last V ts us (match o with | some (t :: rest) => f t rest | _ => p)
      (match o' with | some (t :: rest) => g t rest | _ => q) := by
  intro hrel hnone hsome
  refine ⟨fun s => ?_, fun hR => ?_⟩
  · match o with
    | none => exact hnone.forward s
    | some [] => exact hnone.forward s
    | some (t :: rest) => exact (hsome t rest t rest rfl).forward s
  · cases hrel hR with
    | none => exact hnone.alike hR
    | @some ts us htokens =>
      rcases σ.head_alike htokens with ⟨rfl, rfl⟩ | ⟨t, rest, u, rest', rfl, rfl, -⟩
      · exact hnone.alike hR
      · exact (hsome t rest u rest' rfl).alike ⟨hR, htokens⟩

/-- The segments of a chain of names are simulated. -/
theorem Sim.chainSegments : σ.Sim R false Eq Parser.chainSegments Parser.chainSegments := by
  refine .gather (.ahead fun ts us => .pair ?_ ?_ (.pure fun _ => rfl) ?_ And.right)
  · intro t u rest hlast
    rw [hlast.spells "." rfl rfl]
    rfl
  · intro t u rest hlast
    rw [hlast.spells "." rfl rfl]
    rfl
  · intro t u ts t' u' us
    have htail : ∀ {P : Prop}, (P ∧ σ.tokens (t :: u :: ts) (t' :: u' :: us)) ∧ t.spells "." →
        σ.tokens (u :: ts) (u' :: us) := fun hR => tail_of_begins hR.1.2 hR.2 rfl rfl
    refine .ite (fun hR => ?_) (.ite (fun hR => ?_) ?_ (.ite (fun hR => ?_) ?_ ?_)) ?_
    · rw [(alike_of_tokens hR.2).spells]
    · rw [(alike_of_tokens (htail hR)).isName]
    · refine .bindEq (.resumeAt (suffix_cons_cons t u ts) fun hR => ?_) fun _ => .pure fun hR => ?_
      · exact tail_of_startsWith (htail hR.1) (fun hlast => hlast.isName) hR.2
      · rw [((alike_of_tokens (htail hR.1)).name hR.2).2]
    · rw [(alike_of_tokens (htail hR)).spells]
    -- type arguments behind a dot belong to the chain only before a name
    · refine .found (fun hR => ?_) (.pure (fun _ => rfl) fun hR => hR.1.1.2)
        fun x rest y rest' hrest => ?_
      · exact typeArgumentsRest?_alike (htail hR.1) 0
      · have hsuffix : rest <:+ t :: u :: ts := ((List.suffix_cons x rest).trans
          (typeArgumentsRest?_suffix hrest)).trans (List.suffix_cons t _)
        refine .ite (fun hR => ?_) ?_ (.pure (fun _ => rfl) fun hR => hR.1.1.1.2)
        · rw [(alike_of_tokens hR.2).isName]
        · refine .bindEq (.resumeAt hsuffix fun hR => ?_) fun _ => .pure fun hR => ?_
          · exact tail_of_startsWith hR.1.2 (fun hlast => hlast.isName) hR.2
          · rw [((alike_of_tokens hR.1.2).name hR.2).2]
    · exact .pure (fun _ => rfl) fun hR => hR.1.2
    · exact .pure (fun _ => rfl) And.right

/-! ## Chains of names -/

/-- A chain of names is simulated. -/
theorem Nests.nameChain (h : σ.Nests nested nested') :
    σ.Sim R false Eq (Parser.nameChain nested) (Parser.nameChain nested') := by
  unfold Parser.nameChain
  refine Sim.name.bind fun t u => Sim.chainSegments.bindEq fun more => .ahead fun ts us => ?_
  have hname : (R ∧ NameAlike σ.line t u) ∧ σ.tokens ts us → t.text = u.text ∧ σ.line t.line u.line :=
    fun hR => ⟨hR.1.2.2, hR.1.2.1.2⟩
  -- a chain ends with a class literal, with a call, or with a field, which `this` may follow
  refine .ite (fun hR => ?_) ?_ (.ite (fun hR => ?_) ?_ ?_)
  · rw [begins_and_alike hR.2 rfl rfl fun h => begins_alike h "class"]
  · refine .resumeAt (List.drop_suffix 2 ts) fun hR => ?_
    rw [drop_two, drop_two]
    exact rest_of_begins_and (w := ".") hR.1.2 rfl rfl (fun hlast => hlast.spells "class" rfl rfl) hR.2
  · rw [begins_alike hR.2]
  · refine .still_bind (fun s => recordAll_apply _ s ts) (fun _ s => recordAll_apply _ s us)
      (fun hR _ _ _ => ?_) ?_
    · rw [(hname hR.1).1]
      exact chainFields_alike (hname hR.1).2 _ _
    · cases more.getLast? with
      | none =>
        exact h.call (fun hR => ⟨(hname hR.1).1, rfl, (hname hR.1).2⟩) fun hR => ⟨hR.2, hR.1.2⟩
      | some last =>
        exact h.call (fun hR => ⟨rfl, by rw [(hname hR.1).1], (hname hR.1).2⟩) fun hR => ⟨hR.2, hR.1.2⟩
  · refine .still_bind (fun s => recordAll_apply _ s ts) (fun _ s => recordAll_apply _ s us)
      (fun hR _ _ _ => ?_) (.ite (fun hR => ?_) ?_ (.pure (fun _ => rfl) And.right))
    · rw [(hname hR).1]
      exact chainFields_alike (hname hR).2 _ _
    · rw [begins_and_alike hR.2 rfl rfl fun h => begins_alike h "this"]
    · refine .skip_bind (p := (·.spells ".")) (fun hR => ?_) (h.thisOrSuper fun hR => ?_)
      · exact ⟨(Bool.and_eq_true_iff.1 hR.2).1, hR.1.2⟩
      · obtain ⟨hdot, hthis⟩ := Bool.and_eq_true_iff.1 hR.2
        exact ⟨by rw [startsWith_this_or_super, hthis, Bool.true_or],
          tail_of_begins hR.1.2 hdot rfl rfl⟩

/-- A selector is simulated. -/
theorem Nests.selector (h : σ.Nests nested nested') :
    σ.Sim R false Eq (Parser.selector nested) (Parser.selector nested') := by
  refine (Sim.expect "." (by simp)).bindEq fun _ => Sim.skipOptionalTypeArguments.bindEq fun _ =>
    .ahead fun ts us => ?_
  refine .ite (fun hR => ?_) ?_ (.ite (fun hR => ?_) ?_ (.ite (fun hR => ?_) ?_ ?_))
  · rw [begins_alike hR.2]
  · exact .pure (fun _ => rfl) fun hR => hR.1.2
  · rw [begins_alike hR.2]
  · exact Sim.skip.at fun hR => ⟨hR, hR.1.2⟩
  · rw [begins_alike hR.2, begins_alike hR.2]
  · exact h.thisOrSuper fun hR => ⟨by rw [startsWith_this_or_super, hR.2], hR.1.2⟩
  · exact (h.selected _ _).at id

/-- The name of a creation is simulated. -/
theorem Sim.createdName : σ.Sim R false Eq Parser.createdName Parser.createdName := by
  refine Sim.skipOptionalTypeArguments.bindEq fun _ => Sim.skipAnnotations.bindEq fun _ =>
    .test ?_ .skip ?_
  · exact fun h => startsWith_alike h fun halike => halike.isPrimitive
  · refine Sim.name.discard.bindEq fun _ => Sim.skipOptionalTypeArguments.bindEq fun _ =>
      .repeatWhile (.ahead fun ts us => ?_)
    refine .ite (fun hR => ?_) ?_ (.pure (fun _ => rfl) And.right)
    · rw [begins_and_alike hR.2 rfl rfl fun h => startsName_alike h]
    · refine .bindEq (.resumeAt (List.drop_suffix 2 ts) fun hR => ?_) fun _ =>
        Sim.skipOptionalTypeArguments.bindEq fun _ => .pure fun _ => rfl
      rw [drop_two, drop_two]
      exact rest_of_begins_and (w := ".") hR.1.2 rfl rfl (fun hlast => hlast.isName) hR.2

/-- A type test is simulated. -/
theorem Sim.instanceTest : σ.Sim R false Eq Parser.instanceTest Parser.instanceTest := by
  refine Sim.skip.bindEq fun _ => (Sim.modifiers _).discard.bindEq fun _ => Sim.type.bindEq fun _ =>
    .ahead fun ts us => ?_
  refine .ite (fun hR => ?_) ?_ (.pure (fun _ => rfl) And.right)
  · rw [startsName_alike hR.2]
  · refine (SimAt.nextName fun hR => ⟨hR.2, hR.1.2⟩).bind fun t u => .record fun hR => ?_
    rw [hR.2.2]
    exact .value _

/-- A choice by whether a test finds something. -/
theorem SimAt.finds {α : Type} {V : α → α → Prop} {o o' : Option (List Token)} {p q : Parser α}
    {f g : List Token → Parser α} :
    (R → Option.Rel σ.tokens o o') → σ.SimAt R last V ts us p q →
    (∀ rest rest', o = some rest → σ.SimAt (R ∧ σ.tokens rest rest') last V ts us (f rest) (g rest')) →
    σ.SimAt R last V ts us (match o with | some rest => f rest | none => p)
      (match o' with | some rest => g rest | none => q) := by
  intro hrel hnone hsome
  refine ⟨fun s => ?_, fun hR => ?_⟩
  · match o with
    | none => exact hnone.forward s
    | some rest => exact (hsome rest rest rfl).forward s
  · cases hrel hR with
    | none => exact hnone.alike hR
    | @some rest rest' htokens => exact (hsome rest rest' rfl).alike ⟨hR, htokens⟩

/-! ## Parts of expressions -/

/-- A round that begins at a parenthesis is simulated. -/
theorem Nests.fromParenthesis (h : σ.Nests nested nested') {t u : Token}
    (hopen : R → t.spells "(" ∧ σ.tokens (t :: ts) (u :: us)) :
    σ.SimAt R false Eq (t :: ts) (u :: us) (Parser.fromParenthesis nested ts)
      (Parser.fromParenthesis nested' us) := by
  unfold Parser.fromParenthesis
  refine .group hopen fun inside rest inside' rest' hsuffix => ?_
  refine .ite (fun hR => ?_) ?_ (.finds (fun hR => ?_) ?_ fun operand operand' hcast => ?_)
  · rw [begins_alike hR.2.2]
  · refine .declareValues_bind (fun hR => lambdaParameters_alike hR.1.2.1 .nil 0) ?_
    exact (SimAt.resumeAt hsuffix fun hR => hR.1.2.2).bindEq fun _ => .pure fun _ => rfl
  · exact castRest?_alike (tail_of_begins (hopen hR.1).2 (hopen hR.1).1 rfl rfl)
  · exact .bindEq (h.parenthesized.at fun hR => ⟨hR, (hopen hR.1).2⟩) fun _ => .pure fun _ => rfl
  · refine .bindEq (.resumeAt ?_ And.right) fun _ => .pure fun _ => rfl
    exact (castRest?_suffix hcast).trans (List.suffix_cons t ts)

/-- A creation is simulated. -/
theorem Nests.creation (h : σ.Nests nested nested') :
    σ.Sim R false Eq (Parser.creation nested) (Parser.creation nested') := by
  refine (Sim.expect "new" (by simp)).bindEq fun _ => Sim.createdName.bindEq fun _ =>
    (Sim.sees "(").bindEq fun _ => .cond ?_ ?_
  · exact h.parenthesized.bindEq fun _ => (Sim.sees "\x7b").bindEq fun _ =>
      .cond h.anonymousBody (.pure fun _ => rfl)
  · refine Sim.bindEq (.repeatWhile ?_) fun _ => (Sim.sees "\x7b").bindEq fun _ =>
      .cond (h.sim _) (.pure fun _ => rfl)
    refine (Sim.sees "[").bindEq fun _ => .cond ?_ (.pure fun _ => rfl)
    exact Sim.skip.bindEq fun _ => (Sim.sees "]").bindEq fun _ => .when (h.sim _) fun _ =>
      (Sim.expect "]" (by simp)).bindEq fun _ => .pure fun _ => rfl

/-- A round of an expression is simulated. -/
theorem Nests.expressionPart (h : σ.Nests nested nested') (stop : List String) (afterArrow : Bool)
    {t u : Token} (hts : R → σ.tokens (t :: ts) (u :: us)) :
    σ.SimAt R false Eq (t :: ts) (u :: us) (Parser.expressionPart nested stop afterArrow t ts)
      (Parser.expressionPart nested' stop afterArrow u us) := by
  have hspells : R → ∀ word, t.spells word = u.spells word := fun hR word =>
    (alike_of_tokens (hts hR)).spells word
  have hskip : σ.SimAt R false Eq (t :: ts) (u :: us) Parser.skip Parser.skip :=
    Sim.skip.at fun hR => ⟨hR, hts hR⟩
  unfold Parser.expressionPart
  -- a round begins with the same word on both sides, so the same form is read
  refine .ite (fun hR => by rw [hspells hR]) ?_ (.ite (fun hR => by rw [hspells hR]) ?_ ?_)
  · exact (h.fromParenthesis fun hR => ⟨hR.2, hts hR.1⟩).bindEq fun _ => .pure fun _ => rfl
  · exact (hskip.mono And.left).bindEq fun _ => .pure fun _ => rfl
  refine .ite (fun hR => by rw [hspells hR]) ?_ <| .ite (fun hR => by rw [hspells hR]) ?_ <|
    .ite (fun hR => by rw [hspells hR]) ?_ <| .ite (fun hR => by rw [hspells hR]) ?_ <|
    .ite (fun hR => by rw [hspells hR]) ?_ <| .ite (fun hR => by rw [hspells hR]) ?_ <|
    .ite (fun hR => by rw [hspells hR, hspells hR]) ?_ <| .ite (fun hR => by rw [hspells hR]) ?_ <|
    .ite (fun hR => by rw [(alike_of_tokens (hts hR)).isName]) ?_ ?_
  · exact (hskip.mono And.left).bindEq fun _ => (h.sim _).bindEq fun _ =>
      (Sim.expect "]" (by simp)).bindEq fun _ => .pure fun _ => rfl
  · refine .ite (fun _ => Iff.rfl) ?_ ?_
    · exact .bindEq (h.block.at fun hR => ⟨hR, hts hR.1.1⟩) fun _ => .pure fun _ => rfl
    · exact .bindEq ((h.sim _).at fun hR => ⟨hR, hts hR.1⟩) fun _ => .pure fun _ => rfl
  · exact (hskip.mono And.left).bindEq fun _ => Sim.skipOptionalTypeArguments.bindEq fun _ =>
      Sim.skip.bindEq fun _ => .pure fun _ => rfl
  · exact .bindEq (h.selector.at fun hR => ⟨hR, hts hR.1⟩) fun _ => .pure fun _ => rfl
  · exact .bindEq (h.creation.at fun hR => ⟨hR, hts hR.1⟩) fun _ => .pure fun _ => rfl
  · exact (hskip.mono And.left).bindEq fun _ => h.parenthesized.bindEq fun _ =>
      h.switchBlock.bindEq fun _ => .pure fun _ => rfl
  · refine .bindEq (h.thisOrSuper fun hR => ⟨?_, hts hR.1⟩) fun _ => .pure fun _ => rfl
    rw [startsWith_this_or_super]
    exact hR.2
  · exact .bindEq (Sim.instanceTest.at fun hR => ⟨hR, hts hR.1⟩) fun _ => .pure fun _ => rfl
  -- a name stands alone before an arrow, or it begins a chain
  · refine .ite (fun hR => ?_) ?_ ?_
    · have htail := tail_of_startsWith (hts hR.1) (fun hlast => hlast.isName) hR.2
      rw [show begins "->" ts = begins "->" us from begins_alike htail "->"]
    · refine .bind (Sim.name.at fun hR => ⟨hR, hts hR.1.1⟩) fun x y => ?_
      exact (Sim.declareValue And.right).bindEq fun _ => .pure fun _ => rfl
    · exact .bindEq (h.nameChain.at fun hR => ⟨hR, hts hR.1⟩) fun _ => .pure fun _ => rfl
  · exact hskip.bindEq fun _ => .pure fun _ => rfl

/-- An expression is simulated. -/
theorem Nests.expression (h : σ.Nests nested nested') (stop : List String) :
    σ.Sim R false Eq (Parser.expression nested stop) (Parser.expression nested' stop) := by
  refine .iterate (fun afterArrow => .ahead fun ts us => .uncons And.right ?_ fun t ts u us => ?_) false
  · exact (Sim.failAhead fun _ _ => rfl).at fun hR => ⟨hR, hR.2⟩
  · refine .ite (fun hR => ?_) (.pure (fun _ => rfl) fun hR => hR.1.2) ?_
    · rw [(alike_of_tokens hR.2).isCloser, (alike_of_tokens hR.2).signTest]
    · exact (h.expressionPart stop afterArrow And.right).bindEq fun _ => .pure fun _ => rfl

end Assay.Source.Simulation
