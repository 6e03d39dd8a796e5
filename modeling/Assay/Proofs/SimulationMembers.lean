import Assay.Proofs.SimulationStatements

/-!
# Members alike

The parsers of members, and with them those of all constructs, run alike on tokens that are read
alike. A member may be the last thing that the two runs have in common.
-/

namespace Assay.Source.Simulation

open Assay.Source.Parser

variable {σ : Simulation} {R : Prop} {last : Bool} {ts us : List Token} {m n : Nat}
  {nested nested' : Construct → Parser Unit}

/-! ## Fields, methods and constructors -/

theorem Nests.fieldRest (h : σ.Nests nested nested') (isStatic : Bool) {t u : Token}
    (ht : R → NameAlike σ.line t u) :
    σ.Sim R false Eq (Parser.fieldRest nested isStatic t) (Parser.fieldRest nested' isStatic u) := by
  refine Sim.bindEq (.record fun hR => ?_) fun _ => Sim.bindEq (.record fun hR => ?_) fun _ =>
    h.initializer
  · rw [(ht hR).2]
    exact .value _
  · rw [(ht hR).2]
    exact .field _ _

theorem Nests.elementValue (h : σ.Nests nested nested') :
    σ.Sim R false Eq (Parser.elementValue nested) (Parser.elementValue nested') :=
  (Sim.sees "\x7b").bindEq fun _ => .cond (h.sim _) <| (Sim.sees "@").bindEq fun _ =>
    .cond .skipAnnotations (h.sim _)

theorem Nests.methodRest (h : σ.Nests nested nested') {t u : Token} (isStatic : Bool)
    (ht : R → NameAlike σ.line t u ∧ σ.line m n) :
    σ.Sim R last Eq (Parser.methodRest nested t isStatic m)
      (Parser.methodRest nested' u isStatic n) := by
  refine Sim.parameters.bindEq fun counts => Sim.dimensions.bindEq fun _ =>
    Sim.throwsClause.bindEq fun _ => Sim.scope.bind fun s s' => .ite (fun hR => ?_) ?_ ?_
  · rw [Scope.ownerKind, Scope.ownerKind, hR.2.1]
  · exact (Sim.sees "default").bindEq fun _ => .detour (.expect ";" (by simp)) fun hrest =>
      Sim.skip.bindEq fun _ => h.elementValue.bindEq fun _ => hrest
  · exact Sim.bindEq (.declareCallable fun hR => ⟨(ht hR.1).1.2, (ht hR.1).2⟩) fun _ =>
      .choose (fun _ _ hend => .skip hend (fun hR => hR.2.2) fun _ => .inl rfl) h.block

theorem Nests.constructor (h : σ.Nests nested nested') (hline : R → σ.line m n) :
    σ.Sim R last Eq (Parser.constructor nested m) (Parser.constructor nested' n) := by
  refine Sim.name.bind fun t u => Sim.parameters.bindEq fun counts => Sim.bindEq
    (.declareCallable fun hR => ⟨hR.2.2, hline hR.1⟩) fun _ => Sim.throwsClause.bindEq fun _ => h.block

theorem Nests.fieldOrMethod (h : σ.Nests nested nested') (isStatic : Bool) (hline : R → σ.line m n) :
    σ.Sim R last Eq (Parser.fieldOrMethod nested isStatic m)
      (Parser.fieldOrMethod nested' isStatic n) := by
  refine Sim.type.bindEq fun _ => Sim.name.bind fun t u => (Sim.sees "(").bindEq fun _ =>
    .cond (h.methodRest isStatic fun hR => ⟨hR.2, hline hR.1⟩) (Sim.scope.bind fun s s' => ?_)
  refine Sim.mono (S := (R ∧ NameAlike σ.line t u) ∧ s.ownerKind = s'.ownerKind) ?_ fun hR =>
    ⟨hR.1, by rw [Scope.ownerKind, Scope.ownerKind, hR.2.1]⟩
  generalize s.ownerKind = kind
  generalize s'.ownerKind = kind'
  revert kind kind'
  refine Sim.same fun kind => Sim.bindEq (.declareCallable fun hR => ⟨hR.2.2, hline hR.1⟩) fun _ =>
    (h.fieldRest _ And.right).bindEq fun _ => Sim.bindEq (.afterCommas ?_) fun _ =>
      .expect ";" (by simp)
  exact Sim.name.bind fun t u => h.fieldRest _ And.right

theorem Nests.memberRest (h : σ.Nests nested nested') (isStatic : Bool) (hline : R → σ.line m n) :
    σ.Sim R last Eq (Parser.memberRest nested isStatic m)
      (Parser.memberRest nested' isStatic n) := by
  refine Sim.skipOptionalTypeArguments.bindEq fun _ => Sim.scope.bind fun s s' => ?_
  -- the scopes differ by their last lines only, so owner and kind are the same on both sides
  refine Sim.mono (S := (R ∧ s.owner = s'.owner) ∧ s.ownerKind = s'.ownerKind) ?_ fun hR =>
    ⟨⟨hR.1, by rw [Scope.owner, Scope.owner, hR.2.1]⟩,
      by rw [Scope.ownerKind, Scope.ownerKind, hR.2.1]⟩
  generalize s.ownerKind = kind
  generalize s'.ownerKind = kind'
  generalize s.owner = owner
  generalize s'.owner = owner'
  revert kind kind'
  refine Sim.same fun kind => ?_
  revert owner owner'
  refine Sim.same fun owner => .ahead fun ts us => ?_
  -- whether the constructor of the owner stands first is asked of the text of a name
  have hown : ∀ {t u : Token}, t.Alike σ.line u →
      (t.isName && t.text == owner) = (u.isName && u.text == owner) := by
    intro t u halike
    rw [← halike.isName]
    cases hname : t.isName with
    | false => rfl
    | true => rw [(halike.name hname).2]
  have hlast : ∀ {t : Token}, t.IsLast → (t.isName && t.text == owner) = false := by
    intro t hlast
    rw [hlast.isName, Bool.false_and]
  refine .ite (fun hR => ?_) ?_ (.ite (fun hR => ?_) ?_ ?_)
  · rw [startsWith_and_alike hR.2 hown hlast fun h => begins_alike h "("]
  · exact (h.constructor fun hR => hline hR.1.1).at fun hR => ⟨hR, hR.1.2⟩
  · rw [Bool.and_right_comm, startsWith_and_alike hR.2 hown hlast fun h => begins_alike h "\x7b",
      Bool.and_right_comm]
  · exact .bindEq (Sim.skip.at fun hR => ⟨hR, hR.1.2⟩) fun _ => h.block
  · exact (h.fieldOrMethod isStatic hline).at id

theorem Nests.member (h : σ.Nests nested nested') :
    σ.Sim R last Eq (Parser.member nested) (Parser.member nested') := by
  refine .ahead fun ts us => ?_
  refine .branch (fun hR => ?_) (fun hend => ?_) <| .ite (fun hR => ?_) ?_ <|
    .ite (fun hR => ?_) ?_ ?_
  · rw [begins_alike hR.2]
  · exact .skip hend And.right fun _ => .inl rfl
  · rw [begins_alike hR.2]
  · exact h.block.at fun hR => ⟨hR, hR.1.2⟩
  · rw [begins_and_alike hR.2 rfl rfl fun h => begins_alike h "\x7b"]
  · exact .bindEq (Sim.skip.at fun hR => ⟨hR, hR.1.2⟩) fun _ => h.block
  · refine .bind (Sim.line.at id) fun m n => (Sim.modifiers _).bindEq fun found => ?_
    rw [typeDeclaration_orElse, typeDeclaration_orElse]
    refine .ahead fun ts us => .congr (fun hR => by rw [← typeKeyword?_alike hR.2]) ?_
    cases hkeyword : typeKeyword? ts with
    | none => exact (h.memberRest _ fun hR => hR.2).at id
    | some found =>
      obtain ⟨kind, length⟩ := found
      exact h.typeFrom fun hR => ⟨hR.2, hkeyword, hR.1.2⟩

/-! ## Constructs -/

theorem Nests.constructStep (h : σ.Nests nested nested') :
    σ.Nests (Parser.constructStep nested) (Parser.constructStep nested') := by
  intro c
  cases c with
  | member => exact h.member
  | statement => exact h.statement
  | expression stop => exact h.expression stop
  | arrayInitializer => exact h.arrayInitializer

/-- A parser of constructs that may nest deeper runs alike, unless failures have to come alike. -/
theorem nests_construct {depth depth' : Nat} (hdepth : depth ≤ depth')
    (hstrict : σ.strict → depth = depth') :
    σ.Nests (Parser.construct depth) (Parser.construct depth') := by
  induction depth generalizing depth' with
  | zero =>
    intro c ts us
    refine ⟨fun s r hr => ?_, fun hR s s' hs hstrict' => ?_⟩
    · cases hr
    · rw [← hstrict hstrict']
      exact ⟨_, rfl, rfl, lineAt_alike hs hR.2⟩
  | succ depth ih =>
    cases depth' with
    | zero => omega
    | succ depth' => exact (ih (by omega) fun h => by have := hstrict h; omega).constructStep

end Assay.Source.Simulation
