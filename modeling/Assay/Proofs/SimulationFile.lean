import Assay.Proofs.FrontEnd
import Assay.Proofs.SharedStart

/-!
# Files alike

The parser of a whole file runs alike on tokens that are alike one by one. Main statement: two such
files are both read, with facts that differ in their lines only, or both fail, with the same kind of
fault (`factsOf_alike`).
-/

namespace Assay.Source

open Assay.Source.Parser

variable {line : Nat → Nat → Prop} {strict R : Prop} {last : Bool} {ts us : List Token}
  {nested nested' : Construct → Parser Unit}

/-! ## The parts of a file -/

/-- Reads a package clause behind its annotations. -/
def packageClause : Parser Unit := do
  let line ← Parser.line
  skip
  let declared ← dottedName
  expect ";"
  declare .package declared line

/-- The package clause comes behind annotations, or there is none. -/
theorem packageDeclaration_eq : Parser.packageDeclaration = (do
    skipAnnotations
    if ← sees "package" then packageClause) := rfl

/-- Reads a type declaration with its modifiers. -/
def modifiedType (nested : Construct → Parser Unit) : Parser Unit := do
  let line ← Parser.line
  discard (modifiers memberModifiers)
  if !(← typeDeclaration nested line) then failAhead .expectedType

/-- The forms of a declaration at the top of a file. -/
theorem topLevelDeclaration_eq (nested : Construct → Parser Unit) :
    Parser.topLevelDeclaration nested = (do
      let ts ← ahead
      if begins ";" ts then skip
      else if startsWith (·.spellsAny ["module", "open"]) ts then Parser.moduleDeclaration
      else modifiedType nested) := rfl

/-- What is recorded behind a word may as well be recorded before it. -/
theorem expect_then_record (word : String) (fact : Fact) :
    (do expect word; record fact : Parser Unit) = (do record fact; expect word) := by
  funext s ts
  rw [bind_of_ok (record_apply fact s ts)]
  cases hrun : expect word s ts with
  | error e => rw [bind_of_error hrun, recording_error]
  | ok r =>
    have hfacts : r.facts = [] := by
      obtain ⟨t, hts, ht⟩ := expect_eq_ok hrun
      rw [hts, expect_cons ht] at hrun
      exact (congrArg Parsed.facts (Except.ok.inj hrun)).symm
    rw [bind_apply, hrun]
    simp [hfacts]

/-- A declaration is recorded alike before a word and behind it. -/
theorem expect_then_declare (word : String) (kind : DeclarationKind) (name : String) (line : Nat) :
    (do expect word; declare kind name line : Parser Unit) =
      (do declare kind name line; expect word) := by
  funext s ts
  exact congrFun (congrFun (expect_then_record word
    (.declaration ⟨kind, name, line, s.owner, 0, false, false⟩)) s) ts

namespace Simulation

section Parts

variable {σ : Simulation}

/-- An import is read alike, and may be the last that two files have in common. -/
theorem Sim.importDeclaration :
    σ.Sim R last Eq Parser.importDeclaration Parser.importDeclaration := by
  unfold Parser.importDeclaration
  refine (Sim.expect "import" (by simp)).bindEq fun _ => (Sim.sees "static").bindEq fun isStatic =>
    .when .skip fun _ => Sim.dottedName.bindEq fun imported => .ahead fun ts us => ?_
  -- the star behind the dot is the only part of an import that is looked for before it is read
  have hrest : ∀ wildcard wildcard', σ.Sim (R ∧ wildcard = wildcard') last Eq
      (do Parser.expect ";"; Parser.record (.importOf ⟨imported, isStatic, wildcard⟩))
      (do Parser.expect ";"; Parser.record (.importOf ⟨imported, isStatic, wildcard'⟩)) := by
    refine Sim.same fun wildcard => ?_
    rw [expect_then_record]
    exact (Sim.record fun _ => .importOf _).bindEq fun _ => .expect ";" fun _ => .inl rfl
  have hstar : R ∧ σ.tokens ts us →
      (begins "." ts && begins "*" ts.tail) = (begins "." us && begins "*" us.tail) := fun hR =>
    begins_and_alike hR.2 rfl rfl fun h => begins_alike h "*"
  refine .branch (fun hR => by rw [hstar hR]) (fun hwildcard => ?_) ?_
  · refine .bindEq (.resumeAt (List.drop_suffix 2 ts) fun hR => ?_) fun _ =>
      (hrest _ _).mono fun hR => ⟨hR.1, hstar hR⟩
    rw [drop_two, drop_two]
    exact rest_of_begins_and (w := ".") hR.2 rfl rfl (fun hlast => hlast.spells "*" rfl rfl) hwildcard
  · exact (hrest _ _).at fun hR => ⟨⟨hR.1, hstar hR⟩, hR.2⟩

/-- A package clause is read alike. -/
theorem Sim.packageClause : σ.Sim R last Eq packageClause packageClause := by
  refine Sim.line.bind fun m n => Sim.skip.bindEq fun _ => Sim.dottedName.bindEq fun declared => ?_
  rw [expect_then_declare, expect_then_declare]
  exact (Sim.declareCallable fun hR => ⟨rfl, hR.2⟩).bindEq fun _ => .expect ";" fun _ => .inl rfl

/-- The package is declared in both runs or in neither. -/
theorem Sim.packageDeclaration :
    σ.Sim R false Eq Parser.packageDeclaration Parser.packageDeclaration :=
  Sim.skipAnnotations.bindEq fun _ => (Sim.sees "package").bindEq fun _ =>
    .cond .packageClause (.pure fun _ => rfl)

/-- A type declaration with its modifiers is read alike. -/
theorem Nests.modifiedType (h : σ.Nests nested nested') :
    σ.Sim R last Eq (modifiedType nested) (modifiedType nested') := by
  refine Sim.line.bind fun m n => (Sim.modifiers _).discard.bindEq fun _ => ?_
  rw [typeDeclaration_orElse, typeDeclaration_orElse]
  refine .ahead fun ts us => .congr (fun hR => by rw [← typeKeyword?_alike hR.2]) ?_
  cases hkeyword : typeKeyword? ts with
  | none => exact (Sim.failAhead fun _ _ => rfl).at id
  | some found =>
    obtain ⟨kind, length⟩ := found
    exact h.typeFrom fun hR => ⟨hR.2, hkeyword, hR.1.2⟩

end Parts

/-! ## Whole files -/

/-- On lists that are alike token by token the groups behind all brackets are alike. -/
theorem Sim.skipGroup :
    (pointwise line strict).Sim R false Eq Parser.skipGroup Parser.skipGroup := by
  refine fun ts us => .groupOf And.right (fun hR l ts' l' us' hts hus => ?_)
    fun _ _ _ _ hsuffix => .resumeAt hsuffix fun hR => hR.2.2
  subst hts hus
  obtain ⟨halike, htail⟩ := List.forall₂_cons.1 hR.2
  rw [← halike.closer?]
  exact splitGroup_alike htail _

/-- The declaration of a module is passed over alike. -/
theorem Sim.moduleDeclaration :
    (pointwise line strict).Sim R false Eq Parser.moduleDeclaration Parser.moduleDeclaration :=
  (Sim.untilSees "\x7b" .skip).bindEq fun _ => .skipGroup

/-- A declaration at the top of a file is read alike. -/
theorem Nests.topLevelDeclaration (h : (pointwise line strict).Nests nested nested') :
    (pointwise line strict).Sim R false Eq (Parser.topLevelDeclaration nested)
      (Parser.topLevelDeclaration nested') := by
  refine .ahead fun ts us => .ite (fun hR => ?_) ?_ (.ite (fun hR => ?_) ?_ ?_)
  · rw [begins_alike hR.2]
  · exact Sim.skip.at fun hR => ⟨hR, hR.1.2⟩
  · rw [startsWith_alike hR.2 fun halike => halike.spellsAny _]
  · exact Sim.moduleDeclaration.at fun hR => ⟨hR, hR.1.2⟩
  · exact h.modifiedType.at id

/-- Whole files are read alike if their constructs are. -/
theorem Nests.file (h : (pointwise line strict).Nests nested nested') :
    (pointwise line strict).Sim R false Eq (Parser.file nested) (Parser.file nested') := by
  refine Sim.packageDeclaration.bindEq fun _ => Sim.bindEq (.repeatWhile ?_) fun _ => .repeatWhile ?_
  · exact (Sim.sees "import").bindEq fun _ => .cond
      (Sim.importDeclaration.bindEq fun _ => .pure fun _ => rfl) <|
      (Sim.sees ";").bindEq fun _ => .cond (Sim.skip.bindEq fun _ => .pure fun _ => rfl)
        (.pure fun _ => rfl)
  · refine .test (fun h => ?_) (.pure fun _ => rfl)
      (h.topLevelDeclaration.bindEq fun _ => .pure fun _ => rfl)
    cases h <;> rfl

end Simulation

/-! ## The facts of two files -/

/-- Both files are read, with facts that are alike, or both fail, with the same kind of fault. -/
def FactsAlike (line : Nat → Nat → Prop) :
    Except SourceError (List Fact) → Except SourceError (List Fact) → Prop
  | .ok facts, .ok facts' => List.Forall₂ (Fact.Alike line) facts facts'
  | .error e, .error e' => e.fault.code = e'.fault.code ∧ line e.line e'.line
  | _, _ => False

/-- Tokens that are read alike and end on related lines. -/
def Token.AlikeThrough (line : Nat → Nat → Prop) (t u : Token) : Prop :=
  t.Alike line u ∧ line t.endLine u.endLine

/-- Tokens that are alike to their ends end on related lines. -/
theorem lastLine_alike (hnone : line 0 0) (h : List.Forall₂ (Token.AlikeThrough line) ts us) :
    line (openingScope ts).lastLine (openingScope us).lastLine := by
  induction h with
  | nil => exact hnone
  | @cons t u ts us halike htail ih =>
    cases htail with
    | nil => exact halike.2
    | cons => exact ih

/-- Files of tokens that are alike are both read, with facts that are alike, or both fail. -/
theorem factsOf_alike (hnone : line 0 0) (h : List.Forall₂ (Token.AlikeThrough line) ts us) :
    FactsAlike line (factsOf ts) (factsOf us) := by
  have hnests : (Simulation.pointwise line True).Nests (construct (depthFor ts.length))
      (construct (depthFor us.length)) := by
    rw [h.length_eq]
    exact Simulation.nests_construct (Nat.le_refl _) fun _ => rfl
  have htokens : List.Forall₂ (Token.Alike line) ts us := h.imp fun _ _ halike => halike.1
  have hfile : (Simulation.pointwise line True).Sim True false Eq _ _ := hnests.file
  have halike := (hfile ts us).alike ⟨trivial, htokens⟩ (openingScope ts) (openingScope us)
    ⟨rfl, fun _ => lastLine_alike hnone h⟩
  rw [factsOf_eq, factsOf_eq]
  cases hrun : file (construct (depthFor ts.length)) (openingScope ts) ts with
  | error e =>
    rw [hrun] at halike
    obtain ⟨e', hrun', he⟩ := halike trivial
    rw [hrun']
    exact he
  | ok r =>
    rw [hrun] at halike
    obtain ⟨r', hrun', -, hfacts, -⟩ := halike (.inl trivial)
    rw [hrun']
    exact hfacts

end Assay.Source
