import Assay.Proofs.Banding
import Assay.Proofs.RubricScores
import Assay.Rubric.Reader
import Mathlib.Data.List.Perm.Basic

/-!
# How scores depend on violations

A score is reached from the number of violations in one category and from nothing else about them:
not from their order, and not from violations of other categories. Main statements: more violations
never raise a score (`more_violations`); a category without violations or without size loses a point
for every threshold that is not positive, and no other (`unviolated_score`).
-/

namespace Assay

open Source

variable {tree : FileTree} {repository : Repository} {found found' : Violations} {workers : Nat}

/-! ## Counts -/

theorem mem_kinds (kind : ViolationKind) : kind ∈ ViolationKind.all := by cases kind <;> decide

/-- The kinds reported under a category are those that are assigned to it. -/
theorem mem_ofCategory {kind : ViolationKind} {category : Category} :
    kind ∈ ViolationKind.ofCategory category ↔ kind.category = category := by
  simp [ViolationKind.ofCategory, mem_kinds]

/-- The number of violations of a category counts those of its kinds. -/
theorem countCategory_eq_countP (found : Violations) (category : Category) :
    found.countCategory category = found.countP (·.kind ∈ ViolationKind.ofCategory category) := by
  rw [Violations.countCategory, Violations.ofCategory, ← List.countP_eq_length_filter]
  refine List.countP_congr fun v _ => ?_
  simp [mem_ofCategory]

/-- A category without violations counts none. -/
theorem countCategory_eq_zero {category : Category} :
    found.countCategory category = 0 ↔
      ∀ v ∈ found, v.kind ∉ ViolationKind.ofCategory category := by
  simp [countCategory_eq_countP, List.countP_eq_zero]

theorem countCategory_append (found more : Violations) (category : Category) :
    Violations.countCategory (found ++ more) category =
      found.countCategory category + more.countCategory category := by
  simp only [countCategory_eq_countP, List.countP_append]

/-- The order of violations does not matter to their number. -/
theorem countCategory_perm (h : found.Perm found') (category : Category) :
    found.countCategory category = found'.countCategory category := by
  rw [countCategory_eq_countP, countCategory_eq_countP, h.countP_eq]

/-- Fewer violations count less. -/
theorem countCategory_sublist (h : found.Sublist found') (category : Category) :
    found.countCategory category ≤ found'.countCategory category := by
  rw [countCategory_eq_countP, countCategory_eq_countP]
  exact h.countP_le

/-! ## Scores -/

/-- Grading asks for nothing about the violations but their number in each category. -/
theorem scoreEach_congr {σ : Type} (sizer : Sizer σ)
    (h : ∀ category, found.countCategory category = found'.countCategory category) (s : σ)
    (criteria : List Criterion) :
    scoreEach sizer found s criteria = scoreEach sizer found' s criteria := by
  induction criteria generalizing s with
  | nil => rfl
  | cons c criteria ih =>
    have hscore : c.score sizer s found = c.score sizer s found' := by
      simp only [Criterion.score, h]
    simp only [scoreEach, hscore, ih]

/-- More violations in the category of a criterion do not raise its score. -/
theorem Criterion.graded_mono {c : Criterion} {s : CategoryScore}
    (h : c.graded tree repository found = .ok s)
    (hcount : found.countCategory c.category ≤ found'.countCategory c.category) :
    ∃ s', c.graded tree repository found' = .ok s' ∧ s'.category = s.category ∧
      s'.score ≤ s.score ∧
        (found'.countCategory c.category = found.countCategory c.category → s' = s) := by
  rcases graded_eq_ok.1 h with ⟨hmode, rfl⟩ | ⟨hmode, size, hsize, rfl⟩
  · refine ⟨_, graded_eq_ok.2 (.inl ⟨hmode, rfl⟩), rfl, ?_, fun hsame => by rw [hsame]⟩
    exact scoreBand_antitone c.ascending (by omega)
  · refine ⟨_, graded_eq_ok.2 (.inr ⟨hmode, size, hsize, rfl⟩), rfl, ?_, fun hsame => by rw [hsame]⟩
    exact scoreBand_antitone c.ascending (relativeValue_mono (by omega) size)

/-- Violations that are put in between do not raise the score of a criterion, and those of other
categories do not change it. -/
theorem Criterion.graded_more {c : Criterion} {s : CategoryScore}
    (h : c.graded tree repository found = .ok s) (hmore : found.Sublist found') :
    ∃ s', c.graded tree repository found' = .ok s' ∧ s'.category = s.category ∧
      s'.score ≤ s.score ∧
        ∀ inserted, found'.Perm (found ++ inserted) →
          (∀ v ∈ inserted, v.kind ∉ ViolationKind.ofCategory s.category) → s' = s := by
  obtain ⟨s', hs', hcategory, hscore, hsame⟩ :=
    graded_mono h (countCategory_sublist hmore c.category)
  refine ⟨s', hs', hcategory, hscore, fun inserted hinserted hothers => hsame ?_⟩
  -- the number of the category's violations is all that is asked, and the inserted ones add none
  rw [graded_category h] at hothers
  rw [countCategory_perm hinserted, countCategory_append, countCategory_eq_zero.2 hothers,
    Nat.add_zero]

/-- The scores of a rubric are those of its categories, in order. -/
theorem Rubric.grade_categories {r : Rubric} {scores : List CategoryScore}
    (h : (r.grade tree repository workers found).result = .ok scores) :
    r.categories = scores.map (·.category) := by
  rw [Rubric.categories, ← List.forall₂_eq_eq_eq, List.forall₂_map_left_iff,
    List.forall₂_map_right_iff]
  exact (Rubric.grade_ok h).imp fun c s hs => (Criterion.graded_category hs).symm

/-- Where grading succeeds, it succeeds for any other violations too, with one score for each
category of the rubric. Violations put in between never raise a score, and those of other categories
leave a score as it is, with its count, size and value; the order of violations does not matter. -/
theorem more_violations (tree : FileTree) (repository : Repository) (workers : Nat) (r : Rubric)
    (found : Violations) (scores : List CategoryScore)
    (h : (r.grade tree repository workers found).result = .ok scores) (found' : Violations) :
    (found.Sublist found' →
      ∃ scores', (r.grade tree repository workers found').result = .ok scores' ∧
        scores.map (·.category) = r.categories ∧
        List.Forall₂ (fun s s' => s'.category = s.category ∧ s'.score ≤ s.score ∧
          ∀ inserted, found'.Perm (found ++ inserted) →
            (∀ v ∈ inserted, v.kind ∉ ViolationKind.ofCategory s.category) → s' = s)
          scores scores') ∧
    (found.Perm found' →
      r.grade tree repository workers found' = r.grade tree repository workers found) := by
  constructor
  · intro hmore
    have hcategories : scores.map (·.category) = r.categories := (Rubric.grade_categories h).symm
    rw [Rubric.grade_result] at h
    obtain ⟨scores', hscores', hpairs⟩ := mapM_transfer h fun c _ s hs => c.graded_more hs hmore
    exact ⟨scores', by rw [Rubric.grade_result, hscores'], hcategories, hpairs⟩
  · intro horder
    simp only [Rubric.grade, Rubric.score,
      scoreEach_congr _ fun category => (countCategory_perm horder category).symm]

/-- An answer can be told by what there is of it. -/
theorem eq_ok_of_toOption {α β : Type} {result : Except α β} {b : β}
    (h : result.toOption = some b) : result = .ok b := by
  cases result with
  | error a => cases h
  | ok other => rw [Option.some.inj h]

/-- A line that is too long costs a view nothing. -/
theorem more_violations_long_line :
    let r : Rubric :=
      ⟨[⟨.javaFx, .relative, [50, 150], by decide⟩, ⟨.formatting, .absolute, [1], by decide⟩],
        by decide⟩
    let tree : FileTree := .directory [("view.fxml", .file [])]
    let styled : Violation := ⟨.fxmlInlineStyle, "view.fxml", 1, none, none, ""⟩
    let long : Violation := ⟨.lineLength, "A.java", 1, none, none, ""⟩
    let scores : List CategoryScore :=
      [⟨.javaFx, .relative, 1, some 1, 100, 1, 2⟩, ⟨.formatting, .absolute, 0, none, 0, 1, 1⟩]
    (r.grade tree ⟨⟨0, []⟩⟩ 1 [styled]).result = .ok scores ∧
      [styled].Sublist [long, styled] ∧
      ∃ scores', (r.grade tree ⟨⟨0, []⟩⟩ 1 [long, styled]).result = .ok scores' ∧
        List.Forall₂ (fun s s' => s'.category = s.category ∧ s'.score ≤ s.score)
          scores scores' := by
  intro r tree styled long scores
  have hgraded : (r.grade tree ⟨⟨0, []⟩⟩ 1 [styled]).result = .ok scores :=
    eq_ok_of_toOption (by decide +kernel)
  have hmore : [styled].Sublist [long, styled] := by decide
  obtain ⟨scores', hscores', -, hpairs⟩ :=
    (more_violations tree ⟨⟨0, []⟩⟩ 1 r [styled] scores hgraded [long, styled]).1 hmore
  exact ⟨hgraded, hmore, scores', hscores', hpairs.imp fun _ _ h => ⟨h.1, h.2.1⟩⟩

/-! ## Full scores -/

/-- A category without violations or without size has the score of the value zero. -/
theorem Criterion.graded_zero {c : Criterion} {s : CategoryScore}
    (h : c.graded tree repository found = .ok s)
    (hzero : s.size = some 0 ∨ found.countCategory c.category = 0) :
    s.score = scoreBand 0 c.thresholds ∧ s.maxScore = c.thresholds.length := by
  rcases graded_eq_ok.1 h with ⟨-, rfl⟩ | ⟨-, size, -, rfl⟩
  · rcases hzero with hsize | hcount
    · cases hsize
    · exact ⟨by rw [hcount]; rfl, rfl⟩
  · rcases hzero with hsize | hcount
    · have hempty : (size : Int) = 0 := Option.some.inj hsize
      exact ⟨by rw [hempty]; rfl, rfl⟩
    · exact ⟨by rw [hcount]; exact congrArg (scoreBand · _) (relativeValue_zero _), rfl⟩

/-- In relative mode and without size, or in any mode and without violations, a category keeps a
point for every positive threshold; so it gets the greatest score if and only if no threshold is
zero or less. -/
theorem unviolated_score (tree : FileTree) (repository : Repository) (workers : Nat) (r : Rubric)
    (found : Violations) (scores : List CategoryScore)
    (h : (r.grade tree repository workers found).result = .ok scores) :
    List.Forall₂ (fun c s =>
      s.size = some 0 ∨ (∀ v ∈ found, v.kind ∉ ViolationKind.ofCategory c.category) →
        s.score = c.thresholds.countP (0 < ·) ∧
          (s.score = s.maxScore ↔ ∀ t ∈ c.thresholds, 0 < t)) r.criteria scores := by
  refine (Rubric.grade_ok h).imp fun c s hs hzero => ?_
  obtain ⟨hscore, hmax⟩ := c.graded_zero hs (hzero.imp_right countCategory_eq_zero.2)
  rw [hscore, hmax]
  exact ⟨scoreBand_eq_countP c.ascending 0, scoreBand_eq_length_iff c.ascending⟩

/-- Without any view, and with one that breaks a rule, positive thresholds are all kept. -/
theorem unviolated_score_no_view :
    let r : Rubric := ⟨[⟨.javaFx, .relative, [1, 5], by decide⟩], by decide⟩
    let styled : Violation := ⟨.fxmlInlineStyle, "view.fxml", 1, none, none, ""⟩
    let s : CategoryScore := ⟨.javaFx, .relative, 1, some 0, 0, 2, 2⟩
    (r.grade .empty ⟨⟨0, []⟩⟩ 1 [styled]).result = .ok [s] ∧
      (s.score = s.maxScore ↔ ∀ t ∈ [(1 : Int), 5], 0 < t) := by
  intro r styled s
  have hgraded : (r.grade .empty ⟨⟨0, []⟩⟩ 1 [styled]).result = .ok [s] :=
    eq_ok_of_toOption (by decide +kernel)
  have hpairs := unviolated_score .empty ⟨⟨0, []⟩⟩ 1 r [styled] [s] hgraded
  cases hpairs with
  | cons hfirst _ => exact ⟨hgraded, (hfirst (.inl rfl)).2⟩

/-- A rubric may have a threshold of zero. It is never kept: not without views, and not without
violations. -/
theorem zero_threshold_lost :
    ¬ ∀ (source : String) (data : Json) (r : Rubric) (tree : FileTree) (repository : Repository)
      (workers : Nat) (found : Violations) (scores : List CategoryScore),
      Rubric.ofJson source data = .ok r →
      (r.grade tree repository workers found).result = .ok scores →
      ∀ s ∈ scores, s.size = some 0 ∨
          (∀ v ∈ found, v.kind ∉ ViolationKind.ofCategory s.category) →
        s.score = s.maxScore := by
  intro h
  have hloaded : Rubric.ofJson "<config>" (.array
      [.object [("category", .string "JavaFX"), ("mode", .string "relative"),
        ("scores", .array [.integer 0, .integer 5])]]) =
      .ok ⟨[⟨.javaFx, .relative, [0, 5], by decide⟩], by decide⟩ := rfl
  have hgraded : (Rubric.grade ⟨[⟨.javaFx, .relative, [0, 5], by decide⟩], by decide⟩ .empty
      ⟨⟨0, []⟩⟩ 1 []).result = .ok [⟨.javaFx, .relative, 0, some 0, 0, 1, 2⟩] :=
    eq_ok_of_toOption (by decide +kernel)
  have hfull := h _ _ _ _ _ _ _ _ hloaded hgraded _ (List.mem_singleton_self _) (.inl rfl)
  exact absurd hfull (by decide)

end Assay
