import Assay.Proofs.SurveyMemory
import Assay.Score
import Mathlib.Data.List.Forall2
import Mathlib.Data.List.Nodup

/-!
# Scores by criterion

A rubric is graded with one survey that remembers what it found out, yet every criterion gets the
score that it would get alone, for a survey answers each question as if it were the first.
`Criterion.graded` is that score, worked out without a survey. Main statement: a grading fails at
the first source file that cannot be read, if some criterion needs the sources at all, and else each
score depends on its criterion only (`scores_compose`).
-/

namespace Assay

open Source

variable {tree : FileTree} {repository : Repository} {found : Violations} {workers : Nat}

/-! ## Sizes without a survey -/

/-- The size of a category in a repository. -/
def Repository.sizeOf (repository : Repository) (tree : FileTree) (category : Category) :
    Except Failure Nat :=
  repository.extent .utf8 tree category.rule

/-- The score under one criterion, by itself. -/
def Criterion.graded (c : Criterion) (tree : FileTree) (repository : Repository)
    (found : Violations) : Except Failure CategoryScore :=
  let count := found.countCategory c.category
  match c.mode with
  | .absolute => .ok (.of c count none count)
  | .relative => (repository.sizeOf tree c.category).map fun (size : Nat) =>
    .of c count (some (size : Int)) (relativeValue count size)

/-- A score is that of the count, or that of its share in a size. -/
theorem Criterion.graded_eq_ok {c : Criterion} {s : CategoryScore} :
    c.graded tree repository found = .ok s ↔
      c.mode = .absolute ∧
          s = .of c (found.countCategory c.category) none (found.countCategory c.category) ∨
        c.mode = .relative ∧ ∃ size : Nat, repository.sizeOf tree c.category = .ok size ∧
          s = .of c (found.countCategory c.category) (some (size : Int))
            (relativeValue (found.countCategory c.category) size) := by
  simp only [Criterion.graded]
  cases c.mode with
  | absolute => simp [eq_comm]
  | relative => cases repository.sizeOf tree c.category <;> simp [Except.map, eq_comm]

/-- The score under a criterion is that of its category. -/
theorem Criterion.graded_category {c : Criterion} {s : CategoryScore}
    (h : c.graded tree repository found = .ok s) : s.category = c.category := by
  rcases graded_eq_ok.1 h with ⟨-, rfl⟩ | ⟨-, _, -, rfl⟩ <;> rfl

/-- The grading of the criterion needs the sources of the repository. -/
def Criterion.NeedsSources (c : Criterion) : Prop :=
  c.mode = .relative ∧ c.category.rule.population = .sourceTrees

/-- The failure is that of the first file on the list that cannot be read. -/
def FirstUnread (tree : FileTree) (paths : List Path) (failure : Failure) : Prop :=
  ∃ before path after, paths = before ++ path :: after ∧
    (∀ p ∈ before, ∃ f, SourceFile.read .utf8 tree p = .ok f) ∧
    SourceFile.read .utf8 tree path = .error failure

/-- Several files fail with the first that cannot be read. -/
theorem gather_read_error {paths : List Path} {failure : Failure} :
    (gather (paths.map (SourceFile.read .utf8 tree))).result = .error failure ↔
      FirstUnread tree paths failure := by
  rw [gather_map]
  exact mapM_eq_error

/-- Some file cannot be read exactly if one is the first. -/
theorem exists_firstUnread {paths : List Path} :
    (∃ failure, FirstUnread tree paths failure) ↔
      ∃ p ∈ paths, ∃ failure, SourceFile.read .utf8 tree p = .error failure := by
  constructor
  · rintro ⟨failure, before, path, after, rfl, -, hpath⟩
    exact ⟨path, by simp, failure, hpath⟩
  · rintro ⟨p, hp, failure, hread⟩
    cases hall : (gather (paths.map (SourceFile.read .utf8 tree))).result with
    | error e => exact ⟨e, gather_read_error.1 hall⟩
    | ok files =>
      have hmem : SourceFile.read .utf8 tree p ∈ files.map .ok :=
        gather_eq_ok.1 hall ▸ List.mem_map_of_mem hp
      obtain ⟨f, -, hf⟩ := List.mem_map.1 hmem
      rw [hread] at hf
      cases hf

/-! ## Criteria one by one -/

/-- Every category has a profile. -/
theorem lookup_profile (category : Category) :
    (Category.all.map fun c => (c, c.profile)).lookup category = some category.profile := by
  cases category <;> rfl

theorem sizeOf_start (category : Category) :
    (Survey.start repository .utf8 workers Category.all).sizeOf tree category =
      repository.sizeOf tree category := by
  simp only [Survey.sizeOf, Survey.start, Survey.under, lookup_profile]
  rfl

namespace Survey.Faithful

variable {s : Survey}

/-- A criterion is graded as it would be alone. -/
theorem score (h : Faithful tree (.start repository .utf8 workers Category.all) s)
    (found : Violations) (c : Criterion) :
    Faithful tree (.start repository .utf8 workers Category.all)
        (c.score (Survey.sizer tree) s found).1 ∧
      (c.score (Survey.sizer tree) s found).2.result = c.graded tree repository found := by
  cases hmode : c.mode with
  | absolute =>
    simp only [Criterion.score, Criterion.graded, hmode]
    exact ⟨h, rfl⟩
  | relative =>
    obtain ⟨hafter, hsize⟩ := h.size c.category
    rw [sizeOf_start] at hsize
    simp only [Criterion.score, Criterion.graded, hmode, Survey.sizer, Logged.result_bind,
      Logged.result_pure, hsize]
    refine ⟨hafter, ?_⟩
    cases repository.sizeOf tree c.category <;> rfl

/-- Criteria are graded one by one. -/
theorem scoreEach (h : Faithful tree (.start repository .utf8 workers Category.all) s)
    (found : Violations) (criteria : List Criterion) :
    (scoreEach (Survey.sizer tree) found s criteria).2.result =
      criteria.mapM (·.graded tree repository found) := by
  induction criteria generalizing s with
  | nil => rfl
  | cons c criteria ih =>
    obtain ⟨hafter, hresult⟩ := h.score found c
    rw [List.mapM_cons, ← hresult]
    simp only [Assay.scoreEach]
    cases hscored : (c.score (Survey.sizer tree) s found).2.result with
    | error e => rfl
    | ok score =>
      simp only [ih hafter]
      cases criteria.mapM (·.graded tree repository found) <;> rfl

end Survey.Faithful

/-! ## Rubrics -/

/-- A rubric is graded criterion by criterion. -/
theorem Rubric.grade_result (r : Rubric) :
    (r.grade tree repository workers found).result =
      r.criteria.mapM (·.graded tree repository found) := by
  have hstart : Survey.Faithful tree (.start repository .utf8 workers Category.all)
      (.start repository .utf8 workers Category.all) := Survey.faithful_under ..
  rw [← hstart.scoreEach]
  simp only [Rubric.grade, Rubric.score, Logged.result_bind, Logged.result_tell,
    Logged.result_pure]
  cases (scoreEach _ _ _ _).2.result <;> rfl

/-- The scores of a repository by category, without the way to them. -/
def Rubric.scores (r : Rubric) (tree : FileTree) (repository : Repository) (workers : Nat)
    (found : Violations) : Except Failure (List (Category × Nat)) :=
  (r.grade tree repository workers found).result.map (List.map fun s => (s.category, s.score))

/-- The rubric of a single criterion. -/
def Rubric.only (c : Criterion) : Rubric := ⟨[c], by simp⟩

/-- The score by category under one criterion, by itself. -/
def Criterion.entry (c : Criterion) (tree : FileTree) (repository : Repository)
    (found : Violations) : Except Failure (Category × Nat) :=
  (c.graded tree repository found).map fun s => (s.category, s.score)

/-- The scores under a rubric are those under its criteria, each by itself. -/
theorem Rubric.scores_eq (r : Rubric) :
    r.scores tree repository workers found =
      r.criteria.mapM (·.entry tree repository found) := by
  rw [Rubric.scores, r.grade_result]
  induction r.criteria with
  | nil => rfl
  | cons c criteria ih =>
    rw [List.mapM_cons, List.mapM_cons, ← ih, Criterion.entry]
    cases c.graded tree repository found with
    | error e => rfl
    | ok s => cases criteria.mapM (·.graded tree repository found) <;> rfl

/-- A criterion fails by the sources alone. -/
theorem Criterion.entry_error (c : Criterion) (failure : Failure) :
    c.entry tree repository found = .error failure ↔
      c.NeedsSources ∧ FirstUnread tree (repository.sourceFiles tree) failure := by
  rw [← gather_read_error, Criterion.NeedsSources]
  show c.entry tree repository found = .error failure ↔
    _ ∧ repository.units .utf8 tree = .error failure
  simp only [Criterion.entry, Criterion.graded, Repository.sizeOf, Repository.extent]
  cases c.mode with
  | absolute => simp [Except.map]
  | relative =>
    cases c.category.rule.population with
    | uiDescriptions => simp [Except.map]
    | sourceTrees => cases repository.units .utf8 tree <;> simp [Except.map]

/-- A criterion that succeeds gives a score to its own category. -/
theorem Criterion.entry_category {c : Criterion} {entry : Category × Nat}
    (h : c.entry tree repository found = .ok entry) : entry.1 = c.category := by
  rw [Criterion.entry] at h
  cases hgraded : c.graded tree repository found with
  | error e =>
    rw [hgraded] at h
    cases h
  | ok s =>
    rw [hgraded] at h
    cases h
    exact Criterion.graded_category hgraded

/-- Each criterion of a rubric that is graded has its score. -/
theorem Rubric.grade_ok {r : Rubric} {scores : List CategoryScore}
    (h : (r.grade tree repository workers found).result = .ok scores) :
    List.Forall₂ (fun c s => c.graded tree repository found = .ok s) r.criteria scores := by
  rw [r.grade_result] at h
  exact mapM_ok h

/-- A rubric fails with its first unreadable source, if a criterion needs the sources. -/
theorem Rubric.scores_error (r : Rubric) (failure : Failure) :
    r.scores tree repository workers found = .error failure ↔
      (∃ c ∈ r.criteria, c.NeedsSources) ∧
        FirstUnread tree (repository.sourceFiles tree) failure := by
  rw [r.scores_eq]
  constructor
  · intro h
    obtain ⟨c, hc, hfails⟩ := mapM_error h
    obtain ⟨hneeds, hfirst⟩ := (c.entry_error failure).1 hfails
    exact ⟨⟨c, hc, hneeds⟩, hfirst⟩
  · rintro ⟨⟨c, hc, hneeds⟩, hfirst⟩
    have hfails : c.entry tree repository found = .error failure :=
      (c.entry_error failure).2 ⟨hneeds, hfirst⟩
    cases hscores : r.criteria.mapM (·.entry tree repository found) with
    | ok entries =>
      obtain ⟨entry, -, hentry⟩ := mem_of_mapM_ok hscores hc
      rw [hfails] at hentry
      cases hentry
    | error other =>
      -- another criterion may be the one that fails, but for the same file
      obtain ⟨d, -, hother⟩ := mapM_error hscores
      have hunits := gather_read_error.2 hfirst
      rw [gather_read_error.2 ((d.entry_error other).1 hother).2] at hunits
      cases hunits
      rfl

/-- A rubric that succeeds gives each criterion the score it gets alone. -/
theorem Rubric.scores_ok {r : Rubric} {entries : List (Category × Nat)}
    (h : r.scores tree repository workers found = .ok entries) :
    entries.map Prod.fst = r.categories ∧
      ∀ c ∈ r.criteria, ∃ n, (c.category, n) ∈ entries ∧
        c.entry tree repository found = .ok (c.category, n) := by
  rw [r.scores_eq] at h
  constructor
  · rw [Rubric.categories]
    have hpairs := mapM_ok h
    clear h
    generalize r.criteria = criteria at hpairs
    induction hpairs with
    | nil => rfl
    | cons hfirst _ ih => rw [List.map_cons, List.map_cons, ih, Criterion.entry_category hfirst]
  · intro c hc
    obtain ⟨⟨category, n⟩, hmem, hentry⟩ := mem_of_mapM_ok h hc
    obtain rfl : category = c.category := Criterion.entry_category hentry
    exact ⟨n, hmem, hentry⟩

/-- The mapping of a rubric that succeeds has one score for each category. -/
theorem Rubric.score_unique {r : Rubric} {entries : List (Category × Nat)} {category : Category}
    {m n : Nat} (h : r.scores tree repository workers found = .ok entries)
    (hm : (category, m) ∈ entries) (hn : (category, n) ∈ entries) : m = n := by
  have hdistinct : (entries.map Prod.fst).Nodup := by
    rw [(Rubric.scores_ok h).1]
    exact r.distinct
  have hsame := List.inj_on_of_nodup_map hdistinct hm hn rfl
  exact congrArg Prod.snd hsame

/-- A rubric with absolute criteria, and any for user-interface descriptions, reads no sources. -/
theorem Rubric.scores_congr {r : Rubric} {tree' : FileTree} {repository' : Repository}
    {workers' : Nat} (hmodes : ∀ c ∈ r.criteria, c.mode = .absolute ∨ c.category = .javaFx)
    (hlengths : (repository.uiDescriptions tree).length =
      (repository'.uiDescriptions tree').length) :
    r.scores tree repository workers found = r.scores tree' repository' workers' found := by
  rw [r.scores_eq, r.scores_eq]
  refine mapM_congr fun c hc => ?_
  rcases hmodes c hc with hmode | hcategory
  · simp only [Criterion.entry, Criterion.graded, hmode]
  · have hsize : repository.sizeOf tree c.category = repository'.sizeOf tree' c.category := by
      rw [hcategory]
      show Except.ok _ = Except.ok _
      rw [hlengths]
    simp only [Criterion.entry, Criterion.graded, hsize]

/-- Grading fails exactly if a criterion needs the sources and some source cannot be read, with the
first one that cannot; else every criterion gets the score it gets alone, in the order of the
rubric, whatever else the rubric holds. Without need for the sources, repositories with equally many
user-interface descriptions are graded alike. -/
theorem scores_compose (tree : FileTree) (repository : Repository) (found : Violations)
    (workers : Nat) (r : Rubric) :
    ((∃ failure, r.scores tree repository workers found = .error failure) ↔
      (∃ c ∈ r.criteria, c.NeedsSources) ∧ ∃ path ∈ repository.sourceFiles tree,
        ∃ failure, SourceFile.read .utf8 tree path = .error failure) ∧
    (∀ failure, r.scores tree repository workers found = .error failure →
      FirstUnread tree (repository.sourceFiles tree) failure) ∧
    (∀ entries, r.scores tree repository workers found = .ok entries →
      entries.map Prod.fst = r.categories ∧
      ∀ c ∈ r.criteria, ∃ n, (c.category, n) ∈ entries ∧
        (Rubric.only c).scores tree repository workers found = .ok [(c.category, n)]) ∧
    (∀ (other : Rubric) entries entries',
      r.scores tree repository workers found = .ok entries →
      other.scores tree repository workers found = .ok entries' →
      ∀ c ∈ r.criteria, c ∈ other.criteria →
        ∀ n, (c.category, n) ∈ entries ↔ (c.category, n) ∈ entries') ∧
    ((∀ c ∈ r.criteria, c.mode = .absolute ∨ c.category = .javaFx) →
      ∀ tree' (repository' : Repository) workers',
        (repository.uiDescriptions tree).length = (repository'.uiDescriptions tree').length →
        r.scores tree repository workers found = r.scores tree' repository' workers' found) := by
  refine ⟨?_, ?_, ?_, ?_, ?_⟩
  · simp only [Rubric.scores_error, exists_and_left, exists_firstUnread]
  · exact fun failure h => ((r.scores_error failure).1 h).2
  · intro entries h
    obtain ⟨hkeys, hscores⟩ := Rubric.scores_ok h
    refine ⟨hkeys, fun c hc => ?_⟩
    obtain ⟨n, hmem, hentry⟩ := hscores c hc
    refine ⟨n, hmem, ?_⟩
    rw [Rubric.scores_eq, Rubric.only, List.mapM_cons, hentry]
    rfl
  · intro other entries entries' h h' c hc hc' n
    obtain ⟨m, hmem, hentry⟩ := (Rubric.scores_ok h).2 c hc
    obtain ⟨m', hmem', hentry'⟩ := (Rubric.scores_ok h').2 c hc'
    -- both rubrics give the criterion the score that it gets alone
    obtain rfl : m = m' := by
      rw [hentry] at hentry'
      cases hentry'
      rfl
    constructor
    · intro hn
      rwa [Rubric.score_unique h hn hmem]
    · intro hn
      rwa [Rubric.score_unique h' hn hmem']
  · exact fun hmodes tree' repository' workers' hlengths => Rubric.scores_congr hmodes hlengths

end Assay
