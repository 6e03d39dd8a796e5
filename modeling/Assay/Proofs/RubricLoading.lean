import Assay.Proofs.Banding
import Assay.Proofs.RubricScores
import Assay.Rubric.Reader

/-!
# Rubrics that load

Rubrics are checked at two places: entry by entry as they are read, and draft by draft before they
are used. An entry that is read `Writes` a criterion, and a draft that passes is the draft of one;
so what is read needs no further check. Main statement: a rubric that loads has one criterion for
each entry, passes as drafts, and can be graded unless a source file stands in the way; a rubric
that does not load fails at the first entry that is wrong, whatever comes after it
(`loaded_rubrics_grade`).
-/

namespace Assay

open Source

variable {tree : FileTree} {repository : Repository} {found : Violations} {workers : Nat}

/-! ## Drafts -/

namespace Draft

/-- Thresholds are integers exactly if they are written so. -/
theorem integers?_eq_some {d : Draft} {thresholds : List Int} :
    d.integers? = some thresholds ↔ d.thresholds = thresholds.map .integer := by
  rw [integers?]
  generalize d.thresholds = items
  induction items generalizing thresholds with
  | nil => cases thresholds <;> simp
  | cons item items ih =>
    cases thresholds with
    | nil => cases item <;> simp [Option.bind_eq_some_iff]
    | cons n more => cases item <;> simp [Option.bind_eq_some_iff, ← ih, and_comm]

/-- The drafts that pass are those of criteria. -/
theorem check_eq_ok {d : Draft} {c : Criterion} : d.check = .ok c ↔ d = c.draft := by
  constructor
  · -- a part that is not what it should be ends the check
    intro h
    rcases hcategory : d.category with given | category
    · simp [check, hcategory] at h
    rcases hmode : d.mode with given | mode
    · simp [check, hcategory, hmode] at h
    rcases hintegers : d.integers? with - | thresholds
    · simp [check, hcategory, hmode, hintegers] at h
    simp only [check, hcategory, hmode, hintegers] at h
    split at h
    · cases h
      cases d
      simp only [Criterion.draft, Draft.mk.injEq]
      exact ⟨hcategory, hmode, integers?_eq_some.1 hintegers⟩
    · cases h
  · rintro rfl
    have hcategory : c.draft.category = .ok c.category := rfl
    have hmode : c.draft.mode = .ok c.mode := rfl
    have hintegers : c.draft.integers? = some c.thresholds := integers?_eq_some.2 rfl
    have hascends : ascends c.thresholds = true := (ascends_iff _).2 c.ascending
    simp only [check, hcategory, hmode, hintegers, hascends, dif_pos]

/-- The draft of a criterion has no problems. -/
theorem problems_draft (c : Criterion) : c.draft.problems = [] := by
  have hintegers : c.draft.integers? = some c.thresholds := integers?_eq_some.2 rfl
  have hascends : ascends c.thresholds = true := (ascends_iff _).2 c.ascending
  have hthresholds : c.draft.thresholdProblems = [] := by
    simp only [thresholdProblems, hintegers, hascends, if_true]
  rw [problems, hthresholds]
  rfl

end Draft

/-! ## Entries -/

/-- An entry writes a criterion: its category and mode by name, and the thresholds as they are. -/
inductive Writes : Json → Criterion → Prop
  | entry {members : List (String × Json)} {category mode : Json} {c : Criterion}
    (hcategory : Json.member? "category" members = some category)
    (hname : Category.ofName? category.display = some c.category)
    (hmode : Json.member? "mode" members = some mode) (hword : Mode.ofJson? mode = some c.mode)
    (hscores : Json.member? "scores" members = some (.array (c.thresholds.map .integer))) :
    Writes (.object members) c

/-- An entry is accepted exactly for the criterion that it writes. -/
theorem ofEntry_eq_ok {entry : Json} {c : Criterion} :
    Criterion.ofEntry entry = .ok c ↔ Writes entry c := by
  constructor
  · intro h
    cases entry with
    | object members =>
      simp only [Criterion.ofEntry] at h
      -- an entry that lacks a key is refused at that key, in the order of the keys
      rcases hcategory : Json.member? "category" members with - | category
      · simp [hcategory] at h
      rcases hmode : Json.member? "mode" members with - | mode
      · simp [hcategory, hmode] at h
      rcases hscores : Json.member? "scores" members with - | scores
      · simp [hcategory, hmode, hscores] at h
      simp only [hcategory, hmode, hscores, Criterion.ofValues] at h
      rcases hname : Category.ofName? category.display with - | foundCategory
      · simp [hname] at h
      rcases hword : Mode.ofJson? mode with - | foundMode
      · simp [hname, hword] at h
      cases scores with
      | array thresholds =>
        simp only [hname, hword] at h
        -- the draft is checked as a whole, which leaves its values as they are
        rcases hcheck : (Draft.mk (.ok foundCategory) (.ok foundMode) thresholds).check with
          found | checked
        · simp [hcheck, Except.mapError] at h
        · obtain rfl : checked = c := by simpa [hcheck, Except.mapError] using h
          obtain ⟨hsame, hsameMode, rfl⟩ := Draft.mk.inj (Draft.check_eq_ok.1 hcheck)
          cases hsame
          cases hsameMode
          exact .entry hcategory hname hmode hword hscores
      | _ => simp [hname, hword] at h
    | _ => simp [Criterion.ofEntry] at h
  · rintro ⟨hcategory, hname, hmode, hword, hscores⟩
    have hcheck : (Draft.mk (.ok c.category) (.ok c.mode) (c.thresholds.map .integer)).check =
        .ok c := Draft.check_eq_ok.2 rfl
    simp only [Criterion.ofEntry, hcategory, hmode, hscores, Criterion.ofValues, hname, hword,
      hcheck, Except.mapError]

/-! ## Rubrics -/

namespace Rubric

variable {r more : Rubric}

/-- A rubric with one more criterion, of a category that it does not grade yet. -/
def Grows (r : Rubric) (c : Criterion) (more : Rubric) : Prop :=
  c.category ∉ r.categories ∧ more.criteria = r.criteria ++ [c]

theorem eq_of_criteria (h : r.criteria = more.criteria) : r = more := by
  cases r
  cases more
  cases h
  rfl

theorem add?_eq_some {c : Criterion} : r.add? c = some more ↔ r.Grows c more := by
  by_cases hc : c.category ∈ r.categories
  · simp [add?, Grows, hc]
  · simp only [add?, Grows, hc, dif_neg, not_false_eq_true, Option.some.injEq, true_and]
    exact ⟨fun h => h ▸ rfl, fun h => eq_of_criteria h.symm⟩

/-- One more entry is accepted exactly for a criterion that it writes. -/
theorem extend_eq_ok {entry : Json} :
    r.extend entry = .ok more ↔ ∃ c, Writes entry c ∧ r.Grows c more := by
  simp only [extend, ← ofEntry_eq_ok, ← add?_eq_some]
  cases Criterion.ofEntry entry with
  | error fault => simp
  | ok c => cases hadd : r.add? c <;> simp [hadd]

/-- One more draft is accepted exactly if it is that of a criterion. -/
theorem addDraft_eq_ok {d : Draft} :
    r.addDraft d = .ok more ↔ ∃ c, d = c.draft ∧ r.Grows c more := by
  simp only [← add?_eq_some]
  constructor
  · intro h
    rcases hcategory : d.category with given | category
    · simp [addDraft, hcategory] at h
    by_cases hmem : category ∈ r.categories
    · simp [addDraft, hcategory, hmem] at h
    rcases hmode : d.mode with given | mode
    · simp [addDraft, hcategory, hmem, hmode] at h
    rcases hcheck : d.check with found | c
    · simp [addDraft, hcategory, hmem, hmode, hcheck] at h
    refine ⟨c, Draft.check_eq_ok.1 hcheck, ?_⟩
    cases hadd : r.add? c with
    | none => simp [addDraft, hcategory, hmem, hmode, hcheck, hadd] at h
    | some added => simpa [addDraft, hcategory, hmem, hmode, hcheck, hadd] using h
  · rintro ⟨c, rfl, hadd⟩
    have hcheck : c.draft.check = .ok c := Draft.check_eq_ok.2 rfl
    have hmem : c.category ∉ r.categories := (add?_eq_some.1 hadd).1
    have hcategory : c.draft.category = .ok c.category := rfl
    have hmode : c.draft.mode = .ok c.mode := rfl
    simp only [addDraft, hcategory, hmode, hmem, hcheck, hadd, if_false]

/-- Criteria are added to a rubric one after another. -/
theorem grows_append {c : Criterion} {criteria : List Criterion} {last : Rubric} :
    (∃ more, r.Grows c more ∧ last.criteria = more.criteria ++ criteria) ↔
      last.criteria = r.criteria ++ c :: criteria := by
  constructor
  · rintro ⟨more, ⟨-, hmore⟩, hlast⟩
    rw [hlast, hmore, List.append_assoc, List.singleton_append]
  · intro hlast
    -- a rubric with all of these exists, so the next category is new to the first ones
    have hnew : c.category ∉ r.categories := by
      have hdistinct := last.distinct
      rw [hlast, List.map_append, List.map_cons, List.nodup_append] at hdistinct
      exact fun hc => hdistinct.2.2 _ hc _ (List.mem_cons_self ..) rfl
    obtain ⟨more, hmore⟩ : ∃ more, r.add? c = some more := by simp [add?, hnew]
    have hgrows := add?_eq_some.1 hmore
    exact ⟨more, hgrows, by rw [hlast, hgrows.2, List.append_assoc, List.singleton_append]⟩

/-- Entries are accepted exactly if they write criteria, one each. -/
theorem extendAll_eq_ok {source : String} {index : Nat} {entries : List Json} {last : Rubric} :
    extendAll source index r entries = .ok last ↔
      ∃ criteria, List.Forall₂ Writes entries criteria ∧
        last.criteria = r.criteria ++ criteria := by
  -- the rubric so far holds what the entries before these wrote
  induction entries generalizing index r with
  | nil =>
    simp only [extendAll, Except.ok.injEq, List.forall₂_nil_left_iff, exists_eq_left,
      List.append_nil]
    exact ⟨fun h => h ▸ rfl, fun h => (eq_of_criteria h).symm⟩
  | cons entry entries ih =>
    have hstep : extendAll source index r (entry :: entries) = .ok last ↔
        ∃ more, r.extend entry = .ok more ∧
          extendAll source (index + 1) more entries = .ok last := by
      rw [extendAll]
      cases r.extend entry <;> simp
    simp only [hstep, ih, extend_eq_ok]
    constructor
    · rintro ⟨more, ⟨c, hc, hgrows⟩, criteria, hcriteria, hlast⟩
      exact ⟨c :: criteria, .cons hc hcriteria, grows_append.1 ⟨more, hgrows, hlast⟩⟩
    · rintro ⟨_, hwritten, hlast⟩
      cases hwritten with
      | @cons _ c _ criteria hc hcriteria =>
        obtain ⟨more, hgrows, hmore⟩ := grows_append.2 hlast
        exact ⟨more, ⟨c, hc, hgrows⟩, criteria, hcriteria, hmore⟩

/-- Drafts pass one by one exactly if they are those of criteria. -/
theorem foldlM_addDraft_eq_ok {drafts : List Draft} {last : Rubric} :
    drafts.foldlM addDraft r = .ok last ↔
      ∃ criteria, drafts = criteria.map (·.draft) ∧ last.criteria = r.criteria ++ criteria := by
  -- on the drafts, with the rubric that has grown so far as the state
  induction drafts generalizing r with
  | nil =>
    have hdone : [].foldlM addDraft r = .ok last ↔ last.criteria = r.criteria ++ [] := by
      rw [List.append_nil]
      exact ⟨fun h => Except.ok.inj h ▸ rfl, fun h => eq_of_criteria h ▸ rfl⟩
    rw [hdone]
    constructor
    · exact fun h => ⟨[], rfl, h⟩
    · rintro ⟨criteria, hdrafts, hlast⟩
      rwa [List.map_eq_nil_iff.1 hdrafts.symm] at hlast
  | cons d drafts ih =>
    have hstep : (d :: drafts).foldlM addDraft r = .ok last ↔
        ∃ more, r.addDraft d = .ok more ∧ drafts.foldlM addDraft more = .ok last := by
      rw [List.foldlM_cons]
      cases r.addDraft d <;> simp [bind, Except.bind]
    simp only [hstep, ih, addDraft_eq_ok]
    constructor
    · rintro ⟨more, ⟨c, rfl, hgrows⟩, criteria, rfl, hlast⟩
      exact ⟨c :: criteria, rfl, grows_append.1 ⟨more, hgrows, hlast⟩⟩
    · rintro ⟨criteria, hdrafts, hlast⟩
      cases criteria with
      | nil => cases hdrafts
      | cons c criteria =>
        obtain ⟨rfl, rfl⟩ := List.cons.inj hdrafts
        obtain ⟨more, hgrows, hmore⟩ := grows_append.2 hlast
        exact ⟨more, ⟨c, rfl, hgrows⟩, criteria, rfl, hmore⟩

/-- Drafts pass exactly if they are the drafts of a rubric. -/
theorem ofDrafts_eq_ok {drafts : List Draft} : ofDrafts drafts = .ok r ↔ drafts = r.drafts := by
  rw [ofDrafts, foldlM_addDraft_eq_ok]
  simp [Rubric.empty, Rubric.drafts]

/-! ## Data -/

/-- Data is a rubric exactly if its entries write the criteria, one each and in order. -/
theorem ofJson_eq_ok {source : String} {data : Json} :
    ofJson source data = .ok r ↔
      ∃ entries, data.listed? "categories" = some entries ∧
        List.Forall₂ Writes entries r.criteria := by
  rw [ofJson]
  cases hentries : data.listed? "categories" with
  | none => simp
  | some entries => simp [extendAll_eq_ok, Rubric.empty]

/-- A wrong entry ends the reading, whatever comes after it. -/
theorem extendAll_error {source : String} {index : Nat} {entries : List Json} {error : RubricError}
    (h : extendAll source index r entries = .error error) :
    ∃ k fault, error = .entry source (index + k) fault ∧ k < entries.length ∧
      ∀ others, others.take (k + 1) = entries.take (k + 1) →
        extendAll source index r others = .error error := by
  induction entries generalizing index r with
  | nil => cases h
  | cons entry entries ih =>
    -- another list with the same front starts with the same entry
    have hcons {k : Nat} {others : List Json}
        (hsame : others.take (k + 1) = (entry :: entries).take (k + 1)) :
        ∃ more, others = entry :: more ∧ more.take k = entries.take k := by
      cases others with
      | nil => cases hsame
      | cons other more =>
        obtain ⟨rfl, hmore⟩ := List.cons.inj hsame
        exact ⟨more, rfl, hmore⟩
    cases hextend : r.extend entry with
    | error fault =>
      have herror : error = .entry source index fault := by
        simpa [extendAll, hextend, eq_comm] using h
      refine ⟨0, fault, herror, Nat.zero_lt_succ _, fun others hsame => ?_⟩
      obtain ⟨more, rfl, -⟩ := hcons hsame
      simp only [extendAll, hextend, herror]
    | ok added =>
      simp only [extendAll, hextend] at h
      obtain ⟨k, fault, herror, hk, hlater⟩ := ih h
      refine ⟨k + 1, fault, by rw [herror, Nat.add_right_comm, Nat.add_assoc], Nat.succ_lt_succ hk,
        fun others hsame => ?_⟩
      obtain ⟨more, rfl, hmore⟩ := hcons hsame
      simp only [extendAll, hextend]
      exact hlater more hmore

/-- Data that is refused at an entry is refused there whatever comes after it. -/
theorem ofJson_entry_error {source : String} {data : Json} {index : Nat} {fault : CriterionFault}
    (h : ofJson source data = .error (.entry source index fault)) :
    ∃ entries, data.listed? "categories" = some entries ∧ index < entries.length ∧
      ∀ data' others, data'.listed? "categories" = some others →
        others.take (index + 1) = entries.take (index + 1) →
          ofJson source data' = .error (.entry source index fault) := by
  rw [ofJson] at h
  cases hentries : data.listed? "categories" with
  | none => simp [hentries] at h
  | some entries =>
    rw [hentries] at h
    obtain ⟨k, other, herror, hk, hlater⟩ := extendAll_error h
    obtain ⟨-, rfl, rfl⟩ : source = source ∧ index = k ∧ fault = other := by simpa using herror
    refine ⟨entries, rfl, hk, fun data' others hothers hsame => ?_⟩
    rw [ofJson, hothers]
    exact hlater others hsame

end Rubric

/-! ## Grading -/

/-- A source file that cannot be read is the fault of the source. -/
theorem family_of_read_error {encoding : Text.Encoding} {path : Path} {failure : Failure}
    (h : SourceFile.read encoding tree path = .error failure) {d : Diagnostic}
    (hd : failure.account = .diagnosed d) : d.family = .source := by
  simp only [SourceFile.read, SourceFile.ofText] at h
  split at h
  · next fault _ =>
    cases h
    simp only [Failure.account, Account.unreadable] at hd
    split at hd <;> cases hd
    rfl
  · split at h
    · cases h
      -- a program that is nested too deep is no diagnostic
      simp only [Failure.account, SourceError.account] at hd
      split at hd <;> cases hd
      rfl
    · cases h

/-- A score lies between none and one for each threshold. -/
theorem Criterion.graded_bounds {c : Criterion} {s : CategoryScore}
    (h : c.graded tree repository found = .ok s) :
    s.category = c.category ∧ s.mode = c.mode ∧ s.score ≤ s.maxScore ∧
      s.maxScore = c.thresholds.length := by
  rcases graded_eq_ok.1 h with ⟨-, rfl⟩ | ⟨-, _, -, rfl⟩
  all_goals exact ⟨rfl, rfl, scoreBand_le_length _ _, rfl⟩

/-- Grading fails by the sources alone. -/
theorem Rubric.grade_error {r : Rubric} {failure : Failure}
    (h : (r.grade tree repository workers found).result = .error failure) {d : Diagnostic}
    (hd : failure.account = .diagnosed d) : d.family = .source := by
  have hscores : r.scores tree repository workers found = .error failure := by
    rw [Rubric.scores, h]
    rfl
  obtain ⟨-, _, path, _, -, -, hread⟩ := (r.scores_error failure).1 hscores
  exact family_of_read_error hread hd

/-- A rubric that loads has one criterion for each entry, as it is written and in order, each of
another category. Its drafts are without problems and pass for that rubric. It is graded, with one
score for each criterion between none and one for each threshold, unless a source file cannot be
read. A rubric that fails at an entry fails there, by the same fault, whatever comes after it. -/
theorem loaded_rubrics_grade (source : String) (data : Json) :
    (∀ r, Rubric.ofJson source data = .ok r →
      (∃ entries, data.listed? "categories" = some entries ∧
        List.Forall₂ Writes entries r.criteria) ∧
      r.categories.Nodup ∧ (∀ d ∈ r.drafts, d.problems = []) ∧ Rubric.ofDrafts r.drafts = .ok r ∧
      ∀ tree repository workers found,
        (∀ failure d, (r.grade tree repository workers found).result = .error failure →
          failure.account = .diagnosed d → d.family = .source) ∧
        ∀ scores, (r.grade tree repository workers found).result = .ok scores →
          List.Forall₂ (fun c s => s.category = c.category ∧ s.mode = c.mode ∧
            s.score ≤ s.maxScore ∧ s.maxScore = c.thresholds.length) r.criteria scores) ∧
    ∀ index fault, Rubric.ofJson source data = .error (.entry source index fault) →
      ∃ entries, data.listed? "categories" = some entries ∧ index < entries.length ∧
        ∀ data' others, data'.listed? "categories" = some others →
          others.take (index + 1) = entries.take (index + 1) →
            Rubric.ofJson source data' = .error (.entry source index fault) := by
  refine ⟨fun r hload => ⟨Rubric.ofJson_eq_ok.1 hload, r.distinct, ?_, ?_, ?_⟩,
    fun _ _ => Rubric.ofJson_entry_error⟩
  · intro d hd
    obtain ⟨c, -, rfl⟩ := List.mem_map.1 hd
    exact Draft.problems_draft c
  · exact Rubric.ofDrafts_eq_ok.2 rfl
  · intro tree repository workers found
    refine ⟨fun failure d hfails hd => Rubric.grade_error hfails hd, fun scores hscores => ?_⟩
    exact (Rubric.grade_ok hscores).imp fun c s => Criterion.graded_bounds

end Assay
