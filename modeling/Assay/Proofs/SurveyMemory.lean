import Assay.Proofs.Traversal
import Assay.Survey
import Mathlib.Algebra.GroupWithZero.Nat

/-!
# What a survey remembers

A survey is asked for one size after another, in any order, and some questions fail. `Asked` lists
what a single question can do. What is remembered is `Faithful` if it agrees with the repository; no
question changes that, so no question can tell which others came before it. Main statement: a survey
remembers all source files or none, and sizes only with what they were counted in; it answers every
question as if it were the first, reads no file once all are known, and keeps what it knew when a
question fails (`survey_remembers`).
-/

namespace Assay

open Source

variable {tree : FileTree}

/-! ## Reading every file -/

section Outcomes

variable {outcomes : List (Except Failure SourceFile)}

/-- Files are gathered as the outcomes come in a row. -/
theorem gather_result (outcomes : List (Except Failure SourceFile)) :
    (gather outcomes).result = outcomes.mapM id := by
  induction outcomes with
  | nil => rfl
  | cons outcome outcomes ih =>
    rw [List.mapM_cons, ← ih]
    cases outcome with
    | error failure => rfl
    | ok f =>
      simp only [gather, Logged.result_bind, Logged.result_tell, Logged.result_pure]
      rfl

/-- Files are gathered exactly if each of them can be read. -/
theorem gather_eq_ok {files : List SourceFile} :
    (gather outcomes).result = .ok files ↔ outcomes = files.map .ok := by
  rw [gather_result, mapM_eq_ok, List.map_id]

/-- Files that cannot be gathered fail as one of them does. -/
theorem mem_of_gather_error {failure : Failure} (h : (gather outcomes).result = .error failure) :
    .error failure ∈ outcomes := by
  rw [gather_result, mapM_eq_error] at h
  obtain ⟨before, outcome, after, rfl, -, houtcome⟩ := h
  exact List.mem_append_right _ (houtcome ▸ List.mem_cons_self ..)

/-- Files are gathered as they are read in a row. -/
theorem gather_map (read : Path → Except Failure SourceFile) (paths : List Path) :
    (gather (paths.map read)).result = paths.mapM read := by
  rw [gather_result, List.mapM_map]
  rfl

end Outcomes

/-! ## Sizes without a survey -/

/-- The source files of a repository, or the failure of the first that cannot be read. -/
def Repository.units (repository : Repository) (encoding : Text.Encoding) (tree : FileTree) :
    Except Failure (List SourceFile) :=
  (gather ((repository.sourceFiles tree).map (SourceFile.read encoding tree))).result

/-- What a rule counts in a repository. -/
def Repository.extent (repository : Repository) (encoding : Text.Encoding) (tree : FileTree)
    (rule : CountingRule) : Except Failure Nat :=
  match rule.population with
  | .uiDescriptions => .ok (repository.uiDescriptions tree).length
  | .sourceTrees => (repository.units encoding tree).map (Survey.total rule)

namespace Survey

/-- The size of a category under the profiles of a survey. -/
def sizeOf (s : Survey) (tree : FileTree) (category : Category) : Except Failure Nat :=
  match s.profiles.lookup category with
  | none => .error (.unruled category)
  | some profile => s.repository.extent s.encoding tree profile.rule

/-! ## One question -/

variable {s s' start : Survey} {category : Category}

/-- The survey with one more size. -/
def remember (s : Survey) (category : Category) (n : Nat) : Survey :=
  { s with sizes := (category, n) :: s.sizes }

/-- What a question does to a survey, and its answer. -/
inductive Asked (tree : FileTree) (s : Survey) (category : Category) :
    Survey → Except Failure Nat → Prop
  /-- The size is known. -/
  | known {n : Nat} (h : s.sizes.lookup category = some n) : Asked tree s category s (.ok n)
  /-- The category has no profile. -/
  | unruled (h : s.profiles.lookup category = none) :
    Asked tree s category s (.error (.unruled category))
  /-- The user-interface descriptions are counted. -/
  | listed {profile : Profile} (hprofile : s.profiles.lookup category = some profile)
    (hpopulation : profile.rule.population = .uiDescriptions) :
    Asked tree s category (s.remember category (s.repository.uiDescriptions tree).length)
      (.ok (s.repository.uiDescriptions tree).length)
  /-- The rule counts in sources that are known. -/
  | counted {profile : Profile} {files : List SourceFile}
    (hprofile : s.profiles.lookup category = some profile)
    (hpopulation : profile.rule.population = .sourceTrees) (hsources : s.sources = some files) :
    Asked tree s category (s.remember category (total profile.rule files))
      (.ok (total profile.rule files))
  /-- The sources are read before the rule counts in them. -/
  | read {profile : Profile} {files : List SourceFile} (reads : Nat)
    (hprofile : s.profiles.lookup category = some profile)
    (hpopulation : profile.rule.population = .sourceTrees) (hsources : s.sources = none)
    (hunits : s.repository.units s.encoding tree = .ok files) :
    Asked tree s category
      ({ s with sources := some files, reads }.remember category (total profile.rule files))
      (.ok (total profile.rule files))
  /-- A source cannot be read. -/
  | unread {profile : Profile} {failure : Failure} (reads : Nat)
    (hprofile : s.profiles.lookup category = some profile)
    (hpopulation : profile.rule.population = .sourceTrees) (hsources : s.sources = none)
    (hunits : s.repository.units s.encoding tree = .error failure) :
    Asked tree s category { s with reads } (.error failure)

/-- Sources that are known are not read again. -/
theorem scan_known {files : List SourceFile} (h : s.sources = some files) :
    s.scan tree = (s, pure files) := by
  simp only [scan, h]

/-- Sources that are not known are read, and kept if all of them can be. -/
theorem scan_unknown (tree : FileTree) (h : s.sources = none) :
    (s.scan tree).2.result = s.repository.units s.encoding tree ∧
      ∃ reads, (s.scan tree).1 =
        { s with sources := (s.repository.units s.encoding tree).toOption, reads } := by
  have hunits : (gather (Workers.map s.workers (SourceFile.read s.encoding tree)
      (s.repository.sourceFiles tree))).result = s.repository.units s.encoding tree := by
    rw [Workers.map_eq]
    rfl
  refine ⟨by simpa only [scan, h] using hunits, (s.scan tree).1.reads, ?_⟩
  simp only [scan, h, hunits]
  cases s.repository.units s.encoding tree <;> rfl

/-- Nothing else can happen. -/
theorem size_asked (s : Survey) (tree : FileTree) (category : Category) :
    Asked tree s category (s.size tree category).1 (s.size tree category).2.result := by
  cases hknown : s.sizes.lookup category with
  | some n =>
    simp only [size, hknown]
    exact .known hknown
  | none =>
    cases hprofile : s.profiles.lookup category with
    | none =>
      simp only [size, hknown, hprofile]
      exact .unruled hprofile
    | some profile =>
      simp only [size, hknown, hprofile]
      cases hpopulation : profile.rule.population with
      | uiDescriptions =>
        simp only [measure, hpopulation, Logged.result_pure]
        exact .listed hprofile hpopulation
      | sourceTrees =>
        simp only [measure, hpopulation, Logged.result_bind, Logged.result_tell, Logged.result_pure]
        cases hsources : s.sources with
        | some files =>
          rw [scan_known hsources]
          exact .counted hprofile hpopulation hsources
        | none =>
          obtain ⟨hresult, reads, hafter⟩ := scan_unknown tree hsources
          rw [hresult, hafter]
          cases hunits : s.repository.units s.encoding tree with
          | error failure =>
            -- no sources are put where there were none
            have hsame : { s with sources := none, reads } = { s with reads } := by rw [← hsources]
            simp only [Except.bind, Except.toOption, hsame]
            exact .unread reads hprofile hpopulation hsources hunits
          | ok files =>
            simp only [Except.bind, Except.toOption]
            exact .read reads hprofile hpopulation hsources hunits

/-! ## What is remembered is so -/

/-- A survey that came from another one, and what it knows agrees with the repository. -/
structure Faithful (tree : FileTree) (start s : Survey) : Prop where
  repository : s.repository = start.repository
  encoding : s.encoding = start.encoding
  profiles : s.profiles = start.profiles
  sources : ∀ files, s.sources = some files →
    start.repository.units start.encoding tree = .ok files
  sizes : ∀ category n, s.sizes.lookup category = some n → start.sizeOf tree category = .ok n
  /-- What was counted in sources is remembered with them. -/
  counted : ∀ category n profile, s.sizes.lookup category = some n →
    start.profiles.lookup category = some profile →
      profile.rule.population = .sourceTrees → s.sources.isSome

/-- A survey that knows nothing is faithful to itself. -/
theorem faithful_under (profiles : List (Category × Profile)) (repository : Repository)
    (encoding : Text.Encoding) (workers : Nat) :
    Faithful tree (.under profiles repository encoding workers)
      (.under profiles repository encoding workers) where
  repository := rfl
  encoding := rfl
  profiles := rfl
  sources := nofun
  sizes := nofun
  counted := nofun

namespace Faithful

/-- The size of a category depends on the settings only. -/
theorem sizeOf_eq (h : Faithful tree start s) (category : Category) :
    s.sizeOf tree category = start.sizeOf tree category := by
  simp only [Survey.sizeOf, h.repository, h.encoding, h.profiles]

/-- One more size may be remembered if it is right. -/
theorem remember (h : Faithful tree start s) {n : Nat} (hsize : start.sizeOf tree category = .ok n)
    (hcounted : ∀ profile, start.profiles.lookup category = some profile →
      profile.rule.population = .sourceTrees → s.sources.isSome) :
    Faithful tree start (s.remember category n) := by
  -- the new size stands first in the list, and hides no other category's
  have hlookup : ∀ other m, (s.remember category n).sizes.lookup other = some m →
      other = category ∧ n = m ∨ s.sizes.lookup other = some m := by
    intro other m hother
    rw [Survey.remember, List.lookup_cons] at hother
    cases hsame : other == category with
    | true => exact .inl ⟨eq_of_beq hsame, by simpa [hsame] using hother⟩
    | false => exact .inr (by simpa [hsame] using hother)
  refine ⟨h.repository, h.encoding, h.profiles, h.sources, ?_, ?_⟩
  · intro other m hother
    rcases hlookup other m hother with ⟨rfl, rfl⟩ | hbefore
    · exact hsize
    · exact h.sizes other m hbefore
  · intro other m profile hother
    rcases hlookup other m hother with ⟨rfl, rfl⟩ | hbefore
    · exact hcounted profile
    · exact h.counted other m profile hbefore

/-- Sources may be remembered if they are what the repository holds. -/
theorem read (h : Faithful tree start s) {files : List SourceFile} (reads : Nat)
    (hunits : s.repository.units s.encoding tree = .ok files) :
    Faithful tree start { s with sources := some files, reads } := by
  rw [h.repository, h.encoding] at hunits
  refine ⟨h.repository, h.encoding, h.profiles, ?_, h.sizes, fun _ _ _ _ _ _ => rfl⟩
  rintro other ⟨⟩
  exact hunits

/-- A size counted in the sources is the total of its rule over them, if they can be read. -/
theorem sizeOf_of_sources (h : Faithful tree start s) {profile : Profile}
    (hprofile : s.profiles.lookup category = some profile)
    (hpopulation : profile.rule.population = .sourceTrees) :
    start.sizeOf tree category =
      (s.repository.units s.encoding tree).map (total profile.rule) := by
  rw [← h.sizeOf_eq]
  simp only [Survey.sizeOf, hprofile, Repository.extent, hpopulation]

/-- A question gets the size it asks for, and leaves a survey faithful. -/
theorem asked {answer : Except Failure Nat} (h : Faithful tree start s)
    (hasked : Asked tree s category s' answer) :
    Faithful tree start s' ∧ answer = start.sizeOf tree category := by
  -- by the way the answer was found; what is remembered is what would be found again
  cases hasked with
  | known hknown => exact ⟨h, (h.sizes _ _ hknown).symm⟩
  | unruled hprofile =>
    refine ⟨h, ?_⟩
    rw [← h.sizeOf_eq, Survey.sizeOf, hprofile]
  | @listed profile hprofile hpopulation =>
    have hsize : s.sizeOf tree category = .ok (s.repository.uiDescriptions tree).length := by
      simp only [Survey.sizeOf, hprofile, Repository.extent, hpopulation]
    rw [h.sizeOf_eq] at hsize
    refine ⟨h.remember hsize fun other hother hsources => ?_, hsize.symm⟩
    rw [← h.profiles, hprofile] at hother
    cases hother
    rw [hpopulation] at hsources
    cases hsources
  | @counted profile files hprofile hpopulation hsources =>
    have hunits : s.repository.units s.encoding tree = .ok files := by
      rw [h.repository, h.encoding, h.sources files hsources]
    have hsize := h.sizeOf_of_sources hprofile hpopulation
    rw [hunits] at hsize
    exact ⟨h.remember hsize fun _ _ _ => by rw [hsources]; rfl, hsize.symm⟩
  | @read profile files reads hprofile hpopulation hsources hunits =>
    have hsize := h.sizeOf_of_sources hprofile hpopulation
    rw [hunits] at hsize
    exact ⟨(h.read reads hunits).remember hsize fun _ _ _ => rfl, hsize.symm⟩
  | @unread profile failure reads hprofile hpopulation hsources hunits =>
    have hsize := h.sizeOf_of_sources hprofile hpopulation
    rw [hunits] at hsize
    exact ⟨⟨h.repository, h.encoding, h.profiles, h.sources, h.sizes, h.counted⟩, hsize.symm⟩

/-- A remembered size is what the rule of its category counts, in sources that are known too. -/
theorem remembered (h : Faithful tree start s) {n : Nat}
    (hknown : s.sizes.lookup category = some n) :
    ∃ profile, start.profiles.lookup category = some profile ∧
      (profile.rule.population = .uiDescriptions ∧
          n = (start.repository.uiDescriptions tree).length ∨
        profile.rule.population = .sourceTrees ∧
          ∃ files, s.sources = some files ∧ n = total profile.rule files) := by
  have hsize := h.sizes category n hknown
  cases hprofile : start.profiles.lookup category with
  | none => simp [Survey.sizeOf, hprofile] at hsize
  | some profile =>
    refine ⟨profile, rfl, ?_⟩
    simp only [Survey.sizeOf, hprofile, Repository.extent] at hsize
    cases hpopulation : profile.rule.population with
    | uiDescriptions =>
      rw [hpopulation] at hsize
      exact .inl ⟨rfl, (Except.ok.inj hsize).symm⟩
    | sourceTrees =>
      obtain ⟨files, hsources⟩ :=
        Option.isSome_iff_exists.1 (h.counted category n profile hknown hprofile hpopulation)
      rw [hpopulation] at hsize
      simp only [h.sources files hsources, Except.map, Except.ok.injEq] at hsize
      exact .inr ⟨rfl, files, hsources, hsize.symm⟩

/-- A survey gives the size of every category, whatever it was asked before. -/
theorem size (h : Faithful tree start s) (category : Category) :
    Faithful tree start (s.size tree category).1 ∧
      (s.size tree category).2.result = start.sizeOf tree category :=
  h.asked (size_asked s tree category)

end Faithful

/-! ## What a question leaves alone -/

/-- Known sources stay, and no file is read. -/
theorem Asked.known_sources {answer : Except Failure Nat} {files : List SourceFile}
    (hasked : Asked tree s category s' answer) (hsources : s.sources = some files) :
    s'.sources = some files ∧ s'.reads = s.reads ∧ s'.repository = s.repository := by
  cases hasked with
  | known | unruled | listed | counted => exact ⟨hsources, rfl, rfl⟩
  | read _ _ _ hnone | unread _ _ _ hnone =>
    -- sources are read only while there are none
    rw [hsources] at hnone
    cases hnone

/-- A question that fails leaves all that is known, and fails for want of a profile or by a source
that cannot be read. -/
theorem Asked.failed {failure : Failure} (hasked : Asked tree s category s' (.error failure)) :
    s'.sources = s.sources ∧ s'.sizes = s.sizes ∧
      (s.profiles.lookup category = none ∧ failure = .unruled category ∨
        ∃ path ∈ s.repository.sourceFiles tree,
          SourceFile.read s.encoding tree path = .error failure) := by
  cases hasked with
  | unruled hprofile => exact ⟨rfl, rfl, .inl ⟨hprofile, rfl⟩⟩
  | unread _ _ _ _ hunits =>
    exact ⟨rfl, rfl, .inr (List.mem_map.1 (mem_of_gather_error hunits))⟩

/-- Where the sources are known, a tree matters for its user-interface descriptions only. -/
theorem size_of_known_sources {files : List SourceFile} {tree' : FileTree}
    (hsources : s.sources = some files)
    (hlengths : (s.repository.uiDescriptions tree').length =
      (s.repository.uiDescriptions tree).length) (category : Category) :
    s.size tree' category = s.size tree category := by
  simp only [size, measure, scan_known hsources, hlengths]

/-! ## Many questions -/

/-- A survey after several questions, some of which may fail, with the answers in order. -/
def ask (s : Survey) (tree : FileTree) :
    List Category → Survey × List (Except Failure Nat)
  | [] => (s, [])
  | category :: categories =>
    let (after, found) := s.size tree category
    let (last, answers) := after.ask tree categories
    (last, found.result :: answers)

theorem ask_cons (s : Survey) (tree : FileTree) (category : Category)
    (categories : List Category) :
    s.ask tree (category :: categories) =
      (((s.size tree category).1.ask tree categories).1,
        (s.size tree category).2.result :: ((s.size tree category).1.ask tree categories).2) :=
  rfl

/-- Once the sources are known no file is read, so the files on disk do not matter any more. -/
theorem ask_of_known_sources (tree : FileTree) {files : List SourceFile}
    (hsources : s.sources = some files) (categories : List Category) :
    (s.ask tree categories).1.sources = some files ∧ (s.ask tree categories).1.reads = s.reads ∧
      ∀ tree' : FileTree, (s.repository.uiDescriptions tree').length =
          (s.repository.uiDescriptions tree).length →
        s.ask tree' categories = s.ask tree categories := by
  induction categories generalizing s with
  | nil => exact ⟨hsources, rfl, fun _ _ => rfl⟩
  | cons category categories ih =>
    obtain ⟨hkept, hreads, hrepository⟩ := (size_asked s tree category).known_sources hsources
    obtain ⟨hlast, hlastReads, hsame⟩ := ih hkept
    refine ⟨hlast, hlastReads.trans hreads, fun tree' hlengths => ?_⟩
    rw [ask_cons, ask_cons, size_of_known_sources hsources hlengths,
      hsame tree' (by rw [hrepository, hlengths])]

/-- Every question is answered by the size it asks for. -/
theorem Faithful.ask (h : Faithful tree start s) (categories : List Category) :
    Faithful tree start (s.ask tree categories).1 ∧
      (s.ask tree categories).2 = categories.map (start.sizeOf tree) := by
  -- every survey on the way is faithful to the first one, not to the one before it
  induction categories generalizing s with
  | nil => exact ⟨h, rfl⟩
  | cons category categories ih =>
    obtain ⟨hafter, hanswer⟩ := h.size category
    obtain ⟨hlast, hanswers⟩ := ih hafter
    rw [ask_cons]
    exact ⟨hlast, by rw [hanswer, hanswers, List.map_cons]⟩

end Survey

/-- After any questions, a survey knows all source files as they are read, in order, or none; a size
that it knows is what its rule counts in them, or the number of user-interface descriptions. Every
question is answered as if it were the first. Once the sources are known no file is read, so only
the user-interface descriptions of the tree still matter; and a question that fails, for want of a
profile or by a file that cannot be read, leaves what is known as it was. -/
theorem survey_remembers (tree : FileTree) (repository : Repository) (encoding : Text.Encoding)
    (workers : Nat) (profiles : List (Category × Profile)) (categories : List Category) :
    let start := Survey.under profiles repository encoding workers
    let s := (start.ask tree categories).1
    (∀ files, s.sources = some files →
      (repository.sourceFiles tree).map (SourceFile.read encoding tree) = files.map .ok) ∧
    (∀ category n, s.sizes.lookup category = some n →
      ∃ profile, profiles.lookup category = some profile ∧
        (profile.rule.population = .uiDescriptions ∧ n = (repository.uiDescriptions tree).length ∨
          profile.rule.population = .sourceTrees ∧ ∃ files, s.sources = some files ∧
            n = (files.map fun f => profile.rule.count f.unit).sum)) ∧
    (start.ask tree categories).2 =
      categories.map (fun category => (start.size tree category).2.result) ∧
    (s.sources.isSome → ∀ later,
      (s.ask tree later).1.sources = s.sources ∧ (s.ask tree later).1.reads = s.reads ∧
        ∀ tree' : FileTree, (repository.uiDescriptions tree').length =
            (repository.uiDescriptions tree).length →
          s.ask tree' later = s.ask tree later) ∧
    (∀ category failure, (s.size tree category).2.result = .error failure →
      (s.size tree category).1.sources = s.sources ∧ (s.size tree category).1.sizes = s.sizes ∧
        (profiles.lookup category = none ∧ failure = .unruled category ∨
          ∃ path ∈ repository.sourceFiles tree,
            SourceFile.read encoding tree path = .error failure)) := by
  intro start s
  -- the first question is asked of a survey that knows nothing, which is faithful
  have hstart : Survey.Faithful tree start start :=
    Survey.faithful_under profiles repository encoding workers
  obtain ⟨hs, hanswers⟩ := hstart.ask categories
  refine ⟨?_, fun category n hknown => hs.remembered hknown, ?_, ?_, ?_⟩
  · intro files hfiles
    exact gather_eq_ok.1 (hs.sources files hfiles)
  · rw [hanswers]
    exact List.map_congr_left fun category _ => (hstart.size category).2.symm
  -- once the sources are known, the tree is asked for user-interface descriptions only
  · intro hsome later
    obtain ⟨files, hfiles⟩ := Option.isSome_iff_exists.1 hsome
    obtain ⟨hsources, hreads, hsame⟩ := Survey.ask_of_known_sources tree hfiles later
    refine ⟨hsources.trans hfiles.symm, hreads, fun tree' hlengths => hsame tree' ?_⟩
    rwa [hs.repository]
  -- a question that fails is one asked of the survey as it stands
  · intro category failure hfails
    have hasked := Survey.size_asked s tree category
    rw [hfails] at hasked
    obtain ⟨hsources, hsizes, hcause⟩ := hasked.failed
    rw [hs.profiles, hs.repository, hs.encoding] at hcause
    exact ⟨hsources, hsizes, hcause⟩

/-- A question without a profile fails, and the file is still read only once. -/
example :
    let tree : FileTree := .directory [("A.java", .file "class A \x7b \x7d".toUTF8.toList)]
    let start := Survey.under [(.classNames, Category.classNames.profile)] ⟨⟨0, []⟩⟩ .utf8 1
    let (last, answers) := start.ask tree [.methodNames, .classNames, .classNames]
    answers.map (·.toOption) = [none, some 1, some 1] ∧ last.reads = 1 := by
  decide +kernel

end Assay
