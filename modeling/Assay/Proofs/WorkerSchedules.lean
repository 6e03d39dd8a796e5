import Assay.Proofs.WorkerPool

/-!
# Surveys under a schedule

A survey with several workers hands its files to a pool, and the pool may go any way. `Scanned`,
`Sized` and `Answered` say what the survey can then find: its sources, one size, a list of sizes.
All three are functions of what the files give in a row (`Scanned.eq`, `Sized.eq`, `Answered.eq`),
so neither the number of workers nor the schedule can be told from the answers. Main statement:
`schedules_agree`.
-/

namespace Assay

open Source

namespace Survey

variable {read : Path → Except Failure SourceFile} {paths : List Path} {tree : FileTree}
  {units : Except Failure (List SourceFile)} {s s' : Survey} {category : Category}
  {categories : List Category} {answer : Except Failure Nat} {answers : List (Except Failure Nat)}

/-! ## What can happen -/

/-- The survey once its files were read: all of them are kept, or none. -/
def keep (s : Survey) (units : Except Failure (List SourceFile)) : Survey :=
  { s with sources := units.toOption }

/-- How a survey may come by its sources, and what it keeps of them. -/
inductive Scanned (read : Path → Except Failure SourceFile) (paths : List Path) (s : Survey) :
    Survey → Except Failure (List SourceFile) → Prop
  | known {files : List SourceFile} (hsources : s.sources = some files) :
    Scanned read paths s s (.ok files)
  /-- A single worker reads the files in a row, and so does anyone who has but one to read. -/
  | alone (hsources : s.sources = none) (hone : s.workers ≤ 1 ∨ paths.length ≤ 1) :
    Scanned read paths s (s.keep (paths.mapM read)) (paths.mapM read)
  /-- Several workers share the files in a pool, which goes its way to the end. -/
  | shared {n : Nat} {pool : Workers.Pool Path SourceFile Failure}
    {units : Except Failure (List SourceFile)} (hsources : s.sources = none)
    (hmany : 1 < s.workers ∧ 1 < paths.length)
    (hrun : Workers.Pool.Run read paths s.workers n pool) (hended : pool.Ended)
    (hanswer : pool.answer = some units) : Scanned read paths s (s.keep units) units

/-- How a survey may come by the size of a category. -/
inductive Sized (read : Path → Except Failure SourceFile) (paths : List Path) (tree : FileTree)
    (s : Survey) (category : Category) : Survey → Except Failure Nat → Prop
  | known {n : Nat} (hknown : s.sizes.lookup category = some n) :
    Sized read paths tree s category s (.ok n)
  | unruled (hnew : s.sizes.lookup category = none) (hprofile : s.profiles.lookup category = none) :
    Sized read paths tree s category s (.error (.unruled category))
  | listed {profile : Profile} (hnew : s.sizes.lookup category = none)
    (hprofile : s.profiles.lookup category = some profile)
    (hpopulation : profile.rule.population = .uiDescriptions) :
    Sized read paths tree s category
      (s.remember category (s.repository.uiDescriptions tree).length)
      (.ok (s.repository.uiDescriptions tree).length)
  | counted {profile : Profile} {files : List SourceFile} {s' : Survey}
    (hnew : s.sizes.lookup category = none) (hprofile : s.profiles.lookup category = some profile)
    (hpopulation : profile.rule.population = .sourceTrees)
    (hscan : Scanned read paths s s' (.ok files)) :
    Sized read paths tree s category (s'.remember category (total profile.rule files))
      (.ok (total profile.rule files))
  | unread {profile : Profile} {failure : Failure} {s' : Survey}
    (hnew : s.sizes.lookup category = none) (hprofile : s.profiles.lookup category = some profile)
    (hpopulation : profile.rule.population = .sourceTrees)
    (hscan : Scanned read paths s s' (.error failure)) :
    Sized read paths tree s category s' (.error failure)

/-- How a survey may answer several questions, each under a schedule of its own. -/
inductive Answered (read : Path → Except Failure SourceFile) (paths : List Path)
    (tree : FileTree) : Survey → List Category → Survey → List (Except Failure Nat) → Prop
  | nil (s : Survey) : Answered read paths tree s [] s []
  | cons {s after last : Survey} {category : Category} {categories : List Category}
    {answer : Except Failure Nat} {answers : List (Except Failure Nat)}
    (hsize : Sized read paths tree s category after answer)
    (hrest : Answered read paths tree after categories last answers) :
    Answered read paths tree s (category :: categories) last (answer :: answers)

/-! ## What must happen -/

/-- The sources of a survey, if its files are read like this. -/
def settleSources (units : Except Failure (List SourceFile)) (s : Survey) :
    Survey × Except Failure (List SourceFile) :=
  match s.sources with
  | some files => (s, .ok files)
  | none => (s.keep units, units)

/-- The size of a category, if the files of a survey are read like this. -/
def settleSize (units : Except Failure (List SourceFile)) (tree : FileTree) (s : Survey)
    (category : Category) : Survey × Except Failure Nat :=
  match s.sizes.lookup category with
  | some n => (s, .ok n)
  | none =>
    match s.profiles.lookup category with
    | none => (s, .error (.unruled category))
    | some profile =>
      match profile.rule.population with
      | .uiDescriptions =>
        (s.remember category (s.repository.uiDescriptions tree).length,
          .ok (s.repository.uiDescriptions tree).length)
      | .sourceTrees =>
        match s.settleSources units with
        | (after, .ok files) =>
          (after.remember category (total profile.rule files), .ok (total profile.rule files))
        | (after, .error failure) => (after, .error failure)

/-- The sizes of several categories, if the files of a survey are read like this. -/
def settle (units : Except Failure (List SourceFile)) (tree : FileTree) (s : Survey) :
    List Category → Survey × List (Except Failure Nat)
  | [] => (s, [])
  | category :: categories =>
    let (after, answer) := s.settleSize units tree category
    let (last, answers) := after.settle units tree categories
    (last, answer :: answers)

/-! ## Every schedule settles alike -/

/-- Whatever way the files are read, they come as they do in a row. -/
theorem Scanned.eq {found : Except Failure (List SourceFile)}
    (h : Scanned read paths s s' found) : (s', found) = s.settleSources (paths.mapM read) := by
  cases h with
  | known hsources => simp only [settleSources, hsources]
  | alone hsources _ => simp only [settleSources, hsources]
  | shared hsources _ hrun _ hanswer => simp only [settleSources, hsources, hrun.answer_eq hanswer]

/-- A pool comes to its end, so a survey comes by its sources or by a failure. -/
theorem Scanned.exists (read : Path → Except Failure SourceFile) (paths : List Path) (s : Survey) :
    ∃ s' found, Scanned read paths s s' found := by
  cases hsources : s.sources with
  | some files => exact ⟨_, _, .known hsources⟩
  | none =>
    by_cases hone : s.workers ≤ 1 ∨ paths.length ≤ 1
    · exact ⟨_, _, .alone hsources hone⟩
    · have hmany : 1 < s.workers ∧ 1 < paths.length := by omega
      have hstart : Workers.Pool.Run read paths s.workers 0 (.start paths) := .start
      obtain ⟨n, pool, hrun, hended⟩ := hstart.exists_ended (Nat.le_of_lt hmany.1)
      obtain ⟨units, hanswer⟩ := Option.isSome_iff_exists.1 hended.1
      exact ⟨_, _, .shared hsources hmany hrun hended hanswer⟩

/-- A size is the same however the files were read. -/
theorem Sized.eq (h : Sized read paths tree s category s' answer) :
    (s', answer) = s.settleSize (paths.mapM read) tree category := by
  cases h with
  | known hknown => simp only [settleSize, hknown]
  | unruled hnew hprofile => simp only [settleSize, hnew, hprofile]
  | listed hnew hprofile hpopulation => simp only [settleSize, hnew, hprofile, hpopulation]
  | counted hnew hprofile hpopulation hscan | unread hnew hprofile hpopulation hscan =>
    simp only [settleSize, hnew, hprofile, hpopulation, ← hscan.eq]

/-- Every question gets an answer. -/
theorem Sized.exists (read : Path → Except Failure SourceFile) (paths : List Path)
    (tree : FileTree) (s : Survey) (category : Category) :
    ∃ s' answer, Sized read paths tree s category s' answer := by
  cases hknown : s.sizes.lookup category with
  | some n => exact ⟨_, _, .known hknown⟩
  | none =>
    cases hprofile : s.profiles.lookup category with
    | none => exact ⟨_, _, .unruled hknown hprofile⟩
    | some profile =>
      cases hpopulation : profile.rule.population with
      | uiDescriptions => exact ⟨_, _, .listed hknown hprofile hpopulation⟩
      | sourceTrees =>
        obtain ⟨s', found, hscan⟩ := Scanned.exists read paths s
        cases found with
        | error failure => exact ⟨_, _, .unread hknown hprofile hpopulation hscan⟩
        | ok files => exact ⟨_, _, .counted hknown hprofile hpopulation hscan⟩

/-- The answers are the same, each under whatever schedule. -/
theorem Answered.eq (h : Answered read paths tree s categories s' answers) :
    (s', answers) = s.settle (paths.mapM read) tree categories := by
  induction h with
  | nil s => rfl
  | cons hsize _ ih => simp only [settle, ← hsize.eq, ← ih]

/-- All questions get their answers. -/
theorem Answered.exists (read : Path → Except Failure SourceFile) (paths : List Path)
    (tree : FileTree) (s : Survey) (categories : List Category) :
    ∃ s' answers, Answered read paths tree s categories s' answers := by
  induction categories generalizing s with
  | nil => exact ⟨s, [], .nil s⟩
  | cons category categories ih =>
    obtain ⟨after, answer, hsize⟩ := Sized.exists read paths tree s category
    obtain ⟨last, answers, hrest⟩ := ih after
    exact ⟨last, answer :: answers, .cons hsize hrest⟩

/-! ## The number of workers is not looked at -/

/-- A size depends neither on the number of workers nor on how many files were read. -/
theorem settleSize_workers (units : Except Failure (List SourceFile)) (tree : FileTree)
    (s : Survey) (category : Category) (workers reads : Nat) :
    { s with workers, reads }.settleSize units tree category =
      ({ (s.settleSize units tree category).1 with workers, reads },
        (s.settleSize units tree category).2) := by
  cases hknown : s.sizes.lookup category with
  | some n => simp only [settleSize, hknown]
  | none =>
    cases hprofile : s.profiles.lookup category with
    | none => simp only [settleSize, hknown, hprofile]
    | some profile =>
      cases hpopulation : profile.rule.population with
      | uiDescriptions => simp only [settleSize, hknown, hprofile, hpopulation, remember]
      | sourceTrees =>
        cases hsources : s.sources with
        | some files =>
          simp only [settleSize, settleSources, hknown, hprofile, hpopulation, hsources, remember]
        | none =>
          cases units <;>
            simp only [settleSize, settleSources, hknown, hprofile, hpopulation, hsources, keep,
              remember]

/-- Nor do any sizes, one after the other. -/
theorem settle_workers (units : Except Failure (List SourceFile)) (tree : FileTree) (s : Survey)
    (categories : List Category) (workers reads : Nat) :
    { s with workers, reads }.settle units tree categories =
      ({ (s.settle units tree categories).1 with workers, reads },
        (s.settle units tree categories).2) := by
  induction categories generalizing s with
  | nil => rfl
  | cons category categories ih => simp only [settle, settleSize_workers, ih]

/-! ## Surveys that run -/

/-- A question leaves the repository and the encoding. -/
theorem settleSize_settings (units : Except Failure (List SourceFile)) (tree : FileTree)
    (s : Survey) (category : Category) :
    (s.settleSize units tree category).1.repository = s.repository ∧
      (s.settleSize units tree category).1.encoding = s.encoding := by
  have hsources : (s.settleSources units).1.repository = s.repository ∧
      (s.settleSources units).1.encoding = s.encoding := by
    cases hsources : s.sources <;> simp only [settleSources, hsources, keep, and_self]
  simp only [settleSize]
  split
  · exact ⟨rfl, rfl⟩
  · split
    · exact ⟨rfl, rfl⟩
    · split
      · exact ⟨rfl, rfl⟩
      · split <;> rename_i hfound <;> rw [hfound] at hsources <;> exact hsources

/-- What a question does to a survey that runs, it does if the files are read in a row. -/
theorem Asked.settled (hnew : s.sizes.lookup category = none)
    (h : Asked tree s category s' answer) :
    (∃ reads, s' =
      { (s.settleSize (s.repository.units s.encoding tree) tree category).1 with reads }) ∧
    answer = (s.settleSize (s.repository.units s.encoding tree) tree category).2 := by
  cases h with
  | known hknown =>
    rw [hnew] at hknown
    cases hknown
  | unruled hprofile =>
    simp only [settleSize, hnew, hprofile, and_true]
    exact ⟨s.reads, rfl⟩
  | listed hprofile hpopulation =>
    simp only [settleSize, hnew, hprofile, hpopulation, and_true]
    exact ⟨s.reads, rfl⟩
  | counted hprofile hpopulation hsources =>
    simp only [settleSize, settleSources, hnew, hprofile, hpopulation, hsources, and_true]
    exact ⟨s.reads, rfl⟩
  | read reads hprofile hpopulation hsources hunits =>
    simp only [settleSize, settleSources, hnew, hprofile, hpopulation, hsources, hunits, and_true]
    exact ⟨reads, rfl⟩
  | unread reads hprofile hpopulation hsources hunits =>
    simp only [settleSize, settleSources, hnew, hprofile, hpopulation, hsources, hunits, and_true]
    refine ⟨reads, ?_⟩
    rw [keep, Except.toOption, ← hsources]

/-- A survey that runs finds the sizes that its files give when they are read in a row. -/
theorem size_settled (s : Survey) (tree : FileTree) (category : Category) :
    (∃ reads, (s.size tree category).1 =
      { (s.settleSize (s.repository.units s.encoding tree) tree category).1 with reads }) ∧
    (s.size tree category).2.result =
      (s.settleSize (s.repository.units s.encoding tree) tree category).2 := by
  cases hknown : s.sizes.lookup category with
  | some n =>
    simp only [size, settleSize, hknown, Logged.result_pure, and_true]
    exact ⟨s.reads, rfl⟩
  | none => exact (size_asked s tree category).settled hknown

/-- So it does for every question, one after the other. -/
theorem ask_settled (tree : FileTree) (hunits : s.repository.units s.encoding tree = units)
    (categories : List Category) :
    (s.ask tree categories).1.sources = (s.settle units tree categories).1.sources ∧
      (s.ask tree categories).1.sizes = (s.settle units tree categories).1.sizes ∧
      (s.ask tree categories).2 = (s.settle units tree categories).2 := by
  induction categories generalizing s with
  | nil => exact ⟨rfl, rfl, rfl⟩
  | cons category categories ih =>
    obtain ⟨⟨reads, hafter⟩, hanswer⟩ := size_settled s tree category
    obtain ⟨hrepository, hencoding⟩ := settleSize_settings units tree s category
    rw [hunits] at hafter hanswer
    have hsame : (s.size tree category).1.repository.units (s.size tree category).1.encoding tree =
        units := by
      rw [hafter]
      simp only [hrepository, hencoding, hunits]
    obtain ⟨hsources, hsizes, hanswers⟩ := ih hsame
    -- the number of files read so far does not show in the answers to come
    have hrest := settle_workers units tree (s.settleSize units tree category).1 categories
      (s.settleSize units tree category).1.workers reads
    rw [← hafter] at hrest
    rw [hrest] at hsources hsizes hanswers
    exact ⟨hsources, hsizes, congrArg₂ List.cons hanswer hanswers⟩

/-! ## Under any schedule -/

/-- Files that are read are all kept, and none is kept if one of them fails. -/
theorem Scanned.sources {found : Except Failure (List SourceFile)}
    (h : Scanned read paths s s' found) (hnone : s.sources = none) :
    found = paths.mapM read ∧ s'.sources = found.toOption := by
  have heq := h.eq
  simp only [settleSources, hnone, Prod.mk.injEq] at heq
  obtain ⟨rfl, rfl⟩ := heq
  exact ⟨rfl, rfl⟩

/-- Two surveys that differ in the number of workers give the same answers and keep the same. -/
theorem Answered.workers_irrelevant {workers workers' : Nat} {s₁ s₂ : Survey}
    {answers₁ answers₂ : List (Except Failure Nat)}
    (h₁ : Answered read paths tree { s with workers } categories s₁ answers₁)
    (h₂ : Answered read paths tree { s with workers := workers' } categories s₂ answers₂) :
    answers₁ = answers₂ ∧ s₁ = { s₂ with workers } := by
  -- both come from the sizes that `s` itself settles on
  have heq₁ := h₁.eq.trans
    (settle_workers (paths.mapM read) tree s categories workers s.reads)
  have heq₂ := h₂.eq.trans
    (settle_workers (paths.mapM read) tree s categories workers' s.reads)
  rw [Prod.mk.injEq] at heq₁ heq₂
  obtain ⟨rfl, rfl⟩ := heq₁
  obtain ⟨rfl, rfl⟩ := heq₂
  exact ⟨rfl, rfl⟩

/-- What a survey finds under any schedule, it finds when it runs. -/
theorem Answered.eq_ask
    (h : Answered (SourceFile.read s.encoding tree) (s.repository.sourceFiles tree) tree s
      categories s' answers) :
    answers = (s.ask tree categories).2 ∧ s'.sources = (s.ask tree categories).1.sources ∧
      s'.sizes = (s.ask tree categories).1.sizes := by
  have hunits : s.repository.units s.encoding tree =
      (s.repository.sourceFiles tree).mapM (SourceFile.read s.encoding tree) := gather_map ..
  obtain ⟨hsources, hsizes, hanswers⟩ := ask_settled tree hunits categories
  rw [← h.eq] at hsources hsizes hanswers
  exact ⟨hanswers.symm, hsources.symm, hsizes.symm⟩

end Survey

/-- The files of a survey may be shared by any number of workers, and the workers may get done in
any order: what comes of it is what one worker finds. All files are there, in their order, if each
can be read; else the first on the list that cannot be read says why, and no file is kept. No run of
a pool goes on for ever, gets stuck or reads a file twice; with a worker for every file, they can get
done in any order. So all sizes and failures are the same under every number of workers and every
schedule, and they are those of a survey that runs. -/
theorem schedules_agree (read : Path → Except Failure SourceFile) (paths : List Path) {jobs : Nat}
    (hjobs : 1 ≤ jobs) :
    (∀ files, paths.mapM read = .ok files ↔ paths.map read = files.map .ok) ∧
    (∀ failure, paths.mapM read = .error failure ↔
      ∃ before path after, paths = before ++ path :: after ∧
        (∀ p ∈ before, ∃ f, read p = .ok f) ∧ read path = .error failure) ∧
    (gather (Workers.map jobs read paths)).result = paths.mapM read ∧
    (∀ n pool, Workers.Pool.Run read paths jobs n pool →
      n ≤ 3 * paths.length + 1 ∧
      (pool.Ended ∨ ∃ next, Workers.Pool.Step read paths jobs pool next) ∧
      (pool.finished.map Prod.snd).Nodup ∧
      ∀ answer, pool.answer = some answer → answer = paths.mapM read) ∧
    (∀ order : List Nat, order.Perm (List.range paths.length) → paths.length ≤ jobs →
      ∃ n pool, Workers.Pool.Run read paths jobs n pool ∧ pool.finished.map Prod.snd = order) ∧
    ∀ s : Survey,
      (∀ s' found, Survey.Scanned read paths { s with workers := jobs } s' found →
        s.sources = none → found = paths.mapM read ∧ s'.sources = found.toOption) ∧
      ∀ tree categories,
        (∃ s' answers,
          Survey.Answered read paths tree { s with workers := jobs } categories s' answers) ∧
        (∀ s' answers one oneAnswers,
          Survey.Answered read paths tree { s with workers := jobs } categories s' answers →
          Survey.Answered read paths tree { s with workers := 1 } categories one oneAnswers →
          answers = oneAnswers ∧ s' = { one with workers := jobs }) ∧
        ∀ s' answers,
          Survey.Answered (SourceFile.read s.encoding tree) (s.repository.sourceFiles tree) tree
            { s with workers := jobs } categories s' answers →
          answers = ({ s with workers := jobs }.ask tree categories).2 ∧
            s'.sources = ({ s with workers := jobs }.ask tree categories).1.sources ∧
            s'.sizes = ({ s with workers := jobs }.ask tree categories).1.sizes := by
  refine ⟨fun files => mapM_eq_ok, fun failure => mapM_eq_error, ?_, ?_, ?_, fun s => ⟨?_, ?_⟩⟩
  · rw [Workers.map_eq, gather_map]
  -- every run of the pool: bounded, never stuck, and each file read once
  · intro n pool hrun
    have hlength := hrun.length_add_left_le
    refine ⟨by omega, ?_, hrun.nodup_finished, fun answer => hrun.answer_eq⟩
    exact or_iff_not_imp_left.2 (Workers.Pool.Step.exists_of_not_ended hjobs hrun.sound)
  -- with a worker for every file, any order of finishing is that of a run
  · intro order horder hmany
    obtain ⟨n, pool, hrun, -, hfinished, -⟩ := Workers.Pool.Run.exists_order read hmany
      (horder.nodup_iff.2 List.nodup_range) horder.subset
    exact ⟨n, pool, hrun, hfinished⟩
  · exact fun s' found hscan => hscan.sources
  · intro tree categories
    exact ⟨Survey.Answered.exists .., fun _ _ _ _ h hone => h.workers_irrelevant hone,
      fun _ _ h => h.eq_ask⟩

/-- Of two files that cannot be read, the first is blamed even where the second fails earlier. -/
theorem schedules_agree_second_earlier :
    let read := SourceFile.read .utf8 (.directory [])
    let first : Path := ⟨0, ["A.java"]⟩
    let second : Path := ⟨0, ["B.java"]⟩
    1 ≤ 2 ∧
    (∃ n pool, Workers.Pool.Run read [first, second] 2 n pool ∧
      pool.finished = [(.error (.unreadableSource first .notFound), 0),
        (.error (.unreadableSource second .notFound), 1)] ∧ pool.answer.isSome) ∧
    ∀ n pool, Workers.Pool.Run read [first, second] 2 n pool → ∀ answer, pool.answer = some answer →
      answer = .error (.unreadableSource first .notFound) := by
  intro read first second
  have hfirst : read first = .error (.unreadableSource first .notFound) := rfl
  have hsecond : read second = .error (.unreadableSource second .notFound) := rfl
  refine ⟨by decide, ?_, fun n pool hrun answer hanswer => ?_⟩
  · -- both files are begun; the second gets done, then the first, and the caller meets its failure
    have hstart : Workers.Pool.Run read [first, second] 2 0 (.start [first, second]) := .start
    have hbegun := (hstart.step (.begin rfl (by decide))).step (.begin rfl (by decide))
    have hlatest (running : List (Path × Nat)) (next : Path × Nat) :
        next :: running = [] ++ next :: running := rfl
    have hdone := (hbegun.step (.finish (hlatest _ _))).step (.finish (hlatest _ _))
    rw [hfirst, hsecond] at hdone
    exact ⟨_, _, hdone.step (.fail rfl (List.mem_cons_self ..)), rfl, rfl⟩
  · have htwo : 1 ≤ 2 := by decide
    obtain ⟨-, -, -, hpool, -⟩ := schedules_agree read [first, second] htwo
    obtain ⟨-, -, -, hgiven⟩ := hpool n pool hrun
    rw [hgiven answer hanswer, List.mapM_cons, hfirst]
    rfl

end Assay
