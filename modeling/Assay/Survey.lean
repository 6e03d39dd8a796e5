import Assay.CountingRule
import Assay.Repository
import Assay.Source.File
import Assay.Workers

/-!
# Surveys

A survey finds out the sizes of categories in one repository, each by the rule of its profile. It
reads the sources when a size first needs them and then no more, and it works out every size once; a
failure leaves it as it was, apart from the number of files it tried to read.
-/

namespace Assay

open Source

/-- What a survey has found out so far. -/
structure Survey where
  repository : Repository
  encoding : Text.Encoding
  workers : Nat
  /-- The profiles of the categories whose size can be asked for. -/
  profiles : List (Category × Profile)
  sources : Option (List SourceFile)
  sizes : List (Category × Nat)
  /-- The number of files whose reading was asked for, by a single worker. -/
  reads : Nat
  deriving DecidableEq, Repr

namespace Survey

/-- A survey that has not begun, under profiles of any kind. -/
def under (profiles : List (Category × Profile)) (repository : Repository)
    (encoding : Text.Encoding) (workers : Nat) : Survey :=
  ⟨repository, encoding, workers, profiles, none, [], 0⟩

/-- A survey that has not begun, for the given categories. -/
def start (repository : Repository) (encoding : Text.Encoding) (workers : Nat)
    (ruled : List Category) : Survey :=
  .under (ruled.map fun c => (c, c.profile)) repository encoding workers

/-- The number of files read up to the first failure. -/
def readCount : List (Except Failure SourceFile) → Nat
  | [] => 0
  | .error _ :: _ => 1
  | .ok _ :: outcomes => readCount outcomes + 1

/-- The source files, read if they were not yet. -/
def scan (s : Survey) (tree : FileTree) : Survey × Logged (List SourceFile) :=
  match s.sources with
  | some files => (s, pure files)
  | none =>
    let paths := s.repository.sourceFiles tree
    let outcomes := Workers.map s.workers (SourceFile.read s.encoding tree) paths
    let found := gather outcomes
    let begin : Event :=
      ⟨.info, "scanning " ++ toString paths.length ++ " source file(s) under " ++
        toString s.repository.directory⟩
    let sources := match found.result with
      | .ok files => some files
      | .error _ => none
    -- the files read up to a failure are counted, but none is kept
    ({ s with sources, reads := s.reads + readCount outcomes },
      ⟨begin :: found.events, found.result⟩)

/-- What a rule counts in source files. -/
def total (rule : CountingRule) (files : List SourceFile) : Nat :=
  (files.map fun f => rule.count f.unit).foldr (· + ·) 0

/-- What is told while a rule counts in source files. -/
def countingEvents (rule : CountingRule) (files : List SourceFile) : List Event :=
  match rule with
  | .staticAccesses => files.flatMap (·.openAccesses)
  | _ => []

/-- What a rule counts in the files of its population. -/
def measure (s : Survey) (tree : FileTree) (rule : CountingRule) : Survey × Logged Nat :=
  match rule.population with
  | .uiDescriptions => (s, pure (s.repository.uiDescriptions tree).length)
  | .sourceTrees =>
    let (scanned, files) := s.scan tree
    (scanned, do
      let files ← files
      .tell (countingEvents rule files)
      return total rule files)

/-- The size of a category, worked out if it was not yet. -/
def size (s : Survey) (tree : FileTree) (category : Category) : Survey × Logged Nat :=
  match s.sizes.lookup category with
  | some known => (s, pure known)
  | none =>
    match s.profiles.lookup category with
    | none => (s, .fail (.unruled category))
    | some profile =>
      let (measured, found) := s.measure tree profile.rule
      match found.result with
      | .error e => (measured, ⟨found.events, .error e⟩)
      -- only what was worked out is remembered
      | .ok n =>
        let event : Event :=
          ⟨.debug, "size of " ++ profile.displayName ++ " = " ++ toString n ++ " (" ++
            profile.rule.describe ++ ")"⟩
        ({ measured with sizes := (category, n) :: measured.sizes },
          ⟨found.events ++ [event], .ok n⟩)

/-- The sizes of several categories in order, up to the first failure. -/
def allSizes (s : Survey) (tree : FileTree) :
    List Category → Survey × Logged (List (Category × Nat))
  | [] => (s, pure [])
  | category :: categories =>
    let (measured, found) := s.size tree category
    match found.result with
    | .error e => (measured, ⟨found.events, .error e⟩)
    | .ok n =>
      let (last, more) := allSizes measured tree categories
      (last, ⟨found.events ++ more.events, more.result.map ((category, n) :: ·)⟩)

end Survey

end Assay
