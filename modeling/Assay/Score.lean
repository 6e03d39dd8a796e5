import Assay.Json.Value
import Assay.Rubric.Criterion
import Assay.Survey
import Assay.Violation

/-!
# Scores

A criterion grades a value: the number of a category's violations or, in relative mode, their number
for every hundred units of the category's size. The score is the number of thresholds above the
value, so a value that reaches a threshold has lost its point.
-/

namespace Assay

/-! ## Banding -/

/-- The place at which a value goes among thresholds in order, after its equals: the search halves
what lies between two bounds. -/
def placeBetween (value : Int) (thresholds : List Int) (low high : Nat) : Nat :=
  if low < high then
    let middle := (low + high) / 2
    -- a value that equals a threshold has reached it
    if value < thresholds.getD middle 0 then placeBetween value thresholds low middle
    else placeBetween value thresholds (middle + 1) high
  else low
termination_by high - low

/-- The score of a value against thresholds. -/
def scoreBand (value : Int) (thresholds : List Int) : Nat :=
  thresholds.length - placeBetween value thresholds 0 thresholds.length

/-- The number of violations for every hundred units of size, without its fraction; nothing if there
are no units. -/
def relativeValue (count size : Int) : Int := if size == 0 then 0 else Int.fdiv (count * 100) size

/-! ## Categories -/

/-- How the score of one category was reached. -/
structure CategoryScore where
  category : Category
  mode : Mode
  count : Nat
  /-- The size of the category, where it was needed. -/
  size : Option Int
  value : Int
  score : Nat
  maxScore : Nat
  deriving DecidableEq, Repr

namespace CategoryScore

/-- The score under a criterion of so many violations in a category of some size. -/
def of (c : Criterion) (count : Nat) (size : Option Int) (value : Int) : CategoryScore :=
  ⟨c.category, c.mode, count, size, value, scoreBand value c.thresholds, c.maxScore⟩

/-- A score as data. -/
def toJson (s : CategoryScore) : Json :=
  .object
    [("category", .string s.category.value),
      ("display_name", .string s.category.displayName),
      ("mode", .string s.mode.name),
      ("count", .integer s.count),
      ("size", (s.size.map Json.integer).getD .null),
      ("raw_value", .integer s.value),
      ("score", .integer s.score),
      ("max_score", .integer s.maxScore)]

/-- What is told of a score. -/
def event (s : CategoryScore) : Event :=
  let size := (s.size.map toString).getD "None"
  ⟨.debug, s.category.displayName ++ ": count=" ++ toString s.count ++ " size=" ++ size ++
    " value=" ++ toString s.value ++ " score=" ++ toString s.score ++ "/" ++ toString s.maxScore⟩

end CategoryScore

/-- What is told when all categories are scored. -/
def scoredEvent (n : Nat) : Event :=
  ⟨.info, "scored " ++ toString n ++ " categor" ++ (if n == 1 then "y" else "ies")⟩

/-! ## Rubrics -/

/-- A source of sizes: each question may change what it knows, and may fail. -/
abbrev Sizer (σ : Type) := σ → Category → σ × Logged Int

variable {σ : Type}

/-- The score under one criterion. Only relative mode asks for a size. -/
def Criterion.score (c : Criterion) (sizer : Sizer σ) (s : σ) (found : Violations) :
    σ × Logged CategoryScore :=
  let count := found.countCategory c.category
  match c.mode with
  -- an absolute count needs no size, so none is asked for
  | .absolute => (s, pure (.of c count none count))
  | .relative =>
    let (after, size) := sizer s c.category
    (after, do
      let size ← size
      return .of c count (some size) (relativeValue count size))

/-- The scores under criteria, in order, up to the first failure. -/
def scoreEach (sizer : Sizer σ) (found : Violations) :
    σ → List Criterion → σ × Logged (List CategoryScore)
  | s, [] => (s, pure [])
  | s, c :: criteria =>
    let (after, scored) := c.score sizer s found
    match scored.result with
    | .error e => (after, ⟨scored.events, .error e⟩)
    | .ok score =>
      let (last, more) := scoreEach sizer found after criteria
      (last, ⟨scored.events ++ score.event :: more.events, more.result.map (score :: ·)⟩)

/-- The scores under a rubric, one for each criterion. -/
def Rubric.score (r : Rubric) (sizer : Sizer σ) (s : σ) (found : Violations) :
    σ × Logged (List CategoryScore) :=
  let (last, scores) := scoreEach sizer found s r.criteria
  (last, do
    let scores ← scores
    .tell [scoredEvent scores.length]
    return scores)

/-- The sizes that a survey of a repository finds out. -/
def Survey.sizer (tree : FileTree) : Sizer Survey := fun s category =>
  let (after, size) := s.size tree category
  (after, do
    let n ← size
    return n)

/-- The scores of a repository with the violations found in it. -/
def Rubric.grade (r : Rubric) (tree : FileTree) (repository : Repository) (workers : Nat)
    (found : Violations) : Logged (List CategoryScore) :=
  (r.score (Survey.sizer tree) (.start repository .utf8 workers Category.all) found).2

end Assay
