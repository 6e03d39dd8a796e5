import Assay.Category
import Assay.Json.Value

/-!
# Criteria

A criterion says how one category is graded: by the number of its violations or by their share, and
at which thresholds a point is lost. A draft is an entry that has not been checked, so any of its
parts may be other data; `Draft.check` makes a criterion of it, and `Draft.problems` says why not.
-/

namespace Assay

/-- How the violations of a category become the value that is graded. -/
inductive Mode
  /-- Their number. -/
  | absolute
  /-- Their number for every hundred units of the category's size. -/
  | relative
  deriving DecidableEq, Repr

namespace Mode

/-- Both modes. -/
def all : List Mode := [.absolute, .relative]

/-- The name of a mode in data. -/
def name : Mode → String
  | .absolute => "absolute"
  | .relative => "relative"

/-- The mode that data names, blanks around it and letter case aside. -/
def ofJson? (given : Json) : Option Mode :=
  all.find? fun m => m.name.toList == Text.fold (Text.strip given.display.toList)

end Mode

/-- The thresholds do not decrease. -/
def ascends : List Int → Bool
  | [] => true
  | [_] => true
  | a :: b :: more => a ≤ b && ascends (b :: more)

/-- What holds of neighbours holds of any two. -/
theorem ascends_iff (thresholds : List Int) :
    ascends thresholds = true ↔ thresholds.Pairwise (· ≤ ·) := by
  induction thresholds with
  | nil => simp [ascends]
  | cons a rest ih =>
    cases rest with
    | nil => simp [ascends]
    | cons b more =>
      rw [ascends, Bool.and_eq_true, decide_eq_true_eq, ih, List.pairwise_cons (a := a)]
      constructor
      · rintro ⟨hab, hp⟩
        refine ⟨fun c hc => ?_, hp⟩
        rcases List.mem_cons.mp hc with rfl | hc
        · exact hab
        · exact Int.le_trans hab (List.rel_of_pairwise_cons hp hc)
      · exact fun ⟨ha, hp⟩ => ⟨ha b (List.mem_cons_self ..), hp⟩

/-- How one category is graded. -/
structure Criterion where
  category : Category
  mode : Mode
  thresholds : List Int
  ascending : thresholds.Pairwise (· ≤ ·)

/-- The score of a category without violations. -/
def Criterion.maxScore (c : Criterion) : Nat := c.thresholds.length

/-! ## Drafts -/

/-- A value of the expected type, or the data that stands in its place. -/
abbrev Supplied (α : Type) := Except Json α

/-- A criterion that has not been checked. -/
structure Draft where
  category : Supplied Category
  mode : Supplied Mode
  thresholds : List Json

/-- What is wrong with a draft. -/
inductive Problem
  | notCategory (given : Json)
  | notMode (given : Json)
  | notIntegers
  | notAscending

/-- The wording of a problem. -/
def Problem.message : Problem → String
  | .notCategory given => "category " ++ given.literal ++ " is not a Category"
  | .notMode given => "mode " ++ given.literal ++ " is not a Mode"
  | .notIntegers => "thresholds must be integers"
  | .notAscending => "thresholds must be in ascending order"

/-- The wording of several problems. -/
def Problem.messages (problems : List Problem) : String :=
  String.intercalate "; " (problems.map (·.message))

namespace Draft

/-- The score of a category without violations. -/
def maxScore (d : Draft) : Nat := d.thresholds.length

/-- The thresholds, if all of them are integers. -/
def integers? (d : Draft) : Option (List Int) :=
  d.thresholds.mapM fun
    | .integer n => some n
    | _ => none

/-- What is wrong with the thresholds. -/
def thresholdProblems (d : Draft) : List Problem :=
  match d.integers? with
  | none => [.notIntegers]
  | some thresholds => if ascends thresholds then [] else [.notAscending]

/-- Everything that is wrong with a draft. -/
def problems (d : Draft) : List Problem :=
  let category := match d.category with
    | .ok _ => []
    | .error given => [Problem.notCategory given]
  let mode := match d.mode with
    | .ok _ => []
    | .error given => [Problem.notMode given]
  category ++ mode ++ d.thresholdProblems

/-- The criterion of a draft without problems. -/
def check (d : Draft) : Except (List Problem) Criterion :=
  match d.category, d.mode, d.integers? with
  | .ok category, .ok mode, some thresholds =>
    if h : ascends thresholds = true then
      .ok ⟨category, mode, thresholds, (ascends_iff thresholds).mp h⟩
    else .error d.problems
  | _, _, _ => .error d.problems

end Draft

/-- The draft that a criterion passes for. -/
def Criterion.draft (c : Criterion) : Draft :=
  ⟨.ok c.category, .ok c.mode, c.thresholds.map .integer⟩

/-! ## Rubrics -/

/-- Criteria in order, at most one for each category. -/
structure Rubric where
  criteria : List Criterion
  distinct : (criteria.map (·.category)).Nodup

namespace Rubric

/-- The categories a rubric grades, in order. -/
def categories (r : Rubric) : List Category := r.criteria.map (·.category)

/-- A rubric without criteria. -/
def empty : Rubric := ⟨[], by simp⟩

/-- The rubric with one more criterion, unless its category is graded already. -/
def add? (r : Rubric) (c : Criterion) : Option Rubric :=
  if h : c.category ∈ r.categories then none
  else
    some ⟨r.criteria ++ [c], by
      have hc : c.category ∉ r.criteria.map (·.category) := h
      simpa [List.nodup_append, r.distinct] using hc⟩

/-- The drafts of a rubric's criteria. -/
def drafts (r : Rubric) : List Draft := r.criteria.map (·.draft)

end Rubric

end Assay
