import Assay.ViolationKind

/-!
# Violations

Violations that detectors found, as an ordered list. Every kind belongs to one category, so
filtering by category divides a list into parts, and so does grouping by file.
-/

namespace Assay

/-- A place in a file where a rule is broken; line zero is no line. -/
structure Violation where
  kind : ViolationKind
  file : String
  line : Int
  endLine : Option Int
  column : Option Int
  message : String
  deriving DecidableEq, Repr

/-- Place, rule and message. -/
def Violation.text (v : Violation) : String :=
  let column := match v.column with
    | some n => ":" ++ toString n
    | none => ""
  v.file ++ ":" ++ toString v.line ++ column ++ ": [" ++ v.kind.rule ++ "] " ++ v.message

/-- Violations in the order they were reported. -/
abbrev Violations := List Violation

namespace Violations

/-- The form in which a list of violations is displayed. -/
def describe (vs : Violations) : String := "Violations(" ++ toString vs.length ++ ")"

/-- The violations of one kind. -/
def ofKind (vs : Violations) (kind : ViolationKind) : Violations := vs.filter (·.kind == kind)

/-- The violations reported under a category. -/
def ofCategory (vs : Violations) (category : Category) : Violations :=
  vs.filter (·.kind.category == category)

/-- The number of violations of one kind. -/
def countKind (vs : Violations) (kind : ViolationKind) : Nat := vs.countP (·.kind == kind)

/-- The number of violations reported under a category. -/
def countCategory (vs : Violations) (category : Category) : Nat := (vs.ofCategory category).length

/-- The files with violations in the order they were first seen, each with its violations. -/
def byFile (vs : Violations) : List (String × Violations) :=
  (vs.map (·.file)).eraseDups.map fun file => (file, vs.filter (·.file == file))

/-- The categories with violations in the order of reports, each with their number. -/
def counts (vs : Violations) : List (Category × Nat) :=
  (Category.all.map fun c => (c, vs.countCategory c)).filter (·.2 != 0)

end Violations

end Assay
