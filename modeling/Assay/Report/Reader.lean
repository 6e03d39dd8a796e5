import Assay.Event
import Assay.Json.File
import Assay.Report.Fault
import Assay.Text.Integer
import Assay.Violation

/-!
# Reading violation reports

A report is data: a list of entries, or an object that has one under `violations`. An entry whose
rule no kind of violation has is skipped before anything else of it is looked at; the skipped rules
are told in one warning.
-/

namespace Assay.Report

/-- What a report holds: the violations of known rules and, for every other entry, its rule. -/
structure Reading where
  violations : Violations
  skipped : List String
  deriving DecidableEq, Repr

namespace Reading

/-- A report without entries. -/
def empty : Reading := ⟨[], []⟩

/-- One report after another. -/
def append (a b : Reading) : Reading := ⟨a.violations ++ b.violations, a.skipped ++ b.skipped⟩

/-- The skipped rules in order, each with the number of times it was skipped. -/
def skippedCounts (r : Reading) : List (String × Nat) :=
  (Text.sortDistinct r.skipped).map fun rule => (rule, r.skipped.count rule)

/-- The warning about skipped rules, if there are any. -/
def warnings (source : String) (r : Reading) : List Event :=
  if r.skipped.isEmpty then []
  else
    let rules := r.skippedCounts.map fun (rule, n) => rule ++ " (" ++ toString n ++ ")"
    [⟨.warning, source ++ ": skipped " ++ toString r.skipped.length ++
      " violation(s) of unknown rules: " ++ String.intercalate ", " rules⟩]

/-- What is told of a report that was read from a file. -/
def events (path : Path) (r : Reading) : List Event :=
  r.warnings (toString path) ++
    [⟨.info, "read " ++ toString r.violations.length ++ " violation(s) from " ++ toString path⟩]

end Reading

/-- The whole number that a value gives. Null and the empty text give none; a fraction loses what
follows its point. -/
def wholeNumber (field : String) (given : Json) : Except ViolationFault (Option Int) :=
  let found : Option Int → Except ViolationFault (Option Int)
    | some n => .ok (some n)
    | none => .error (.notInteger field given)
  match given with
  | .null => .ok none
  -- a truth value counts as a number
  | .bool b => .ok (some (if b then 1 else 0))
  | .integer n => .ok (some n)
  | .real (.infinite _) => .error .infinite
  | .real x => found x.truncate?
  | .string s => if s.isEmpty then .ok none else found (Text.integer? s.toList)
  | .array _ | .object _ => .error (.notInteger field given)

/-- The whole number under a key, if it gives one. -/
def wholeMember (members : List (String × Json)) (key : String) :
    Except ViolationFault (Option Int) :=
  wholeNumber key ((Json.member? key members).getD .null)

/-- An entry of a known rule, or the rule of an entry to skip. -/
abbrev Entry := Except String Violation

/-- What an entry reports. A `rule` comes before a `kind`, even one that is null. -/
def readEntry : Json → Except ViolationFault Entry
  | .object members =>
    match (Json.member? "rule" members).or (Json.member? "kind" members),
        Json.member? "file" members with
    | some (.string rule), some file =>
      match ViolationKind.ofRule? rule with
      -- a rule that is not known is skipped, whatever its numbers are
      | none => .ok (.error rule)
      | some kind => do
        let line ← wholeMember members "line"
        let endLine ← wholeMember members "end_line"
        let column ← wholeMember members "column"
        let message := ((Json.member? "message" members).map (·.display)).getD ""
        return .ok ⟨kind, file.display, line.getD 0, endLine, column, message⟩
    | _, _ => .error .incomplete
  | _ => .error .notObject

/-- A reading of one entry. -/
def Reading.ofEntry : Entry → Reading
  | .ok v => ⟨[v], []⟩
  | .error rule => ⟨[], [rule]⟩

/-- What entries report, the first of them with the given index. -/
def readEntries (source : String) (index : Nat) : List Json → Except ReportError Reading
  | [] => .ok .empty
  | entry :: entries =>
    match readEntry entry with
    | .error fault => .error (.violation (source ++ "[" ++ toString index ++ "]") fault)
    | .ok found =>
      (readEntries source (index + 1) entries).map fun more => (Reading.ofEntry found).append more

/-- What a report in decoded data reports. -/
def ofJson (source : String) (data : Json) : Except ReportError Reading :=
  match data.listed? "violations" with
  | some entries => readEntries source 0 entries
  | none => .error (.notList source)

/-- What the JSON file at a path reports. -/
def ofJsonFile [Machine] (tree : FileTree) (path : Path) : Except ReportError Reading :=
  match Json.ofFile tree path with
  | .error (.unreadable fault) => .error (.unreadable path fault)
  | .error (.undecodable error) => .error (.undecodable error)
  | .error (.malformed found) => .error (.malformed path found)
  | .error (.exceeded what) => .error (.exceeded what)
  | .ok data => ofJson (toString path) data

end Assay.Report
