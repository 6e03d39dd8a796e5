import Assay.Markup.Document
import Assay.Report.Reader

/-!
# Checkstyle reports

An XML document with `file` elements around `error` elements. An error names its check in `source`,
by the class of the check; it is reported once for every `file` element around it.
-/

namespace Assay.Report

/-- The whole number an attribute gives; an attribute that is absent gives none. -/
def wholeAttribute (e : Markup.Element) (name : String) : Except ViolationFault (Option Int) :=
  wholeNumber name (((e.attribute? name).map Json.string).getD .null)

/-- The name under which an unknown check is skipped: the last part of its class name. -/
def checkName (check : String) : String :=
  let last := Text.afterLast '.' check.toList
  if last.isEmpty then "<none>" else String.ofList last

/-- What an `error` element reports for a file. -/
def readError (file : String) (e : Markup.Element) : Except ViolationFault Entry :=
  let check := (e.attribute? "source").getD ""
  match ViolationKind.ofRule? check with
  | none => .ok (.error (checkName check))
  | some kind => do
    let line ← wholeAttribute e "line"
    let column ← wholeAttribute e "column"
    return .ok ⟨kind, file, line.getD 0, none, column, (e.attribute? "message").getD ""⟩

/-- Pairs of a file's name and an error in it, in document order. -/
def fileErrors (root : Markup.Element) : List (String × Markup.Element) :=
  (root.named "file").flatMap fun file =>
    (file.named "error").map fun error => ((file.attribute? "name").getD "", error)

/-- What errors report, for a document at the given path. -/
def readErrors (path : Path) : List (String × Markup.Element) → Except ReportError Reading
  | [] => .ok .empty
  | (file, error) :: errors =>
    match readError file error with
    -- the place that is told is the file the error is in
    | .error fault => .error (.violation (toString path ++ ": " ++ file) fault)
    | .ok found => (readErrors path errors).map fun more => (Reading.ofEntry found).append more

/-- What a document at the given path reports. -/
def ofDocument (path : Path) (root : Markup.Element) : Except ReportError Reading :=
  if root.tag == "checkstyle" then readErrors path (fileErrors root)
  else .error (.wrongRoot path root.tag)

/-- What the checkstyle document at a path reports. -/
def ofCheckstyleFile (tree : FileTree) (path : Path) : Except ReportError Reading :=
  match tree.read path with
  | .error fault => .error (.unreadable path fault)
  | .ok bytes =>
    match Markup.read bytes with
    | .error why => .error (.refused path why)
    | .ok root => ofDocument path root

end Assay.Report
