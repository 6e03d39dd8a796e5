import Assay.Accident
import Assay.Json.Reader
import Assay.Markup.Fault

/-!
# Faults of a violation report

Why a report is refused, whether it came as data, as a JSON file or as a checkstyle document.
-/

namespace Assay.Report

/-- What is wrong with one violation of a report. -/
inductive ViolationFault
  | notObject
  | incomplete
  | notInteger (field : String) (given : Json)
  /-- An infinite number was given; its digits would never end. -/
  | infinite

/-- Why a report is refused. The place of a violation is a text. -/
inductive ReportError
  | unreadable (path : Path) (fault : SystemFault)
  | undecodable (error : Text.DecodeError)
  | malformed (path : Path) (found : Json.Misreading)
  | exceeded (what : Excess)
  | refused (path : Path) (why : Markup.Refusal)
  | wrongRoot (path : Path) (tag : String)
  | notList (source : String)
  | violation (place : String) (fault : ViolationFault)

/-- The account of a refused violation. An infinite number is an accident. -/
def ViolationFault.account (place : String) : ViolationFault → Account
  | .notObject => .plain .report (place ++ ": expected an object")
  | .incomplete => .plain .report (place ++ ": 'rule' and 'file' are required")
  | .notInteger field given =>
    .plain .report (place ++ ": " ++ field ++ " is not an integer: " ++ given.literal)
  | .infinite => .accident .infiniteNumber

/-- The account of a refusal. A file that is no text is an accident, and so are one that goes beyond a
limit of the machine and a document in a character set that cannot be used. -/
def ReportError.account : ReportError → Account
  | .unreadable path fault =>
    .unreadable path fault
      (.plain .report (toString path ++ ": cannot read report: " ++ fault.message))
  | .undecodable error => .accident (.undecodable (.bytes error))
  | .malformed path found =>
    .plain .report
      (toString path ++ ":" ++ toString found.line ++ ": invalid JSON: " ++ found.fault.message)
  | .exceeded what => .accident (.undecodable (.excess what))
  | .refused path (.illFormed error) =>
    .plain .report (toString path ++ ": invalid XML: " ++ error.message)
  | .refused _ (.unusable fault) => .accident (.characterSet fault)
  | .wrongRoot path tag =>
    .plain .report (toString path ++ ": root element is <" ++ tag ++ ">, expected <checkstyle>")
  | .notList source => .plain .report (source ++ ": expected a list of violations")
  | .violation place fault => fault.account place

end Assay.Report
