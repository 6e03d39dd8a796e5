import Assay.Accident
import Assay.Json.Reader
import Assay.Rubric.Criterion

/-!
# Faults of a rubric

Why a rubric is refused, in a file or as drafts, with the code and the place it is reported under.
-/

namespace Assay

/-- What is wrong with one entry of a rubric file. -/
inductive CriterionFault
  | notObject
  | missing (key : String)
  | unknownCategory (given : Json)
  | unknownMode (given : Json)
  | scoresNotList
  | problems (found : List Problem)
  | repeated (category : Category)

namespace CriterionFault

/-- The code of a fault. -/
def code : CriterionFault → ErrorCode
  | .notObject | .missing _ => .malformedConfiguration
  | .unknownCategory _ => .unknownCategory
  | .unknownMode _ => .unknownMode
  | .scoresNotList | .problems _ => .invalidThresholds
  | .repeated _ => .duplicateCategory

/-- The wording of a fault. -/
def message : CriterionFault → String
  | .notObject => "expected an object"
  | .missing key => "missing " ++ Text.quoted key
  | .unknownCategory given => "unknown category " ++ given.literal
  | .unknownMode given => "unknown scoring mode " ++ given.literal
  | .scoresNotList => "'scores' must be a list"
  | .problems found => Problem.messages found
  | .repeated category => "category " ++ category.value ++ " configured twice"

/-- The diagnostic for a fault, at no place. -/
def diagnostic (f : CriterionFault) : Diagnostic := ⟨.configuration, f.code, f.message⟩

end CriterionFault

/-- What is wrong with one of several drafts. -/
inductive DraftFault
  | unknownCategory (given : Json)
  | repeated (category : Category)
  | unknownMode (given : Json) (category : Category)
  | problems (category : Category) (found : List Problem)

namespace DraftFault

/-- The code of a fault. -/
def code : DraftFault → ErrorCode
  | .unknownCategory _ => .unknownCategory
  | .repeated _ => .duplicateCategory
  | .unknownMode _ _ => .unknownMode
  | .problems _ _ => .invalidThresholds

/-- The wording of a fault. -/
def message : DraftFault → String
  | .unknownCategory given => "unknown category " ++ given.literal
  | .repeated category => "category " ++ category.value ++ " configured twice"
  | .unknownMode given category =>
    "unknown scoring mode " ++ given.literal ++ " for " ++ category.value
  | .problems category found => category.value ++ ": " ++ Problem.messages found

end DraftFault

/-- Why a rubric is refused. -/
inductive RubricError
  | unreadable (path : Path) (fault : SystemFault)
  | undecodable (error : Text.DecodeError)
  | malformed (path : Path) (found : Json.Misreading)
  | exceeded (what : Excess)
  | notList (source : String)
  | entry (source : String) (index : Nat) (fault : CriterionFault)
  | draft (fault : DraftFault)

/-- The account of a refusal. -/
def RubricError.account : RubricError → Account
  | .unreadable path fault =>
    .unreadable path fault
      (.plain .configuration (toString path ++ ": cannot read configuration: " ++ fault.message))
  | .undecodable error => .accident (.undecodable (.bytes error))
  | .malformed path found =>
    .plain .configuration
      (toString path ++ ":" ++ toString found.line ++ ": invalid JSON: " ++ found.fault.message)
  | .exceeded what => .accident (.undecodable (.excess what))
  | .notList source => .plain .configuration (source ++ ": expected a list of category entries")
  | .entry source index fault =>
    .diagnosed
      ⟨.configuration, fault.code, source ++ "[" ++ toString index ++ "]: " ++ fault.message⟩
  | .draft fault => .diagnosed ⟨.configuration, fault.code, fault.message⟩

end Assay
