import Assay.Path
import Assay.Text.Quoted

/-!
# Diagnostics

What a user is told when a repository cannot be graded: a message with a numbered code. The family
of a diagnostic says which input is at fault, and with it how the program ends.
-/

namespace Assay

/-- The stage of a run that a code belongs to. -/
inductive Phase
  | analysis
  | configuration
  | report
  | internal
  deriving DecidableEq, Repr

/-- The name of a stage. -/
def Phase.name : Phase → String
  | .analysis => "analysis"
  | .configuration => "configuration"
  | .report => "report"
  | .internal => "internal"

/-- The numbered codes. -/
inductive ErrorCode
  | invalidToken
  | unexpectedToken
  | unexpectedEnd
  | unreadableSource
  | missingRepository
  | unknownMode
  | unknownCategory
  | invalidThresholds
  | duplicateCategory
  | malformedConfiguration
  | malformedReport
  | unknownRule
  | internalError
  deriving DecidableEq, Repr

namespace ErrorCode

/-- All codes in ascending order. -/
def all : List ErrorCode :=
  [.invalidToken, .unexpectedToken, .unexpectedEnd, .unreadableSource, .missingRepository,
    .unknownMode, .unknownCategory, .invalidThresholds, .duplicateCategory, .malformedConfiguration,
    .malformedReport, .unknownRule, .internalError]

/-- The number of a code. -/
def number : ErrorCode → Nat
  | .invalidToken => 1
  | .unexpectedToken => 2
  | .unexpectedEnd => 3
  | .unreadableSource => 4
  | .missingRepository => 5
  | .unknownMode => 1000
  | .unknownCategory => 1001
  | .invalidThresholds => 1002
  | .duplicateCategory => 1003
  | .malformedConfiguration => 1004
  | .malformedReport => 2000
  | .unknownRule => 2001
  | .internalError => 9000

/-- The stage of a code, told by its thousands. -/
def phase (c : ErrorCode) : Phase :=
  match c.number / 1000 with
  | 0 => .analysis
  | 1 => .configuration
  | 2 => .report
  | _ => .internal

/-- What a code stands for. -/
def summary : ErrorCode → String
  | .invalidToken => "invalid token"
  | .unexpectedToken => "unexpected token"
  | .unexpectedEnd => "unexpected end of file"
  | .unreadableSource => "unreadable source file"
  | .missingRepository => "repository not found"
  | .unknownMode => "unknown scoring mode"
  | .unknownCategory => "unknown category"
  | .invalidThresholds => "invalid thresholds"
  | .duplicateCategory => "duplicate category"
  | .malformedConfiguration => "malformed configuration"
  | .malformedReport => "malformed violation report"
  | .unknownRule => "unknown rule identifier"
  | .internalError => "internal error"

/-- The written code: four digits after a mark. -/
def text (c : ErrorCode) : String :=
  let digits := toString c.number
  "GS-" ++ String.ofList (List.replicate (4 - digits.length) '0') ++ digits

/-- Code, stage and summary. -/
def describe (c : ErrorCode) : String :=
  "ErrorCode(" ++ c.text ++ ", " ++ c.phase.name ++ ", " ++ Text.quoted c.summary ++ ")"

end ErrorCode

/-- Which input is at fault. -/
inductive Family
  | general
  | analysis
  | source
  | configuration
  | report
  | rule
  deriving DecidableEq, Repr

namespace Family

/-- The code of a diagnostic that is given none. -/
def defaultCode : Family → ErrorCode
  | .general => .internalError
  | .analysis => .unreadableSource
  | .source => .unexpectedToken
  | .configuration => .malformedConfiguration
  | .report => .malformedReport
  | .rule => .unknownRule

/-- The repository itself could not be analysed. -/
def isAnalysis : Family → Bool
  | .analysis | .source => true
  | _ => false

end Family

/-- A message with its code. -/
structure Diagnostic where
  family : Family
  code : ErrorCode
  message : String
  deriving DecidableEq, Repr

namespace Diagnostic

/-- A diagnostic with the code of its family. -/
def plain (family : Family) (message : String) : Diagnostic := ⟨family, family.defaultCode, message⟩

/-- The message with the place it is about: a path, a line or both; line zero is none. -/
def placed (path : Option Path) (line : Int) (message : String) : String :=
  match path with
  | some path =>
    if line == 0 then toString path ++ ": " ++ message
    else toString path ++ ":" ++ toString line ++ ": " ++ message
  | none => if line == 0 then message else "line " ++ toString line ++ ": " ++ message

/-- The diagnostic for a rule that no kind of violation has. -/
def unknownRule (rule : String) : Diagnostic :=
  plain .rule ("no violation kind for rule " ++ Text.quoted rule)

/-- Code and message. -/
def text (d : Diagnostic) : String := d.code.text ++ ": " ++ d.message

end Diagnostic

end Assay
