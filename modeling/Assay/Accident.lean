import Assay.Diagnostic
import Assay.FileTree
import Assay.Machine
import Assay.Text.CharacterSet
import Assay.Text.Utf8

/-!
# Accidents

A failure that no diagnostic covers is an accident: it has a text but no code, and a run that
meets one ends as if its surroundings were at fault. A file that was named but is not there is
told without a code too. An account of a failure is one of the three.
-/

namespace Assay

/-- Why content cannot be decoded. -/
inductive DecodeFailure
  /-- The bytes are no UTF-8. -/
  | bytes (error : Text.DecodeError)
  /-- The content goes beyond a limit of the machine. -/
  | excess (what : Excess)
  deriving DecidableEq, Repr

/-- A failure without a diagnostic. -/
inductive Accident
  /-- A report gives an infinite number where a whole one belongs. -/
  | infiniteNumber
  /-- The content of a file cannot be decoded. -/
  | undecodable (failure : DecodeFailure)
  /-- A document declares a character set that cannot be used. -/
  | characterSet (fault : Text.CharacterSetFault)
  /-- A path starts at a home directory that nobody knows. -/
  | unknownHome
  | system (fault : SystemFault) (path : Path)
  deriving DecidableEq, Repr

/-- The wording of a decoding error: one byte is shown, several are counted off. -/
def decodeErrorText (e : Text.DecodeError) : String :=
  let place := match e.bytes with
    | [b] =>
      "byte 0x" ++ String.ofList (Text.hexDigits 2 b.toNat) ++ " in position " ++ toString e.offset
    | bytes =>
      "bytes in position " ++ toString e.offset ++ "-" ++ toString (e.offset + bytes.length - 1)
  "'utf-8' codec can't decode " ++ place ++ ": " ++ e.fault.reason

/-- The wording of a failure to decode. -/
def DecodeFailure.message : DecodeFailure → String
  | .bytes error => decodeErrorText error
  | .excess what => what.message

/-- The wording of an accident. -/
def Accident.message : Accident → String
  | .infiniteNumber => "cannot convert float infinity to integer"
  | .undecodable failure => failure.message
  | .characterSet fault => fault.message
  | .unknownHome => "Could not determine home directory."
  | .system fault path =>
    match fault.number? with
    | some n =>
      "[Errno " ++ toString n ++ "] " ++ fault.message ++ ": " ++ Text.quoted (toString path)
    | none => fault.message

/-- How a failure is told. -/
inductive Account
  | diagnosed (diagnostic : Diagnostic)
  | accident (what : Accident)
  | absent (label : String) (path : Path)
  deriving DecidableEq, Repr

namespace Account

/-- A diagnostic of a family, with the family's code. -/
def plain (family : Family) (message : String) : Account := .diagnosed (.plain family message)

/-- The account of a file that cannot be read, for which there is a diagnostic. A path that cannot
be asked for is an accident. -/
def unreadable (path : Path) (fault : SystemFault) (d : Diagnostic) : Account :=
  match fault.number? with
  | some _ => .diagnosed d
  | none => .accident (.system fault path)

/-- The text of an account, with the code if there is one. -/
def text : Account → String
  | .diagnosed d => d.text
  | .accident a => a.message
  | .absent label path => label ++ " not found: " ++ toString path

/-- How a run ends that fails: a repository, a missing file or an accident is graver than data that
is wrong. -/
def exitCode : Account → Nat
  | .diagnosed d => if d.family.isAnalysis then 2 else 1
  | .accident _ | .absent _ _ => 2

/-- What is told when a run ends with a failure. -/
def report : Account → String
  | .accident a => "Unhandled exception: " ++ a.message
  | account => account.text

end Account

end Assay
