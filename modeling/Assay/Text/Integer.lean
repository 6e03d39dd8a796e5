import Assay.Text.Digit
import Assay.Text.Space

/-!
# Whole numbers in text

A number may have white space around it and one sign directly before its digits; the digits may be
of any script, and a single underscore may stand between two of them. Numbers of very many digits
are not converted.
-/

namespace Assay.Text

/-- The number that digits continue. After a digit, an underscore is passed over if a digit follows
it. -/
def continueNumber? (value : Nat) : List Char → Option Nat
  | [] => some value
  | c :: cs =>
    match digitValue? c with
    | some digit => continueNumber? (10 * value + digit) cs
    | none =>
      match cs with
      | [] => none
      | next :: cs =>
        if c == '_' then
          (digitValue? next).bind fun digit => continueNumber? (10 * value + digit) cs
        else none

/-- The number that digits write; there is at least one. -/
def natural? : List Char → Option Nat
  | [] => none
  | c :: cs => (digitValue? c).bind fun digit => continueNumber? digit cs

/-- The most digits that a number is converted with. -/
def longestNumber : Nat := 4300

/-- The number of digits in a text, of any script. -/
def digitCount (cs : List Char) : Nat := cs.countP fun c => (digitValue? c).isSome

/-- The whole number a text writes. -/
def integer? (cs : List Char) : Option Int :=
  if longestNumber < digitCount cs then none
  else
    match trimWhile isWhiteSpace cs with
    | '-' :: digits => (natural? digits).map fun n => -(n : Int)
    | '+' :: digits => (natural? digits).map fun n => (n : Int)
    | digits => (natural? digits).map fun n => (n : Int)

end Assay.Text
