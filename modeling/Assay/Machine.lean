import Assay.Text.Integer

/-!
# Limits of the machine

What runs a program lets calls nest only so deep and converts no number of too many digits. Input
that goes beyond a limit is not at fault, so no diagnostic covers it.
-/

namespace Assay

/-- What a program runs on, as far as it shows. -/
class Machine where
  /-- How many arrays and objects of a data file may be open at a time. -/
  room : Nat

/-- A thousand calls may be open at a time; nine of them are before the first array of a file is. -/
instance standardMachine : Machine := ⟨991⟩

/-- What goes beyond a limit. -/
inductive Excess
  /-- A whole number of this many digits. -/
  | digits (count : Nat)
  /-- An array in too many others. -/
  | array
  /-- An object in too many others. -/
  | object
  /-- A construct of a program in too many others. -/
  | construct
  deriving DecidableEq, Repr

/-- The wording of an excess. -/
def Excess.message : Excess → String
  | .digits count =>
    "Exceeds the limit (" ++ toString Text.longestNumber ++
      " digits) for integer string conversion: value has " ++ toString count ++
      " digits; use sys.set_int_max_str_digits() to increase the limit"
  | .array => "maximum recursion depth exceeded while decoding a JSON array from a unicode string"
  | .object => "maximum recursion depth exceeded while decoding a JSON object from a unicode string"
  | .construct => "maximum recursion depth exceeded"

end Assay
