import Assay.Number.Shortest
import Assay.Text.Quoted

/-!
# JSON values

A decoded value keeps the order of an object's members and tells whole numbers from fractional ones.
`literal` is the form in which messages show a value.
-/

namespace Assay

/-- A decoded value. -/
inductive Json
  | null
  | bool (b : Bool)
  | integer (n : Int)
  | real (x : Binary64)
  | string (s : String)
  | array (items : List Json)
  | object (members : List (String × Json))

namespace Json

/-- The member of the given key. -/
def member? (key : String) (members : List (String × Json)) : Option Json := members.lookup key

/-- The list that data is, or has under the key. -/
def listed? (key : String) (data : Json) : Option (List Json) :=
  let given := match data with
    | .object members => member? key members
    | _ => some data
  match given with
  | some (.array items) => some items
  | _ => none

/-- The members with the key set to a value: a key that is there keeps its place. -/
def setMember (key : String) (value : Json) : List (String × Json) → List (String × Json)
  | [] => [(key, value)]
  | (other, old) :: members =>
    if other == key then (key, value) :: members else (other, old) :: setMember key value members

mutual

/-- The form in which messages show a value. -/
def literal : Json → String
  | .null => "None"
  | .bool b => if b then "True" else "False"
  | .integer n => toString n
  | .real x => x.text
  | .string s => Text.quoted s
  | .array items => "[" ++ String.intercalate ", " (literals items) ++ "]"
  | .object members => "\x7b" ++ String.intercalate ", " (memberLiterals members) ++ "\x7d"

/-- The forms of several values. -/
def literals : List Json → List String
  | [] => []
  | item :: items => literal item :: literals items

/-- The forms of the members of an object. -/
def memberLiterals : List (String × Json) → List String
  | [] => []
  | (key, value) :: members => (Text.quoted key ++ ": " ++ literal value) :: memberLiterals members

end

/-- A string as it is, and the literal form of anything else. -/
def display : Json → String
  | .string s => s
  | value => value.literal

end Json

end Assay
