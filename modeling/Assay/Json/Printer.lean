import Assay.Json.Value

/-!
# Printing JSON

Values on lines of their own, indented by two spaces for each level; an empty array or object stays
on one line. Every character beyond ASCII is escaped.
-/

namespace Assay.Json

/-- The escape of one UTF-16 code unit. -/
def unitEscape (unit : Nat) : List Char := '\\' :: 'u' :: Text.hexDigits 4 unit

/-- One character of a printed string. -/
def printChar (c : Char) : List Char :=
  if c == '"' || c == '\\' then ['\\', c]
  else if c == '\n' then ['\\', 'n']
  else if c == '\r' then ['\\', 'r']
  else if c == '\t' then ['\\', 't']
  else if c == '\x08' then ['\\', 'b']
  else if c == '\x0c' then ['\\', 'f']
  else if 0x20 ≤ c.toNat && c.toNat ≤ 0x7E then [c]
  else if Text.codePoint c ≤ 0xFFFF then unitEscape (Text.codePoint c)
  else
    unitEscape (0xD800 + (c.toNat - 0x10000) / 0x400) ++
      unitEscape (0xDC00 + (c.toNat - 0x10000) % 0x400)

/-- A printed string. -/
def printString (s : String) : String :=
  String.ofList ('"' :: s.toList.flatMap printChar ++ ['"'])

/-- A printed number with a fraction or exponent. -/
def printReal : Binary64 → String
  | .nan => "NaN"
  | .infinite negative => if negative then "-Infinity" else "Infinity"
  | x => x.text

/-- A line break and the indentation of a level. -/
def newLine (level : Nat) : String := String.ofList ('\n' :: List.replicate (2 * level) ' ')

/-- Items between brackets, each on a line of its own. -/
def printGroup (opening closing : String) (level : Nat) (items : List String) : String :=
  if items.isEmpty then opening ++ closing
  else
    opening ++ newLine (level + 1) ++ String.intercalate ("," ++ newLine (level + 1)) items ++
      newLine level ++ closing

mutual

/-- A value printed at a level of indentation. -/
def printAt (level : Nat) : Json → String
  | .null => "null"
  | .bool b => if b then "true" else "false"
  | .integer n => toString n
  | .real x => printReal x
  | .string s => printString s
  | .array items => printGroup "[" "]" level (printItems (level + 1) items)
  | .object members => printGroup "\x7b" "\x7d" level (printMembers (level + 1) members)

/-- The items of an array. -/
def printItems (level : Nat) : List Json → List String
  | [] => []
  | item :: items => printAt level item :: printItems level items

/-- The members of an object. -/
def printMembers (level : Nat) : List (String × Json) → List String
  | [] => []
  | (key, value) :: members =>
    (printString key ++ ": " ++ printAt level value) :: printMembers level members

end

/-- A printed value. -/
def print (value : Json) : String := printAt 0 value

end Assay.Json

