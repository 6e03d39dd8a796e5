import Assay.Json.Value
import Assay.Machine
import Assay.Text.Space

/-!
# Reading JSON

A reader takes a text from the front of a list of characters and gives what it read and what is
left. A fault comes with the text that was left where it arose, which fixes its line; a text may also
go beyond a limit of the machine. Beyond the standard, NaN and the two infinities are values, and a
key that is repeated takes its last value.
-/

namespace Assay.Json

/-- What is wrong with a text. -/
inductive Fault
  | byteOrderMark
  | expectingValue
  | expectingKey
  | expectingColon
  | expectingComma
  | extraData
  | unterminatedString
  | controlCharacter
  | invalidEscape
  | invalidCodeUnit
  deriving DecidableEq, Repr

/-- The wording of a fault. -/
def Fault.message : Fault → String
  | .byteOrderMark => "Unexpected UTF-8 BOM (decode using utf-8-sig)"
  | .expectingValue => "Expecting value"
  | .expectingKey => "Expecting property name enclosed in double quotes"
  | .expectingColon => "Expecting ':' delimiter"
  | .expectingComma => "Expecting ',' delimiter"
  | .extraData => "Extra data"
  | .unterminatedString => "Unterminated string starting at"
  | .controlCharacter => "Invalid control character at"
  | .invalidEscape => "Invalid \\escape"
  | .invalidCodeUnit => "Invalid \\uXXXX escape"

/-- Why a reader stops before it has a value. -/
inductive Stop
  /-- The text is at fault, where so much of it was left. -/
  | fault (found : Fault) (rest : List Char)
  /-- A limit of the machine is exceeded. -/
  | excess (what : Excess)

/-- A reader's result: a value and the text after it, or why there is none. -/
abbrev Reading (α : Type) := Except Stop (α × List Char)

/-- The characters that may stand between tokens. -/
def isSpace (c : Char) : Bool := c == ' ' || c == '\t' || c == '\n' || c == '\r'

/-- The text from the next token on. -/
def skipSpace (cs : List Char) : List Char := cs.dropWhile isSpace

/-! ## Strings -/

/-- The value of a hexadecimal digit. -/
def hexValue? (c : Char) : Option Nat :=
  if '0' ≤ c && c ≤ '9' then some (c.toNat - '0'.toNat)
  else if 'a' ≤ c && c ≤ 'f' then some (c.toNat - 'a'.toNat + 10)
  else if 'A' ≤ c && c ≤ 'F' then some (c.toNat - 'A'.toNat + 10)
  else none

/-- The code unit of four hexadecimal digits, which may not end the text. -/
def codeUnit? : List Char → Option (Nat × List Char)
  | a :: b :: c :: d :: rest => do
    if rest.isEmpty then none
    return ((((← hexValue? a) * 16 + (← hexValue? b)) * 16 + (← hexValue? c)) * 16 +
      (← hexValue? d), rest)
  | _ => none

/-- The character of an escaped code unit. Two surrogates that belong together make one character. -/
def escapedUnit? (cs : List Char) : Option (Char × List Char) := do
  let (unit, rest) ← codeUnit? cs
  match rest with
  | '\\' :: 'u' :: second =>
    -- the first half of a pair joins the second, if that is escaped right behind it
    if 0xD800 ≤ unit && unit ≤ 0xDBFF && 4 < second.length then
      let (low, rest') ← codeUnit? second
      if 0xDC00 ≤ low && low ≤ 0xDFFF then
        return (Char.ofNat (0x10000 + (unit - 0xD800) * 0x400 + (low - 0xDC00)), rest')
      return (Text.ofCodePoint unit, rest)
    return (Text.ofCodePoint unit, rest)
  | _ => return (Text.ofCodePoint unit, rest)

/-- The character a single-letter escape stands for. -/
def simpleEscape? : Char → Option Char
  | '"' => some '"'
  | '\\' => some '\\'
  | '/' => some '/'
  | 'b' => some '\x08'
  | 'f' => some '\x0c'
  | 'n' => some '\n'
  | 'r' => some '\r'
  | 't' => some '\t'
  | _ => none

/-- The characters of a string after its opening quote. The budget bounds the number of steps. -/
def stringBody (start : List Char) : (budget : Nat) → List Char → Reading (List Char)
  | 0, _ => .error (.fault .unterminatedString start)
  | _, [] => .error (.fault .unterminatedString start)
  | budget + 1, c :: cs =>
    if c == '"' then .ok ([], cs)
    -- line ends and tabs have to be escaped
    else if c.toNat < 0x20 then .error (.fault .controlCharacter (c :: cs))
    else
      let go (c : Char) (rest : List Char) : Reading (List Char) :=
        (stringBody start budget rest).map fun (more, rest) => (c :: more, rest)
      if c != '\\' then go c cs
      else
        match cs with
        | [] => .error (.fault .unterminatedString start)
        | 'u' :: digits =>
          match escapedUnit? digits with
          | none => .error (.fault .invalidCodeUnit cs)
          | some (c, rest) => go c rest
        | letter :: rest =>
          match simpleEscape? letter with
          | none => .error (.fault .invalidEscape cs)
          | some c => go c rest

/-- A string, from its opening quote on. -/
def readString (cs : List Char) : Reading String :=
  match cs with
  | '"' :: body =>
    (stringBody cs (body.length + 1) body).map fun (s, rest) => (String.ofList s, rest)
  | _ => .error (.fault .expectingKey cs)

/-! ## Numbers -/

/-- The value of decimal digits. -/
def digitsValue (ds : List Char) : Nat := ds.foldl (fun n d => n * 10 + (d.toNat - '0'.toNat)) 0

/-- A minus, if it comes next, and the text behind it. -/
def minusSign (cs : List Char) : Bool × List Char :=
  match cs with
  | '-' :: rest => (true, rest)
  | _ => (false, cs)

/-- Whether a sign that comes next is a minus, and the text behind it. -/
def sign (cs : List Char) : Bool × List Char :=
  match cs with
  | '+' :: rest => (false, rest)
  | _ => minusSign cs

/-- The digits of a fraction, if a point and a digit come next. -/
def fraction (cs : List Char) : Option (List Char) × List Char :=
  match cs with
  | '.' :: rest =>
    let digits := rest.takeWhile (·.isDigit)
    if digits.isEmpty then (none, cs) else (some digits, rest.dropWhile (·.isDigit))
  | _ => (none, cs)

/-- An exponent, if its letter and a digit come next, with an optional sign between. -/
def exponent (cs : List Char) : Option Int × List Char :=
  match cs with
  | letter :: rest =>
    let (negative, unsigned) := sign rest
    let digits := unsigned.takeWhile (·.isDigit)
    if (letter == 'e' || letter == 'E') && !digits.isEmpty then
      let value : Int := digitsValue digits
      (some (if negative then -value else value), unsigned.dropWhile (·.isDigit))
    else (none, cs)
  | [] => (none, cs)

/-- The digits before the point: a zero alone or digits that start with another. -/
def wholeDigits (cs : List Char) : List Char × List Char :=
  match cs with
  | '0' :: rest => (['0'], rest)
  | _ => (cs.takeWhile (·.isDigit), cs.dropWhile (·.isDigit))

/-- A number: whole if it has neither fraction nor exponent, and then not too long. -/
def readNumber (cs : List Char) : Reading Json :=
  let (negative, unsigned) := minusSign cs
  let (whole, rest) := wholeDigits unsigned
  if whole.isEmpty then .error (.fault .expectingValue cs)
  else
    let (decimals, rest) := fraction rest
    let (power, rest) := exponent rest
    match decimals, power with
    | none, none =>
      let value : Int := digitsValue whole
      if Text.longestNumber < whole.length then .error (.excess (.digits whole.length))
      else .ok (.integer (if negative then -value else value), rest)
    | _, _ =>
      let decimals := decimals.getD []
      .ok (.real (Binary64.ofDecimal negative (digitsValue (whole ++ decimals))
        (power.getD 0 - decimals.length)), rest)

/-! ## Values -/

/-- The values that are written as a word. -/
def words : List (String × Json) :=
  [("null", .null), ("true", .bool true), ("false", .bool false), ("NaN", .real .nan),
    ("Infinity", .real (.infinite false)), ("-Infinity", .real (.infinite true))]

/-- A value written as a word. -/
def readWord? (cs : List Char) : Option (Json × List Char) :=
  words.findSome? fun (word, value) =>
    if word.toList.isPrefixOf cs then some (value, cs.drop word.length) else none

/-- A number or a value written as a word. -/
def readScalar (cs : List Char) : Reading Json :=
  match readWord? cs with
  | some reading => .ok reading
  | none => readNumber cs

mutual

/-- A value, with room for so many arrays and objects that are open at a time. The budget bounds the
number of steps. -/
def readValue : (budget room : Nat) → List Char → Reading Json
  | 0, _, cs => .error (.fault .expectingValue cs)
  | budget + 1, room, cs =>
    match cs with
    | '"' :: _ => (readString cs).map fun (s, rest) => (.string s, rest)
    | '[' :: rest =>
      match room with
      | 0 => .error (.excess .array)
      | room + 1 =>
        match skipSpace rest with
        | ']' :: rest => .ok (.array [], rest)
        | rest => (readItems budget room rest).map fun (found, rest) => (.array found, rest)
    | '\x7b' :: rest =>
      match room with
      | 0 => .error (.excess .object)
      | room + 1 =>
        match skipSpace rest with
        | '\x7d' :: rest => .ok (.object [], rest)
        | rest => (readMembers budget room [] rest).map fun (found, rest) => (.object found, rest)
    | _ => readScalar cs

/-- The items of an array up to its closing bracket. -/
def readItems : (budget room : Nat) → List Char → Reading (List Json)
  | 0, _, cs => .error (.fault .expectingValue cs)
  | budget + 1, room, cs =>
    match readValue budget room cs with
    | .error e => .error e
    | .ok (item, rest) =>
      match skipSpace rest with
      | ']' :: rest => .ok ([item], rest)
      | ',' :: rest =>
        (readItems budget room (skipSpace rest)).map fun (more, rest) => (item :: more, rest)
      | rest => .error (.fault .expectingComma rest)

/-- The members of an object up to its closing brace, added to those before. -/
def readMembers :
    (budget room : Nat) → List (String × Json) → List Char → Reading (List (String × Json))
  | 0, _, _, cs => .error (.fault .expectingKey cs)
  | budget + 1, room, before, cs =>
    match readString cs with
    | .error e => .error e
    | .ok (key, rest) =>
      match skipSpace rest with
      | ':' :: rest =>
        match readValue budget room (skipSpace rest) with
        | .error e => .error e
        | .ok (item, rest) =>
          let found := setMember key item before
          match skipSpace rest with
          | '\x7d' :: rest => .ok (found, rest)
          | ',' :: rest => readMembers budget room found (skipSpace rest)
          | rest => .error (.fault .expectingComma rest)
      | rest => .error (.fault .expectingColon rest)

end

/-- A fault and the line it arose on. -/
structure Misreading where
  fault : Fault
  line : Nat
  deriving DecidableEq, Repr

/-- Why a text holds no value that can be had. -/
inductive ReadError
  | malformed (found : Misreading)
  | exceeded (what : Excess)
  deriving DecidableEq, Repr

/-- The value a text holds. -/
def read [Machine] (cs : List Char) : Except ReadError Json :=
  let fail (fault : Fault) (rest : List Char) : Except ReadError Json :=
    .error (.malformed ⟨fault, 1 + Text.lineFeeds cs - Text.lineFeeds rest⟩)
  -- a byte order mark is refused before anything is read
  if cs.head? == some '\ufeff' then fail .byteOrderMark cs
  else
    match readValue (2 * cs.length + 2) Machine.room (skipSpace cs) with
    | .error (.fault found rest) => fail found rest
    | .error (.excess what) => .error (.exceeded what)
    | .ok (found, rest) =>
      match skipSpace rest with
      | [] => .ok found
      | rest => fail .extraData rest

end Assay.Json
