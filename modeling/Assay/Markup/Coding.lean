import Assay.Text.CharacterSet
import Assay.Text.NameLetter
import Assay.Text.Utf8

/-!
# Codings of a document

How the bytes of a document stand for characters, and which characters its names are made of. What
cannot be decoded is kept in its place as one of a few code points that no document may hold, so
that it is a fault where a scanner meets it and not before.
-/

namespace Assay.Markup

/-! ## What cannot be decoded -/

/-- Stands for a byte or unit that belongs to no character. -/
def malformed : Char := '\uffff'

/-- Stands for the first byte of a character whose other bytes do not fit. -/
def broken : Char := '\x01'

/-- Stands for the first byte of a character that the end of the document cuts off. -/
def cutOff : Char := '\ufffe'

/-- Stands for the first half of a two-byte unit whose second half is missing; it ends the text. -/
def halfUnit : Char := '\x00'

/-- A decoded character, unless it is one that stands for what cannot be decoded. -/
def sound (c : Char) : Char :=
  if [malformed, broken, cutOff, halfUnit].contains c then malformed else c

/-- The text is at its end. -/
def isAtEnd : List Char → Bool
  | [] => true
  | [c] => c == halfUnit
  | _ => false

/-! ## Codings -/

/-- How bytes stand for characters. -/
inductive Coding
  | utf8
  | ascii
  | latin1
  | utf16 (littleEndian : Bool)
  | page (set : Text.CodePage)
  deriving DecidableEq, Repr

namespace Coding

/-- The number of bytes in a unit. -/
def unitSize : Coding → Nat
  | .utf16 _ => 2
  | _ => 1

/-- The number of units in which a character is written. -/
def units (k : Coding) (c : Char) : Nat :=
  if c == halfUnit then 0
  else if c == malformed || c == broken || c == cutOff then 1
  else
    match k with
    | .utf8 => c.utf8Size
    | .utf16 _ => if c.toNat ≤ 0xFFFF then 1 else 2
    | _ => 1

/-- The number of bytes in which a text is written. -/
def byteCount (k : Coding) (cs : List Char) : Nat :=
  k.unitSize * cs.foldl (fun n c => n + k.units c) 0

/-- In this coding the ordinal indicators and the micro sign count as letters. -/
def hasLatinLetters : Coding → Bool
  | .latin1 | .utf16 _ => true
  | _ => false

/-- The character can start a name. -/
def startsName (k : Coding) (c : Char) : Bool :=
  if c.toNat < 0x80 then c.isAlpha || c == '_'
  else
    Text.isNameLetter c ||
      (k.hasLatinLetters && (c.toNat == 0xAA || c.toNat == 0xB5 || c.toNat == 0xBA))

/-- The character can go on a name. -/
def continuesName (k : Coding) (c : Char) : Bool :=
  if c.toNat < 0x80 then c.isAlphanum || c == '_' || c == '-' || c == '.'
  else k.startsName c || Text.isNameMark c

/-- The character can be part of the keyword of a declaration. Letters of a keyword are known by
their first unit, so in longer forms only those of ASCII count. -/
def inKeyword (k : Coding) (c : Char) : Bool :=
  match k with
  | .utf8 => c.toNat < 0x80 && k.startsName c
  | .utf16 _ => c.toNat < 0x100 && k.startsName c
  | _ => k.startsName c

/-- The character looks like the start of an element's name after an angle bracket. Of a character
of several bytes only the first is looked at. -/
def opensElement (k : Coding) (c : Char) : Bool :=
  match k with
  | .utf8 => k.startsName c || c == cutOff || c == broken || (0x80 ≤ c.toNat && c != malformed)
  | .utf16 _ => k.startsName c || c == cutOff || (0x100 ≤ c.toNat && c != malformed)
  | _ => k.startsName c

end Coding

/-! ## Decoding -/

/-- The number of bytes that follow a first byte, as far as that byte tells. -/
def announced? (b : UInt8) : Option Nat :=
  if b < 0x80 then some 0
  else if 0xC0 ≤ b && b ≤ 0xDF then some 1
  else if 0xE0 ≤ b && b ≤ 0xEF then some 2
  else if 0xF0 ≤ b && b ≤ 0xF4 then some 3
  else none

/-- The text of UTF-8. -/
def decodeUtf8 : List UInt8 → List Char
  | [] => []
  | first :: rest =>
    match announced? first with
    | none => malformed :: decodeUtf8 rest
    | some count =>
      if (rest.take count).length < count then cutOff :: rest.map fun _ => malformed
      else
        match (Text.utf8Piece first rest).reading with
        | .ok c => sound c :: decodeUtf8 (rest.drop count)
        | .error _ => broken :: decodeUtf8 rest
termination_by bytes => bytes.length
decreasing_by all_goals simp only [List.length_drop, List.length_cons]; omega

/-- The two-byte units of a byte sequence; a last byte without a partner is left. -/
def unitsOf (littleEndian : Bool) : List UInt8 → List Nat × Bool
  | [] => ([], false)
  | [_] => ([], true)
  | a :: b :: rest =>
    let unit := if littleEndian then b.toNat * 0x100 + a.toNat else a.toNat * 0x100 + b.toNat
    let (more, isHalved) := unitsOf littleEndian rest
    (unit :: more, isHalved)

/-- The text of two-byte units. A leading surrogate makes a character with any unit after it. -/
def decodeUnits : List Nat → List Char
  | [] => []
  | [unit] =>
    [if 0xD800 ≤ unit && unit ≤ 0xDBFF then cutOff
      else if 0xDC00 ≤ unit && unit ≤ 0xDFFF then malformed
      else sound (Char.ofNat unit)]
  | unit :: next :: rest =>
    if 0xD800 ≤ unit && unit ≤ 0xDBFF then
      Char.ofNat (0x10000 + unit % 0x400 * 0x400 + next % 0x400) :: decodeUnits rest
    else if 0xDC00 ≤ unit && unit ≤ 0xDFFF then malformed :: decodeUnits (next :: rest)
    else sound (Char.ofNat unit) :: decodeUnits (next :: rest)

/-- The text of a byte sequence. -/
def Coding.decode : Coding → List UInt8 → List Char
  | .utf8, bytes => decodeUtf8 bytes
  | .ascii, bytes =>
    bytes.map fun b => if b < 0x80 then sound (Char.ofNat b.toNat) else malformed
  | .latin1, bytes => bytes.map fun b => sound (Char.ofNat b.toNat)
  | .utf16 littleEndian, bytes =>
    let (units, isHalved) := unitsOf littleEndian bytes
    decodeUnits units ++ if isHalved then [halfUnit] else []
  | .page set, bytes => (set.decode bytes).map fun c => (c.map sound).getD malformed

end Assay.Markup
