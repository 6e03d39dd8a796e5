/-!
# Decoding bytes

UTF-8, read one encoded character at a time. A sequence that breaks off or goes wrong is a fault
that covers its longest well-formed start, so decoding can either stop at the first fault or put
one replacement character in the place of each.
-/

namespace Assay.Text

/-- Why a byte sequence is no character. -/
inductive Utf8Fault
  | invalidStart
  | invalidContinuation
  | unexpectedEnd
  deriving DecidableEq, Repr

/-- The wording of a fault. -/
def Utf8Fault.reason : Utf8Fault → String
  | .invalidStart => "invalid start byte"
  | .invalidContinuation => "invalid continuation byte"
  | .unexpectedEnd => "unexpected end of data"

/-- What stands at the front of a byte sequence: a character or a fault, and the number of bytes
after the first that belong to it. -/
structure Utf8Piece where
  reading : Except Utf8Fault Char
  following : Nat

/-- The byte continues a character. -/
def isContinuation (b : UInt8) : Bool := 0x80 ≤ b && b ≤ 0xBF

/-- The number of continuation bytes that a first byte announces. -/
def continuationCount? (b : UInt8) : Option Nat :=
  if b < 0x80 then some 0
  else if 0xC2 ≤ b && b ≤ 0xDF then some 1
  else if 0xE0 ≤ b && b ≤ 0xEF then some 2
  else if 0xF0 ≤ b && b ≤ 0xF4 then some 3
  else none

/-- The byte can follow the given first byte directly: this rules out overlong forms, surrogates and
code points beyond U+10FFFF. -/
def isSecond (first second : UInt8) : Bool :=
  isContinuation second &&
    !(first == 0xE0 && second < 0xA0) && !(first == 0xED && second ≥ 0xA0) &&
    !(first == 0xF0 && second < 0x90) && !(first == 0xF4 && second ≥ 0x90)

/-- The value bits of a first byte that announces `count` continuation bytes. -/
def leadBits (count : Nat) (b : UInt8) : Nat :=
  match count with
  | 0 => b.toNat
  | 1 => b.toNat % 0x20
  | 2 => b.toNat % 0x10
  | _ => b.toNat % 0x08

/-- The character or fault that starts with `first`. -/
def utf8Piece (first : UInt8) (rest : List UInt8) : Utf8Piece :=
  match continuationCount? first with
  | none => ⟨.error .invalidStart, 0⟩
  | some count =>
    let tail := rest.take count
    let good := match tail with
      | [] => []
      | second :: more =>
        if isSecond first second then second :: more.takeWhile isContinuation else []
    if good.length < tail.length then ⟨.error .invalidContinuation, good.length⟩
    else if tail.length < count then ⟨.error .unexpectedEnd, tail.length⟩
    else
      let code := good.foldl (fun n b => n * 0x40 + b.toNat % 0x40) (leadBits count first)
      ⟨.ok (Char.ofNat code), count⟩

/-- A fault in a byte sequence: the offset of its first byte and the bytes it covers. -/
structure DecodeError where
  fault : Utf8Fault
  offset : Nat
  bytes : List UInt8
  deriving DecidableEq, Repr

/-- All characters and faults of a byte sequence, in order. -/
def utf8Readings (offset : Nat) : List UInt8 → List (Except DecodeError Char)
  | [] => []
  | first :: rest =>
    let piece := utf8Piece first rest
    let reading := piece.reading.mapError fun fault =>
      ⟨fault, offset, first :: rest.take piece.following⟩
    reading :: utf8Readings (offset + 1 + piece.following) (rest.drop piece.following)
termination_by bytes => bytes.length
decreasing_by simp only [List.length_drop, List.length_cons]; omega

/-- The text of a byte sequence, or its first fault. -/
def decodeUtf8 (bytes : List UInt8) : Except DecodeError (List Char) :=
  (utf8Readings 0 bytes).mapM id

/-- The text of a byte sequence, with U+FFFD for every fault. -/
def decodeUtf8Lossy (bytes : List UInt8) : List Char :=
  (utf8Readings 0 bytes).map fun
    | .ok c => c
    | .error _ => '\ufffd'

/-- The character encodings a source file can be read in. -/
inductive Encoding
  | utf8
  | latin1
  | ascii
  deriving DecidableEq, Repr

/-- The text of a byte sequence, with U+FFFD for what the encoding does not assign. -/
def Encoding.decodeLossy : Encoding → List UInt8 → List Char
  | .utf8, bytes => decodeUtf8Lossy bytes
  | .latin1, bytes => bytes.map fun b => Char.ofNat b.toNat
  | .ascii, bytes => bytes.map fun b => if b < 0x80 then Char.ofNat b.toNat else '\ufffd'

end Assay.Text
