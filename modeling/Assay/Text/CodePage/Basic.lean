/-!
# Code pages

A code page gives every byte one character or none. The lower half is that of ASCII; a page is its
names and the characters of its upper half.
-/

namespace Assay.Text

/-- Stands in the upper half of a page for a byte without a character. -/
def unassigned : Char := '\ufffd'

/-- A set of at most 256 characters, each written as one byte. -/
structure CodePage where
  /-- The names it goes by, in their plain form. -/
  names : List String
  /-- The characters of the bytes from 128 on, in order. -/
  upper : String
  /-- The characters of ASCII that it lacks. -/
  lacking : List Char := []
  deriving DecidableEq, Repr

namespace CodePage

/-- The character of a byte, given the upper half as a table. -/
def charOf? (page : CodePage) (table : Array Char) (b : UInt8) : Option Char :=
  if b < 0x80 then
    let c := Char.ofNat b.toNat
    if page.lacking.contains c then none else some c
  else table[b.toNat - 0x80]?.filter (· != unassigned)

/-- The characters of a byte sequence. -/
def decode (page : CodePage) (bytes : List UInt8) : List (Option Char) :=
  bytes.map (page.charOf? page.upper.toList.toArray)

end CodePage

end Assay.Text
