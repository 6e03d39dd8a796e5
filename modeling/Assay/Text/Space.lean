import Assay.Text.Ranges

/-!
# White space and line breaks

Three classes of characters that separate text. Java sources are divided at the Unicode property
White_Space, which may also stand around a number; names in configuration data are stripped of the
four information separators too; and the line a message quotes ends at any of ten line-breaking
characters.
-/

namespace Assay.Text

/-- The Unicode property White_Space. -/
def whiteSpaceRanges : Ranges :=
  [(0x09, 0x0D), (0x20, 0x20), (0x85, 0x85), (0xA0, 0xA0), (0x1680, 0x1680), (0x2000, 0x200A),
   (0x2028, 0x2029), (0x202F, 0x202F), (0x205F, 0x205F), (0x3000, 0x3000)]

/-- The character has the property White_Space. -/
def isWhiteSpace (c : Char) : Bool := whiteSpaceRanges.contains c

/-- The character is white space or an information separator (U+001C to U+001F). -/
def isBlank (c : Char) : Bool := isWhiteSpace c || (0x1C ≤ c.toNat && c.toNat ≤ 0x1F)

/-- The character ends a line of displayed text. -/
def isLineBreak (c : Char) : Bool :=
  (0x0A ≤ c.toNat && c.toNat ≤ 0x0D) || (0x1C ≤ c.toNat && c.toNat ≤ 0x1E) ||
    c.toNat == 0x85 || c.toNat == 0x2028 || c.toNat == 0x2029

/-- The text without the characters of a class at either end. -/
def trimWhile (isOuter : Char → Bool) (cs : List Char) : List Char :=
  ((cs.dropWhile isOuter).reverse.dropWhile isOuter).reverse

/-- The text without the blanks at either end. -/
def strip (cs : List Char) : List Char := trimWhile isBlank cs

/-- The text up to its first line break. -/
def firstLine (cs : List Char) : List Char := cs.takeWhile (!isLineBreak ·)

/-- Number of line feeds in the text. -/
def lineFeeds (cs : List Char) : Nat := cs.count '\n'

/-- Every line ending (a carriage return with its line feed, or alone) becomes a line feed. -/
def unifyLineEnds : List Char → List Char
  | [] => []
  | '\r' :: '\n' :: cs => '\n' :: unifyLineEnds cs
  | '\r' :: cs => '\n' :: unifyLineEnds cs
  | c :: cs => c :: unifyLineEnds cs

end Assay.Text
