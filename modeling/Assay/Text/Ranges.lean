/-!
# Sets of code points

A character class of the Unicode standard is given by a table of closed ranges in ascending order.
Membership is a search through the table; the classes themselves are in the modules beside this one.
-/

namespace Assay.Text

/-- A set of code points, as closed ranges in ascending order. -/
abbrev Ranges := List (Nat × Nat)

/-- Some range of the table holds the character. -/
def Ranges.contains (table : Ranges) (c : Char) : Bool :=
  table.any fun range => range.1 ≤ c.toNat && c.toNat ≤ range.2

/-- Some range of the table holds the character at an even distance from the range's start: the
scripts whose two letter cases alternate are listed this way. -/
def Ranges.containsAlternate (table : Ranges) (c : Char) : Bool :=
  table.any fun range =>
    range.1 ≤ c.toNat && c.toNat ≤ range.2 && (c.toNat - range.1) % 2 == 0

end Assay.Text
