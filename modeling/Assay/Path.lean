import Assay.Text.Layout

/-!
# Paths

A path in its plain form: empty components and single dots are dropped, double dots are kept. A path
may start at the root, which is written with one slash or, if it was given so, with exactly two.
-/

namespace Assay

/-- The leading slashes, none, one or two, and the components after them. -/
structure Path where
  slashes : Nat
  parts : List String
  deriving DecidableEq, Repr

namespace Path

/-- The components of a text that mean something. -/
def partsOf (cs : List Char) : List String :=
  ((Text.splitAt '/' cs).map String.ofList).filter fun part => part != "" && part != "."

/-- The path a text names. -/
def ofString (s : String) : Path :=
  let cs := s.toList
  let leading := (cs.takeWhile (· == '/')).length
  ⟨if leading == 2 then 2 else min leading 1, partsOf cs⟩

/-- The text of a path; the empty relative path is a dot. -/
def toString (p : Path) : String :=
  if p.slashes == 0 && p.parts.isEmpty then "."
  else String.ofList (List.replicate p.slashes '/') ++ String.intercalate "/" p.parts

instance : ToString Path := ⟨Path.toString⟩

/-- The path of an entry below another. -/
def below (p : Path) (parts : List String) : Path := { p with parts := p.parts ++ parts }

/-- The other path, seen from this one. -/
def join (p other : Path) : Path := if other.slashes == 0 then p.below other.parts else other

/-- Double dots resolved by leaving out the component before them; at the root they mean nothing. -/
def resolvedParts (parts : List String) : List String :=
  (parts.foldl (fun found part => if part == ".." then found.tail else part :: found) []).reverse

/-- The path without double dots. -/
def resolved (p : Path) : Path := { p with parts := resolvedParts p.parts }

/-- The path of the directory around. -/
def parent (p : Path) : Path := { p with parts := p.parts.dropLast }

end Path

end Assay
