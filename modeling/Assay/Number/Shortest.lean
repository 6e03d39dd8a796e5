import Assay.Number.Binary64

/-!
# Shortest decimal text

A finite number is written with the fewest digits that are read back as the same number and, among
those, the nearest to it. Positional notation is used from 1e-4 up to 1e16, exponents outside; a
whole number keeps one zero after its point.
-/

namespace Assay.Binary64

/-- The decimal numbers that are read back as a given number lie between two bounds, here in units
of a quarter of its last binary place; the bounds belong to them for an even mantissa. -/
structure ReadingInterval where
  low : Nat
  value : Nat
  high : Nat
  closed : Bool
  /-- The binary exponent of the unit. -/
  unit : Int

/-- The interval of a positive number. Below a power of two the gap to the next number is half as
wide. -/
def readingInterval (mantissa : Nat) (exponent : Int) : ReadingInterval :=
  let narrow := mantissa == twoTo 52 && minExponent < exponent
  { low := 4 * mantissa - (if narrow then 1 else 2)
    value := 4 * mantissa
    high := 4 * mantissa + 2
    closed := mantissa % 2 == 0
    unit := exponent - 2 }

/-- A count of the interval's units as a multiple of `10 ^ place`: numerator and denominator. -/
def scaled (i : ReadingInterval) (place : Int) (n : Nat) : Nat × Nat :=
  (n * twoTo i.unit * tenTo (-place), twoTo (-i.unit) * tenTo place)

/-- The multiple `digits * 10 ^ place` lies in the interval. -/
def ReadingInterval.holds (i : ReadingInterval) (place : Int) (digits : Nat) : Bool :=
  let (low, den) := scaled i place i.low
  let (high, _) := scaled i place i.high
  if i.closed then low ≤ digits * den && digits * den ≤ high
  else low < digits * den && digits * den < high

/-- The multiple of `10 ^ place` nearest to the number among its two neighbours that lie in the
interval; a tie goes to the even one. -/
def nearestIn? (i : ReadingInterval) (place : Int) : Option Nat :=
  let (num, den) := scaled i place i.value
  let below := num / den
  let above := below + 1
  match i.holds place below, i.holds place above with
  | false, false => none
  | true, false => some below
  | false, true => some above
  | true, true =>
    let twice := 2 * (num % den)
    if twice < den || (twice == den && below % 2 == 0) then some below else some above

/-- The power of ten of the first digit of a positive number. -/
def leadingPlace (mantissa : Nat) (exponent : Int) : Int :=
  let num := mantissa * twoTo exponent
  let den := twoTo (-exponent)
  if den ≤ num then ((Nat.toDigits 10 (num / den)).length : Int) - 1
  else -((Nat.toDigits 10 (den / num)).length : Int)

/-- The fewest digits of a positive number, and the power of ten of the last of them: the number of
digits is tried from one up, and seventeen are always enough. -/
def shortestDigits (mantissa : Nat) (exponent : Int) : Nat × Int :=
  let i := readingInterval mantissa exponent
  let first := leadingPlace mantissa exponent
  let found? := (List.range 17).findSome? fun (more : Nat) =>
    (nearestIn? i (first - more)).map fun digits => (digits, first - (more : Int))
  found?.getD (mantissa, exponent)

/-- A decimal exponent, with its sign and at least two digits. -/
def exponentText (exponent : Int) : List Char :=
  let digits := Nat.toDigits 10 exponent.natAbs
  'e' :: (if exponent < 0 then '-' else '+') ::
    (if digits.length < 2 then '0' :: digits else digits)

/-- Digits with the point after the first `whole` of them; zeros fill what is missing. -/
def positional (digits : List Char) (whole : Int) : List Char :=
  if whole ≤ 0 then ['0', '.'] ++ List.replicate (-whole).toNat '0' ++ digits
  else
    let front := digits.take whole.toNat
    let back := digits.drop whole.toNat
    front ++ List.replicate (whole.toNat - digits.length) '0' ++
      '.' :: (if back.isEmpty then ['0'] else back)

/-- The text of a positive number. -/
def positiveText (mantissa : Nat) (exponent : Int) : List Char :=
  let (number, place) := shortestDigits mantissa exponent
  let all := Nat.toDigits 10 number
  let digits := (all.reverse.dropWhile (· == '0')).reverse
  let scientific := place + (all.length : Int) - 1
  if -4 ≤ scientific && scientific < 16 then positional digits (scientific + 1)
  else
    match digits with
    | [single] => single :: exponentText scientific
    | first :: more => first :: '.' :: more ++ exponentText scientific
    | [] => []

/-- The text of a number. -/
def text : Binary64 → String
  | .nan => "nan"
  | .infinite negative => if negative then "-inf" else "inf"
  | .finite negative mantissa exponent =>
    let digits := if mantissa == 0 then ['0', '.', '0'] else positiveText mantissa exponent
    String.ofList (if negative then '-' :: digits else digits)

end Assay.Binary64
