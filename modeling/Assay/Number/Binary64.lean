/-!
# Double-precision numbers

A number with a fraction or an exponent in a data file is read as the nearest binary64 number, a tie
going to the even mantissa. A finite number is kept as mantissa and power of two, so that its whole
part and its decimal text are exact integer arithmetic.
-/

namespace Assay

/-- A binary64 number; a finite one is `mantissa * 2 ^ exponent` with its sign. -/
inductive Binary64
  | nan
  | infinite (negative : Bool)
  | finite (negative : Bool) (mantissa : Nat) (exponent : Int)
  deriving DecidableEq, Repr

namespace Binary64

/-- The least exponent of a finite number. -/
def minExponent : Int := -1074

/-- The greatest exponent of a finite number. -/
def maxExponent : Int := 971

/-- Two to the power of an exponent, one if the exponent is negative. -/
def twoTo (exponent : Int) : Nat := Nat.pow 2 exponent.toNat

/-- Ten to the power of an exponent, one if the exponent is negative. -/
def tenTo (exponent : Int) : Nat := Nat.pow 10 exponent.toNat

/-- The quotient rounded to the nearest whole number, a tie to the even one. -/
def roundDiv (num den : Nat) : Nat :=
  let quotient := num / den
  let twice := 2 * (num % den)
  if twice < den then quotient
  else if den < twice then quotient + 1
  else quotient + quotient % 2

/-- The greatest `k` with `2 ^ k ≤ num / den`. -/
def floorLog2 (num den : Nat) : Int :=
  let guess : Int := (Nat.log2 num : Int) - (Nat.log2 den : Int)
  let reached := den * twoTo guess ≤ num * twoTo (-guess)
  if reached then guess else guess - 1

/-- The number nearest to a positive fraction. -/
def ofFraction (negative : Bool) (num den : Nat) : Binary64 :=
  let exponent := max (floorLog2 num den - 52) minExponent
  let mantissa := roundDiv (num * twoTo (-exponent)) (den * twoTo exponent)
  let (mantissa, exponent) :=
    if mantissa == twoTo 53 then (twoTo 52, exponent + 1) else (mantissa, exponent)
  if maxExponent < exponent then .infinite negative else .finite negative mantissa exponent

/-- The number nearest to `digits * 10 ^ exponent`. Values beyond 1e310 and below 1e-324 are decided
by their size alone. -/
def ofDecimal (negative : Bool) (digits : Nat) (exponent : Int) : Binary64 :=
  let size := (Nat.toDigits 10 digits).length + exponent
  if digits == 0 || size < -324 then .finite negative 0 minExponent
  else if 310 < size then .infinite negative
  else ofFraction negative (digits * tenTo exponent) (tenTo (-exponent))

/-- The whole part of a finite number, without its fraction. -/
def truncate? : Binary64 → Option Int
  | .finite negative mantissa exponent =>
    let whole := mantissa * twoTo exponent / twoTo (-exponent)
    some (if negative then -(whole : Int) else whole)
  | _ => none

end Binary64

end Assay
