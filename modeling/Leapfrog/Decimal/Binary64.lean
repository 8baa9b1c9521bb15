import Leapfrog.Decimal.Rounding

/-!
# Doubles as binary fractions

A finite double is `m * 2 ^ e` with a whole `m` below `2 ^ 53`. This file takes a `Float` apart
into that form and finds the double nearest to a quotient of whole numbers. The nonnegative
doubles are numbered in increasing order by their bit patterns; the number of a double is its
*rank*, zero has rank zero, and the first rank past the finite ones is infinity. Rounding up to
the next power of two is then the step to the next rank and needs no case of its own.
-/

namespace Leapfrog.Decimal

/-- A double taken apart: its sign and, when it is finite, the magnitude `m * 2 ^ e`. -/
inductive Binary64 where
  | nan
  | infinite (negative : Bool)
  | finite (negative : Bool) (m : Nat) (e : Int)
  deriving DecidableEq, Repr

namespace Binary64

/-- The least exponent, that of the subnormal numbers. -/
def minExponent : Int := -1074

/-- How many doubles share one exponent. -/
def perExponent : Nat := 4503599627370496

/-- The rank of infinity. -/
def infinityRank : Nat := 2047 * perExponent

/-- The value of the sign bit in a bit pattern. -/
def signBit : Nat := 9223372036854775808

/-- The magnitude with a given finite rank, as `m` and `e` of `m * 2 ^ e`. -/
def ofRank (rank : Nat) : Nat × Int :=
  let field := rank / perExponent
  let fraction := rank % perExponent
  if field = 0 then (fraction, minExponent)
  else (perExponent + fraction, minExponent + ((field : Int) - 1))

/-- Taking a double apart. -/
def ofFloat (x : Float) : Binary64 :=
  let bits := x.toBits.toNat
  let negative : Bool := decide (signBit ≤ bits)
  let rank := bits % signBit
  if rank < infinityRank then
    let (m, e) := ofRank rank
    .finite negative m e
  else if rank = infinityRank then .infinite negative
  else .nan

/-- The quotient of whole numbers that `m * 2 ^ e` is. -/
def quotient (m : Nat) (e : Int) : Nat × Nat :=
  if 0 ≤ e then (m <<< e.toNat, 1) else (m, 1 <<< (-e).toNat)

/-- The double with a given sign and rank. -/
def toFloat (negative : Bool) (rank : Nat) : Float :=
  Float.ofBits (UInt64.ofNat (if negative then signBit + rank else rank))

/-- The quotient `num / den` in units of `2 ^ e`, as a numerator and a denominator. -/
def inUnits (num den : Nat) (e : Int) : Nat × Nat :=
  if 0 ≤ e then (num, den <<< e.toNat) else (num <<< (-e).toNat, den)

/-- The exponent at which `num / den` has 53 binary digits, but no less than the least one. -/
def exponentFor (num den : Nat) : Int :=
  let guess := max ((num.log2 : Int) - (den.log2 : Int) - 52) minExponent
  let (n, d) := inUnits num den guess
  if n / d < perExponent then max (guess - 1) minExponent else guess

/-- The rank of the double nearest to `num / den`; of two equally near ones the one with the even
mantissa, and infinity beyond the largest finite double. -/
def nearestRank (num den : Nat) : Nat :=
  if num = 0 then 0
  else
    let e := exponentFor num den
    let (n, d) := inUnits num den e
    min infinityRank ((e - minExponent).toNat * perExponent + roundHalfEven n d)

/-- The double nearest to `num / den` with the given sign. -/
def nearest (negative : Bool) (num den : Nat) : Float :=
  toFloat negative (nearestRank num den)

/-- The double nearest to a whole number. -/
def ofInt (n : Int) : Float :=
  nearest (decide (n < 0)) n.natAbs 1

/-- The whole number that a double equals, if it equals one. -/
def toInt? (x : Float) : Option Int :=
  match ofFloat x with
  | .finite negative m e =>
    let signed (n : Nat) : Int := if negative then -(n : Int) else n
    if 0 ≤ e then some (signed (m <<< e.toNat))
    else
      let unit := 1 <<< (-e).toNat
      if m % unit = 0 then some (signed (m / unit)) else none
  | _ => none

/-- The whole number that is left of a double without its fraction; zero if it is not finite. -/
def truncate (x : Float) : Int :=
  match ofFloat x with
  | .finite negative m e =>
    let (num, den) := quotient m e
    if negative then -((num / den : Nat) : Int) else (num / den : Nat)
  | _ => 0

/-- The least whole number that is not below a double, if the double is finite. -/
def ceil? (x : Float) : Option Int :=
  match ofFloat x with
  | .finite negative m e =>
    let (num, den) := quotient m e
    some (if negative then -((num / den : Nat) : Int) else ((num + (den - 1)) / den : Nat))
  | _ => none

/-- The square by the power function, whose last digit is not always that of the product. The
product decides whether the square is finite. -/
def square (x : Float) : Float :=
  let power := x.pow (ofInt 2)
  if power.isFinite = (x * x).isFinite then power else x * x

/-- A square is finite exactly if the product is. -/
theorem isFinite_square (x : Float) : (square x).isFinite = (x * x).isFinite := by
  unfold square
  dsimp only
  split
  · assumption
  · rfl

/-- The quotient `digits * 10 ^ exponent` as a numerator and a denominator. -/
def tenfold (digits : Nat) (exponent : Int) : Nat × Nat :=
  if 0 ≤ exponent then (digits * Nat.pow 10 exponent.toNat, 1)
  else (digits, Nat.pow 10 (-exponent).toNat)

/-- The rank of the double nearest to `digits * 10 ^ exponent`. The two guards answer at once where
the value is far beyond the largest or far below the smallest double, however large the exponent. -/
def rankOfDecimal (digits : Nat) (exponent : Int) : Nat :=
  if digits = 0 then 0
  else if 400 < exponent then infinityRank
  else if exponent + (digits.log2 : Int) < -400 then 0
  else
    let (num, den) := tenfold digits exponent
    nearestRank num den

/-- The double nearest to a decimal with the given sign. -/
def ofDecimal (negative : Bool) (digits : Nat) (exponent : Int) : Float :=
  toFloat negative (rankOfDecimal digits exponent)

end Binary64

end Leapfrog.Decimal
