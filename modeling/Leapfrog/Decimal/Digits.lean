import Leapfrog.Decimal.Binary64

/-!
# Decimal digits of a quotient

A nonnegative number is written from a row of significant digits and the power of ten that the
first of them stands for. `Digits.rounded` rounds an exact quotient to a given number of digits,
once and to the even neighbour on a tie. `Digits.shortest` gives a double the fewest digits that
read back as that double and, among those, the digits nearest to its exact value.
-/

namespace Leapfrog.Decimal

/-- The decimal digits of a whole number, one `0` for zero. -/
def digitChars (n : Nat) : List Char := Nat.toDigits 10 n

/-- How many decimal digits a whole number has. -/
def digitCount (n : Nat) : Nat := (digitChars n).length

/-- A row of significant digits `d.ddd * 10 ^ exponent`: the digits read as one whole number, how
many of them there are (leading zeros count), and the exponent of the first one. -/
structure Digits where
  significand : Nat
  places : Nat
  exponent : Int
  deriving DecidableEq, Repr

namespace Digits

/-- The exponent of the first digit of `num / den`, which is positive. -/
def leadingExponent (num den : Nat) : Int :=
  let gap : Int := (digitCount num : Int) - (digitCount den : Int)
  let reached : Bool :=
    if 0 ≤ gap then den * Nat.pow 10 gap.toNat ≤ num else den ≤ num * Nat.pow 10 (-gap).toNat
  if reached then gap else gap - 1

/-- The quotient `num / den` in units of `10 ^ unit`, as a numerator and a denominator. -/
def inTens (num den : Nat) (unit : Int) : Nat × Nat :=
  if 0 ≤ unit then (num, den * Nat.pow 10 unit.toNat)
  else (num * Nat.pow 10 (-unit).toNat, den)

/-- Digits that stand for `n` units of `10 ^ unit`, `places` of them. Rounding up may carry into
one more digit, which is then `1` followed by zeros; the last zero is dropped. -/
def ofUnits (n places : Nat) (unit : Int) : Digits :=
  if n = Nat.pow 10 places then ⟨Nat.pow 10 (places - 1), places, unit + places⟩
  else ⟨n, places, unit + places - 1⟩

/-- The quotient `num / den` rounded to `places` significant digits. -/
def rounded (places num den : Nat) : Digits :=
  if num = 0 then ⟨0, places, 0⟩
  else
    let unit := leadingExponent num den - (places - 1 : Nat)
    let (n, d) := inTens num den unit
    ofUnits (roundHalfEven n d) places unit

/-- All digits of `m * 2 ^ e`. -/
def exact (m : Nat) (e : Int) : Digits :=
  let n := if 0 ≤ e then m <<< e.toNat else m * Nat.pow 5 (-e).toNat
  let unit := if 0 ≤ e then 0 else e
  ⟨n, digitCount n, unit + digitCount n - 1⟩

/-- The digits at `places` significant places that read back as the double of the given rank, if
there are any. Of the two grid points beside the value `num / den` one may fail to read back; if
neither fails the nearer is taken, and the even one on a tie. -/
def readingBack? (rank num den : Nat) (leading : Int) (places : Nat) : Option Digits :=
  let unit := leading - (places - 1 : Nat)
  let (n, d) := inTens num den unit
  let reads (k : Nat) : Bool := Binary64.rankOfDecimal k unit == rank
  let nearer := roundHalfEven n d
  let other := if nearer = n / d then n / d + 1 else n / d
  if reads nearer then some (ofUnits nearer places unit)
  else if reads other then some (ofUnits other places unit)
  else none

/-- The fewest digits that read back as the positive double `m * 2 ^ e`. A row of digits may be
continued by zeros, so that no row shorter than fifteen digits is tried where those already fail.
Seventeen digits always suffice; should none of them do, all digits are written. -/
def shortest (m : Nat) (e : Int) : Digits :=
  let (num, den) := Binary64.quotient m e
  let rank := Binary64.nearestRank num den
  let leading := leadingExponent num den
  let attempt := readingBack? rank num den leading
  let places := if (attempt 15).isSome then List.range' 1 15 else [16, 17]
  (places.findSome? attempt).getD (exact m e)

end Digits

end Leapfrog.Decimal
