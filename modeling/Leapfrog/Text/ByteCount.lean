import Leapfrog.Decimal.Text

/-!
# Counts of bytes

A count of bytes is written in the largest unit that it reaches, each unit being 1024 times the one
before it. The number of units is a double. It is written with three digits as long as they reach
the point, and with all its whole digits beyond that.
-/

namespace Leapfrog.Text

/-- The units of bytes in increasing order. -/
def byteUnits : List String := ["bytes", "KiB", "MiB", "GiB", "TiB", "PiB", "EiB"]

/-- A number of units, always with a point. -/
def unitCount (num den : Nat) : String :=
  let whole := Decimal.roundHalfEven num den
  let (before, behind) :=
    if whole < 1000 then (Decimal.Digits.rounded 3 num den).split
    else (Decimal.digitChars whole, [])
  String.ofList (before ++ '.' :: behind)

/-- A count of bytes. A number of units that rounds to 1024 is one of the next unit. -/
def byteCount (bytes : Nat) : String :=
  let level := bytes.log2 / 10
  if level = 0 then String.ofList (Decimal.digitChars bytes) ++ " bytes"
  else
    let (m, e) := Decimal.Binary64.ofRank (Decimal.Binary64.nearestRank bytes (Nat.pow 1024 level))
    let (num, den) := Decimal.Binary64.quotient m e
    let (level, den) :=
      if Decimal.roundHalfEven num den = 1024 then (level + 1, den * 1024) else (level, den)
    unitCount num den ++ " " ++ byteUnits[level]?.getD "EiB"

end Leapfrog.Text
