import Leapfrog.Limits
import Leapfrog.Text.Line

/-!
# Timestamps

A moment is written as its date, the letter T and its time. Microseconds are written only if there
are any, and then with all six digits. `Timestamp.ofNumbers` accepts the moments of the years 1 to
9999 of the Gregorian calendar. All numbers are read before the first of them is looked at.
-/

namespace Leapfrog

/-- A moment on a clock without a time zone. -/
structure Timestamp where
  year : Nat
  month : Nat
  day : Nat
  hour : Nat
  minute : Nat
  second : Nat
  microsecond : Nat
  deriving DecidableEq, Repr

namespace Timestamp

/-- How many days a month has. -/
def daysIn (year month : Nat) : Nat :=
  if month = 2 then
    if (year % 4 = 0 ∧ year % 100 ≠ 0) ∨ year % 400 = 0 then 29 else 28
  else if month ∈ [4, 6, 9, 11] then 30 else 31

/-- A number of a unit of the clock, from zero up to the last one. -/
def clock {α : Type} (unit : String) (last : Nat) (given : Int) : Except (Fault α) Nat :=
  if 0 ≤ given ∧ given ≤ last then .ok given.toNat else .error (.clockRange unit last)

/-- The moment with given numbers. The first number out of range is named. -/
def ofNumbers {α : Type} (year month day hour minute second microsecond : Number α) :
    Except (Fault α) Timestamp := do
  let year ← Limits.shortInteger year
  let month ← Limits.shortInteger month
  let day ← Limits.shortInteger day
  let hour ← Limits.shortInteger hour
  let minute ← Limits.shortInteger minute
  let second ← Limits.shortInteger second
  let microsecond ← Limits.shortInteger microsecond
  unless 1 ≤ year ∧ year ≤ 9999 do throw (.yearRange year)
  unless 1 ≤ month ∧ month ≤ 12 do throw .monthRange
  unless 1 ≤ day ∧ day ≤ daysIn year.toNat month.toNat do throw .dayRange
  let hour ← clock "hour" 23 hour
  let minute ← clock "minute" 59 minute
  let second ← clock "second" 59 second
  let microsecond ← clock "microsecond" 999999 microsecond
  return ⟨year.toNat, month.toNat, day.toNat, hour, minute, second, microsecond⟩

end Timestamp

/-- The text of a moment. -/
def Timestamp.text (t : Timestamp) : String :=
  let two := Text.padZeros 2
  let date := "-".intercalate [Text.padZeros 4 t.year, two t.month, two t.day]
  let time := ":".intercalate [two t.hour, two t.minute, two t.second]
  let fraction := if t.microsecond = 0 then "" else "." ++ Text.padZeros 6 t.microsecond
  date ++ "T" ++ time ++ fraction

end Leapfrog
