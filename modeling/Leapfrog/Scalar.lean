import Leapfrog.Decimal.Binary64

/-!
# Scalars

A trajectory is computed with the four operations and a few questions about its numbers. `Scalar`
collects the questions, so that one definition of the motion runs on doubles and is read over the
rationals, where no operation rounds. The four operations are taken as they are: a statement about
the step holds for any `+`, `-` and `*` at all.
-/

namespace Leapfrog

/-- What a trajectory asks of its numbers beyond the four operations. -/
class Scalar (α : Type) where
  /-- The scalar nearest to a whole number. -/
  ofInt : Int → α
  /-- The absolute value. -/
  abs : α → α
  /-- The order. A value that is not even comparable with itself is not a number. -/
  le : α → α → Bool
  /-- Whether a scalar is a number and not an infinity. -/
  isFinite : α → Bool
  /-- The whole number that a scalar equals, if it equals one. -/
  toInt? : α → Option Int
  /-- The whole number that is left of a finite scalar without its fraction. -/
  truncate : α → Int
  /-- The square. Where numbers are rounded it may differ from the product in the last digit. -/
  square : α → α
  /-- How many bytes a scalar takes, where all scalars take the same number of them. -/
  bytes? : Option Nat

namespace Scalar

variable {α : Type} [Scalar α]

/-- The order is strict where the converse comparison fails too. -/
def lt (a b : α) : Bool := le a b && !le b a

/-- A value that is not a number is the one that does not compare with itself. -/
def isNaN (a : α) : Bool := !le a a

/-- Finite and above zero. -/
def isPositive (a : α) : Bool := isFinite a && !le a (ofInt 0)

/-- Finite and not below zero. -/
def isNonnegative (a : α) : Bool := isFinite a && !lt a (ofInt 0)

/-- The larger of two scalars; a value that is not a number wins over any number. -/
def larger (a b : α) : α :=
  if isNaN a then a else if isNaN b then b else if le a b then b else a

/-- The largest of some nonnegative scalars, zero when there are none. A value that is not a number
is never lost. -/
def largest (values : List α) : α := values.foldl larger (ofInt 0)

/-- Doubles, with every operation rounded to nearest. -/
instance : Scalar Float where
  ofInt := Decimal.Binary64.ofInt
  abs := Float.abs
  le a b := decide (a ≤ b)
  isFinite := Float.isFinite
  toInt? := Decimal.Binary64.toInt?
  truncate := Decimal.Binary64.truncate
  square := Decimal.Binary64.square
  bytes? := some 8

/-- Exact arithmetic. -/
instance : Scalar Rat where
  ofInt n := n
  abs a := if a < 0 then -a else a
  le a b := decide (a ≤ b)
  isFinite _ := true
  toInt? a := if a.den = 1 then some a.num else none
  truncate a := a.num.tdiv a.den
  square a := a * a
  bytes? := none

end Scalar

end Leapfrog
