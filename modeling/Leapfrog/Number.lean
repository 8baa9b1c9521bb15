import Leapfrog.Scalar
import Leapfrog.Decimal.Text

/-!
# Numbers as they are given

A count of atoms or steps may be given as a whole number of any size or as a scalar such as `2.0`,
and so may a timestep or a bound on the error. It keeps the form it came in until it is accepted,
since a refusal shows the number as it was given.
-/

namespace Leapfrog

/-- A number in the form it was given. -/
inductive Number (α : Type) where
  | whole (value : Int)
  | scalar (value : α)
  deriving DecidableEq, Repr

namespace Number

variable {α : Type} [Scalar α]

/-- The scalar nearest to a number. -/
def nearest : Number α → α
  | .whole n => Scalar.ofInt n
  | .scalar x => x

/-- Whether a number lies below zero. -/
def isNegative : Number α → Bool
  | .whole n => decide (n < 0)
  | .scalar x => Scalar.lt x (Scalar.ofInt 0)

/-- Whether a number lies below a count. -/
def isBelow (bound : Nat) : Number α → Bool
  | .whole n => decide (n < bound)
  | .scalar x => Scalar.lt x (Scalar.ofInt bound)

/-- The first position of an endless row that does not lie before a number, if there is one. -/
def position? : Number α → Option Nat
  | .whole n => some n.toNat
  | .scalar x =>
    if Scalar.isFinite x then
      let below := Scalar.truncate x
      some (if Scalar.lt (Scalar.ofInt below) x then below + 1 else below).toNat
    else if Scalar.lt x (Scalar.ofInt 0) then some 0
    else none

end Number

end Leapfrog
