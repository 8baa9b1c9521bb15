import Leapfrog.Fault
import Leapfrog.Machine
import Leapfrog.Tensor

/-!
# Limits of arrays

An array of numbers of a fixed width has limits: its axes, its lengths and its bytes are counted,
and each count has a largest value. Exact numbers have no fixed width, and an array of them has no
limits except that no length is negative.

A row of the indices below a given end has a rule of its own. Its length is computed as a double, so
that a large end is rounded before it is compared.

A quantity that is asked whether it is finite is read as a number of a fixed width first, so that a
whole number of more than 64 bits is refused whether or not there is a scalar nearest to it.
-/

namespace Leapfrog.Limits

/-- A machine integer is below this bound and not below minus this bound. -/
def bound : Nat := 1 <<< 63

/-- An integer of 32 bits is below this bound and not below minus this bound. -/
def shortBound : Nat := 1 <<< 31

/-- Whether a whole number is a machine integer. -/
def isMachineInteger (n : Int) : Bool := decide (-(bound : Int) ≤ n ∧ n < bound)

/-- How many axes an array has at most. -/
def axes : Nat := 64

/-- How many indices a place in an array has at most. -/
def placeIndices : Nat := 2 * axes

variable {α β : Type}

/-- An array with at most as many axes as an array may have. -/
def checkedAxes (t : Tensor β) : Except (Fault α) (Tensor β) :=
  if t.shape.length ≤ axes then .ok t else .error (.tooManyAxes axes)

/-- A whole number that is small enough to be one of the calendar or the clock. -/
def shortInteger : Number α → Except (Fault α) Int
  | .whole n =>
    if !isMachineInteger n then .error .hugeInteger
    else if n < -shortBound then .error .belowMinimum
    else if shortBound ≤ n then .error .aboveMaximum
    else .ok n
  | .scalar _ => .error .lengthForm

/-- Whether a whole number is short enough to be written. -/
def checkDigits (n : Int) : Except (Fault α) Unit :=
  if n.natAbs < Nat.pow 10 Decimal.maxDigits then .ok () else .error .tooManyDigits

/-- Whether some whole numbers are all short enough to be written. -/
def checkAllDigits : List Int → Except (Fault α) Unit
  | [] => .ok ()
  | n :: rest => do
    checkDigits n
    checkAllDigits rest

/-- Whether there is memory for an array. -/
def checkMemory [Machine] (entries : Fault.Entry) (bytes : Nat) (shape : List Nat) :
    Except (Fault α) Unit :=
  if bytes ≤ Machine.memory then .ok () else .error (.outOfMemory bytes shape entries)

/-- Whether the bytes of an array can be counted when each of its entries takes some of them. The
lengths are multiplied one after the other, and those that are zero are passed over. -/
def countBytes (bytes : Nat) : List Int → Except (Fault α) Unit
  | [] => .ok ()
  | n :: rest =>
    if n < 0 then .error .negativeSize
    else if n = 0 then countBytes bytes rest
    else if bytes * n.toNat < bound then countBytes (bytes * n.toNat) rest
    else .error .arrayTooLarge

section

variable [Machine] [Scalar α]

/-- Whether there can be an array of scalars of given lengths. -/
def array (lengths : List Int) : Except (Fault α) Unit :=
  match Scalar.bytes? α with
  | none => if lengths.any (· < 0) then .error .negativeSize else .ok ()
  | some bytes => do
    unless lengths.all isMachineInteger do throw .lengthTooLarge
    countBytes bytes lengths
    let shape := lengths.map Int.toNat
    checkMemory .scalar (bytes * shape.foldr (· * ·) 1) shape

/-- The length of the row of the indices below an end, none of them below zero. A row whose end is
rounded to the bound of the machine integers is empty. -/
def range (entries : Fault.Entry) (stop : Int) : Except (Fault α) Nat :=
  match Scalar.bytes? α with
  | none => .ok stop.toNat
  | some bytes =>
    match Scalar.toInt? (Scalar.ofInt stop : α) with
    | none => .error .rangeTooLong
    | some length =>
      if length < -(bound : Int) ∨ (bound : Int) < length then .error .rangeTooLong
      else if length = bound then .ok 0
      else if bytes * length.toNat < bound then do
        checkMemory entries (bytes * length.toNat) [length.toNat]
        return stop.toNat
      else .error .arrayTooLarge

end

/-- The end of a row of indices that is given as a double. A fraction is rounded up. -/
def rangeEnd (x : Float) : Except (Fault Float) Int :=
  if Scalar.isNaN x then .error .endlessRange
  else match Decimal.Binary64.ceil? x with
    | some n => .ok n
    | none => .error .rangeTooLong

end Leapfrog.Limits

namespace Leapfrog.Number

variable {α : Type} [Scalar α]

/-- Whether it can be asked whether a number is finite: a whole number has to fit into 64 bits, with a
sign or without one. -/
def isNarrow : Number α → Bool
  | .whole n => decide (-(Limits.bound : Int) ≤ n ∧ n < 2 * Limits.bound)
  | .scalar _ => true

/-- A timestep: finite and above zero. -/
def timestep (t : Number α) : Except (Fault α) { x : α // Scalar.isPositive x = true } :=
  if !t.isNarrow then .error .wideNumber
  else if h : Scalar.isPositive t.nearest then .ok ⟨t.nearest, h⟩
  else .error (.timestep t)

end Leapfrog.Number
