import Leapfrog.Limits

/-!
# Indices from either end

An index into a row of values may be negative, and then counts from the end: the last value has the
index minus one. Any other index outside the row stands for no value.

An index that is not a machine integer, or not a whole number, is refused before it is looked up.
Lists and arrays refuse it in different words, and an array has other words again for one that would
fit without a sign.

Several indices, one for each of the first axes of an array, are a place in it. A row of indices
picks entries in the order of the indices. All of its indices are read as numbers of one sort, with
a sign or without; without a sign the upper half of them stands for the negative ones.
-/

namespace Leapfrog

/-- The position that an index stands for in a row of `size` values. -/
def wrapIndex? (size : Nat) (index : Int) : Option Nat :=
  if 0 ≤ index ∧ index < size then some index.toNat
  else if -(size : Int) ≤ index ∧ index < 0 then some (index + size).toNat
  else none

/-- The position that an index stands for along an axis of an array. -/
def wrapIndex {α : Type} (axis size : Nat) (index : Int) : Except (Fault α) Nat :=
  match wrapIndex? size index with
  | some i => .ok i
  | none => .error (.outOfBounds index axis size)

/-- An index into a list that is a machine integer. -/
def checkedIndex {α : Type} (index : Int) : Except (Fault α) Int :=
  if Limits.isMachineInteger index then .ok index else .error .hugeIndex

/-- The position that an index stands for in a list. An index is a whole number. -/
def slotIndex {α : Type} (size : Nat) : Number α → Except (Fault α) Nat
  | .whole index => do
    match wrapIndex? size (← checkedIndex index) with
    | some i => return i
    | none => throw .unknownSlot
  | .scalar _ => .error .slotForm

/-- An index along an axis of an array, which must be a machine integer. One that would be a machine
integer without a sign is refused as a number, any other one as an index. -/
def axisIndex {α : Type} : Number α → Except (Fault α) Int
  | .whole index =>
    if Limits.isMachineInteger index then .ok index
    else if 0 ≤ index ∧ index < 2 * Limits.bound then .error .hugeInteger
    else .error .invalidIndex
  | .scalar _ => .error .invalidIndex

/-- The indices of a place in an array with a number of axes. A place that is too long for any array
is not read at all. -/
def readPlace {α : Type} (axes : Nat) (place : List (Number α)) : Except (Fault α) (List Int) := do
  if Limits.placeIndices < place.length then throw .placeTooLong
  let indices ← place.mapM axisIndex
  if axes < indices.length then throw (.tooManyIndices axes indices.length)
  return indices

/-- The indices of a row, each of them a machine integer. -/
def readRow {α : Type} (row : List (Number α)) : Except (Fault α) (List Int) := do
  let indices ← row.mapM fun
    | .whole index => return index
    | .scalar _ => throw .invalidIndex
  if indices.all Limits.isMachineInteger then return indices
  if indices.all fun i => decide ((Limits.bound : Int) ≤ i ∧ i < 2 * Limits.bound) then
    return indices.map fun i => i - 2 * Limits.bound
  throw .invalidIndex

/-- The positions that a row of indices picks along the first axis of an array. -/
def pickedPositions {α : Type} (size : Nat) (row : List (Number α)) :
    Except (Fault α) (List Nat) := do
  (← readRow row).mapM (wrapIndex 0 size)

namespace Tensor

variable {α : Type}

/-- The part of an array at a place: where its entries begin among all entries, and how many they
are. The axes before `axis` have been passed. -/
def part (axis : Nat) : List Nat → List Int → Except (Fault α) (Nat × Nat)
  | shape, [] => .ok (0, shape.foldr (· * ·) 1)
  | size :: shape, index :: place => do
    let i ← wrapIndex axis size index
    let (start, count) ← part (axis + 1) shape place
    return (i * shape.foldr (· * ·) 1 + start, count)
  | [], _ :: place => .error (.tooManyIndices axis (axis + 1 + place.length))

/-- An array with a value written over all entries at a place. -/
def overwrite (place : List Int) (value : α) (t : Tensor α) : Except (Fault α) (Tensor α) := do
  let (start, count) ← part 0 t.shape place
  let written (i : Nat) (a : α) : α := if start ≤ i ∧ i < start + count then value else a
  return ⟨t.shape, t.entries.mapIdx written, by rw [List.length_mapIdx, t.length_entries]⟩

end Tensor

/-- An index stands for a position exactly if it lies in the row from either end. -/
theorem wrapIndex?_isSome (size : Nat) (index : Int) :
    (wrapIndex? size index).isSome = true ↔ -(size : Int) ≤ index ∧ index < size := by
  unfold wrapIndex?
  split
  · simp; omega
  · split
    · simp; omega
    · simp; omega

/-- The position that an index stands for lies in the row. -/
theorem lt_of_wrapIndex?_eq_some {size : Nat} {index : Int} {i : Nat}
    (h : wrapIndex? size index = some i) : i < size := by
  unfold wrapIndex? at h
  split at h
  · simp at h; omega
  · split at h
    · simp at h; omega
    · simp at h

end Leapfrog
