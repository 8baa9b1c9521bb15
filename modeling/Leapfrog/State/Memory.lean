import Leapfrog.Fault

/-!
# Arrays that look into buffers

Numbers are kept in buffers, and an array is a view of a buffer without gaps. Two arrays may look into
the same buffer, so that what is written through one of them is read through the other, and there are
arrays that must not be written at all.
-/

namespace Leapfrog

/-- Where an array looks: its buffer, the position of its first entry in it, and whether entries may be
written. -/
structure View (ι : Type) where
  buffer : ι
  start : Nat
  isWritable : Bool
  deriving DecidableEq, Repr

/-- Buffers of numbers and the arrays that look into them. A buffer is as long as its arrays need. -/
structure Memory (ι α : Type) where
  cells : ι → Nat → α
  views : ι → View ι

namespace Memory

variable {ι α : Type}

/-- The buffer and the position in it that an entry of an array has. -/
def place (m : Memory ι α) (array : ι) (k : Nat) : ι × Nat :=
  ((m.views array).buffer, (m.views array).start + k)

/-- An entry of an array. -/
def entry (m : Memory ι α) (array : ι) (k : Nat) : α :=
  m.cells (m.place array k).1 (m.place array k).2

/-- The entries at the front of an array. -/
def entries (m : Memory ι α) (array : ι) (length : Nat) : List α :=
  (List.range length).map (m.entry array)

/-- Every array with a buffer of its own, which may be written. What was one and the same array still
is. -/
def copy (m : Memory ι α) : Memory ι α := ⟨m.entry, fun array => ⟨array, 0, true⟩⟩

variable [DecidableEq ι]

/-- Values written over the entries at the front of an array. -/
def overwrite (m : Memory ι α) (array : ι) (values : Array α) : Memory ι α :=
  let view := m.views array
  { m with
    cells := fun buffer position =>
      if buffer = view.buffer ∧ view.start ≤ position then
        values[position - view.start]?.getD (m.cells buffer position)
      else m.cells buffer position }

/-- Values written over the entries at the front of an array, if it may be written. -/
def write (m : Memory ι α) (array : ι) (values : Array α) : Except (Fault α) (Memory ι α) :=
  if (m.views array).isWritable then .ok (m.overwrite array values) else .error .readOnly

end Memory

end Leapfrog
