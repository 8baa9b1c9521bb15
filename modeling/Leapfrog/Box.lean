import Leapfrog.Elimination
import Leapfrog.Limits

/-!
# Periodic boxes

A box is spanned by three vectors, the rows of a matrix. The motion never wraps positions, so a box
only has to be well formed.
-/

namespace Leapfrog

/-- The vectors that span a periodic box. -/
structure Box (α : Type) where
  vectors : Mat3 α
  deriving DecidableEq, Repr

namespace Box

section

variable {α : Type} [Scalar α]

/-- A rectangular box with given side lengths. -/
def rectangular (lengths : Vec3 α) : Box α := ⟨.diagonal (Scalar.ofInt 0) lengths⟩

/-- A cubic box. -/
def cubic (length : α) : Box α := rectangular (.replicate length)

/-- The side of the box of a simulation that does not name one. -/
def standardLength : α := Scalar.ofInt 10

/-- A box from an array: three lengths, or three vectors. -/
def ofTensor (t : Tensor α) : Except (Fault α) (Box α) := do
  let t ← Limits.checkedAxes t
  match t.vector?, t.matrix? with
  | some lengths, _ => return rectangular lengths
  | none, some vectors => return ⟨vectors⟩
  | none, none => throw (.boxShape t.shape)

end

/-- The lengths of the three vectors. -/
def lengths (box : Box Float) : List Float :=
  box.vectors.rows.map fun v => (v.dot v).sqrt

/-- How far from zero an entry may lie that counts as zero. -/
def slack : Float := 1e-8

/-- Whether the entries off the diagonal are all close to zero. -/
def isOrthorhombic (box : Box Float) : Bool :=
  let m := box.vectors
  [m.x.y, m.x.z, m.y.x, m.y.z, m.z.x, m.z.y].all fun a => decide (a.abs ≤ slack)

/-- The volume: the determinant of the vectors without its sign. -/
def volume (box : Box Float) : Float :=
  let m := box.vectors
  Elimination.determinant [m.rows.map (·.x), m.rows.map (·.y), m.rows.map (·.z)]

end Box

end Leapfrog
