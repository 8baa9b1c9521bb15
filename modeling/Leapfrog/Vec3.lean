/-!
# Vectors of three components

Positions, velocities and forces have three components, one for each axis. The operations act
componentwise; the product of a matrix with a vector sums every row from left to right, which
matters where sums round.
-/

namespace Leapfrog

/-- The three axes, in the order in which components are visited. -/
inductive Axis where
  | x
  | y
  | z
  deriving DecidableEq, Repr

namespace Axis

/-- All axes in order. -/
def all : List Axis := [.x, .y, .z]

@[simp] theorem mem_all (axis : Axis) : axis ∈ all := by cases axis <;> decide

theorem nodup_all : all.Nodup := by decide

/-- The axis at a position, counted from zero. -/
def ofNat? : Nat → Option Axis
  | 0 => some .x
  | 1 => some .y
  | 2 => some .z
  | _ => none

/-- The letter of an axis. -/
def name : Axis → String
  | .x => "x"
  | .y => "y"
  | .z => "z"

end Axis

/-- A vector. -/
@[ext] structure Vec3 (α : Type) where
  x : α
  y : α
  z : α
  deriving DecidableEq, Repr

namespace Vec3

variable {α β : Type}

/-- The vector whose components are all the same. -/
def replicate (a : α) : Vec3 α := ⟨a, a, a⟩

/-- The component along an axis. -/
def get (v : Vec3 α) : Axis → α
  | .x => v.x
  | .y => v.y
  | .z => v.z

/-- The vector with one component replaced. -/
def set (v : Vec3 α) (axis : Axis) (a : α) : Vec3 α :=
  match axis with
  | .x => { v with x := a }
  | .y => { v with y := a }
  | .z => { v with z := a }

/-- The components in the order of the axes. -/
def toList (v : Vec3 α) : List α := [v.x, v.y, v.z]

/-- The vector of exactly three components. -/
def ofList? : List α → Option (Vec3 α)
  | [x, y, z] => some ⟨x, y, z⟩
  | _ => none

/-- A function applied to every component. -/
def map (f : α → β) (v : Vec3 α) : Vec3 β := ⟨f v.x, f v.y, f v.z⟩

instance [Add α] : Add (Vec3 α) := ⟨fun v w => ⟨v.x + w.x, v.y + w.y, v.z + w.z⟩⟩

instance [Sub α] : Sub (Vec3 α) := ⟨fun v w => ⟨v.x - w.x, v.y - w.y, v.z - w.z⟩⟩

/-- The componentwise product. -/
def mul [Mul α] (v w : Vec3 α) : Vec3 α := ⟨v.x * w.x, v.y * w.y, v.z * w.z⟩

/-- A scalar times a vector. -/
def scale [Mul α] (a : α) (v : Vec3 α) : Vec3 α := v.map (a * ·)

/-- A vector times a scalar. -/
def times [Mul α] (v : Vec3 α) (a : α) : Vec3 α := v.map (· * a)

/-- The sum of the products of the components, from left to right. -/
def dot [Add α] [Mul α] (v w : Vec3 α) : α := v.x * w.x + v.y * w.y + v.z * w.z

@[simp] theorem get_set_self (v : Vec3 α) (axis : Axis) (a : α) : (v.set axis a).get axis = a := by
  cases axis <;> rfl

theorem get_set_of_ne (v : Vec3 α) {axis other : Axis} (a : α) (h : axis ≠ other) :
    (v.set axis a).get other = v.get other := by
  cases axis <;> cases other <;> simp_all [set, get]

@[simp] theorem ofList?_toList (v : Vec3 α) : ofList? v.toList = some v := rfl

/-- Vectors with the same components are equal. -/
theorem ext_get {v w : Vec3 α} (h : ∀ axis, v.get axis = w.get axis) : v = w :=
  Vec3.ext (h .x) (h .y) (h .z)

@[simp] theorem get_add [Add α] (v w : Vec3 α) (axis : Axis) :
    (v + w).get axis = v.get axis + w.get axis := by
  cases axis <;> rfl

@[simp] theorem get_sub [Sub α] (v w : Vec3 α) (axis : Axis) :
    (v - w).get axis = v.get axis - w.get axis := by
  cases axis <;> rfl

@[simp] theorem get_mul [Mul α] (v w : Vec3 α) (axis : Axis) :
    (v.mul w).get axis = v.get axis * w.get axis := by
  cases axis <;> rfl

@[simp] theorem get_scale [Mul α] (a : α) (v : Vec3 α) (axis : Axis) :
    (v.scale a).get axis = a * v.get axis := by
  cases axis <;> rfl

@[simp] theorem get_times [Mul α] (v : Vec3 α) (a : α) (axis : Axis) :
    (v.times a).get axis = v.get axis * a := by
  cases axis <;> rfl

end Vec3

/-- A matrix of three rows. -/
@[ext] structure Mat3 (α : Type) where
  x : Vec3 α
  y : Vec3 α
  z : Vec3 α
  deriving DecidableEq, Repr

namespace Mat3

variable {α : Type}

/-- The row that belongs to an axis. -/
def row (m : Mat3 α) : Axis → Vec3 α
  | .x => m.x
  | .y => m.y
  | .z => m.z

/-- The rows in the order of the axes. -/
def rows (m : Mat3 α) : List (Vec3 α) := [m.x, m.y, m.z]

/-- The matrix whose entries are all the same. -/
def replicate (a : α) : Mat3 α := ⟨.replicate a, .replicate a, .replicate a⟩

/-- The matrix with a given diagonal and `zero` everywhere else. -/
def diagonal (zero : α) (d : Vec3 α) : Mat3 α :=
  ⟨⟨d.x, zero, zero⟩, ⟨zero, d.y, zero⟩, ⟨zero, zero, d.z⟩⟩

/-- The matrix times a vector. -/
def mulVec [Add α] [Mul α] (m : Mat3 α) (v : Vec3 α) : Vec3 α :=
  ⟨m.x.dot v, m.y.dot v, m.z.dot v⟩

@[simp] theorem get_mulVec [Add α] [Mul α] (m : Mat3 α) (v : Vec3 α) (axis : Axis) :
    (m.mulVec v).get axis = (m.row axis).dot v := by
  cases axis <;> rfl

end Mat3

end Leapfrog
