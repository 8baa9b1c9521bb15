import Leapfrog.Simulation.Basic

/-!
# Synthetic simulations

A synthetic simulation of any size has atoms with varied positions and masses that all start with
the same velocity under the same force. Positions repeat along x and y with coprime periods and lie
in a plane; masses repeat with a period of their own.

`Synthetic.simulation` is the simulation itself, for any number of atoms. `Synthetic.fresh` builds
it where its arrays are within their limits.
-/

namespace Leapfrog.Synthetic

/-- How many positions there are along x. -/
def columns : Nat := 21

/-- How many positions there are along y. -/
def rows : Nat := 13

/-- The masses are the whole numbers from one up to this one. -/
def masses : Nat := 100

variable {α : Type} [Add α] [Sub α] [Mul α] [Div α] [Scalar α]

/-- The position of an atom. -/
def position (i : Nat) : Vec3 α :=
  ⟨Scalar.ofInt (i % columns : Nat),
   Scalar.ofInt rows / Scalar.ofInt 2 - Scalar.ofInt (i % rows : Nat),
   Scalar.ofInt 0⟩

/-- The inverse mass of an atom. -/
def inverseMass (i : Nat) : α := Scalar.ofInt 1 / Scalar.ofInt (1 + i % masses : Nat)

/-- The positions of a number of atoms, which may not be negative. -/
def positions [Machine] (n : Int) : Except (Fault α) (List (Vec3 α)) := do
  let _ ← Limits.range .whole n
  Limits.array [n, 3]
  return (List.range n.toNat).map position

/-- The inverse masses of a number of atoms, none at all for a negative number. -/
def inverseMasses [Machine] (n : Int) : Except (Fault α) (List α) := do
  return (List.range (← Limits.range .whole n)).map inverseMass

/-- The positions for a count as it is given, which must be a whole number. -/
def positionsFor [Machine] : Number Float → Except (Fault Float) (List (Vec3 Float))
  | .whole n => positions n
  | .scalar x => do
    let _ ← Limits.range .scalar (← Limits.rangeEnd x)
    throw .lengthForm

/-- The inverse masses for a count as it is given; a fraction is rounded up. -/
def inverseMassesFor [Machine] : Number Float → Except (Fault Float) (List Float)
  | .whole n => inverseMasses n
  | .scalar x => do
    return (List.range (← Limits.range .scalar (← Limits.rangeEnd x))).map inverseMass

/-- An atom with a given velocity and force. -/
def atom (velocity force : Vec3 α) (i : Nat) : Atom α where
  startPosition := position i
  position := position i
  startVelocity := velocity
  velocity := velocity
  force := force
  inverseMass := inverseMass i
  inverseMassPerAxis := .replicate (inverseMass i)

/-- The simulation of `n` atoms before the first step. -/
def simulation (n : Nat) (timestep : α) (velocity force : Vec3 α) : Simulation α where
  atoms := Array.ofFn fun i : Fin n => atom velocity force i
  timestep := timestep
  box := .cubic Box.standardLength
  velocityScaling := Simulation.standardScaling
  thermostat := .none
  barostat := .none
  couplings := [Scalar.ofInt 1]
  groups := .replicate n 0
  scratch := .single
  step := 0
  time := Scalar.ofInt 0

/-- Whether the arrays of a simulation of `n` atoms are within their limits. -/
def checkSize [Machine] (n : Nat) : Except (Fault α) Unit := do
  let _ ← Limits.range .whole n
  Limits.array [n, 3]

/-- A fresh simulation of `n` atoms, unless there are too many of them. -/
def fresh [Machine] (n : Nat) (timestep : α) (velocity force : Vec3 α) :
    Except (Fault α) (Simulation α) := do
  checkSize n
  return simulation n timestep velocity force

/-- A vector of three components out of an array. -/
def vector (name : String) (t : Tensor α) : Except (Fault α) (Vec3 α) := do
  let t ← Limits.checkedAxes t
  match t.vector? with
  | some v => return v
  | none => throw (.componentShape name t.shape)

/-- A fresh simulation from numbers that have not been checked. -/
def build [Machine] (atoms timestep : Number α) (velocity force : Tensor α) :
    Except (Fault α) (Simulation α) := do
  let ⟨n, _⟩ ← atoms.atoms
  let ⟨timestep, _⟩ ← timestep.timestep
  let velocity ← vector "v0" velocity
  let force ← vector "f0" force
  fresh n timestep velocity force

end Leapfrog.Synthetic
