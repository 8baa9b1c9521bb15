import Leapfrog.Simulation.Basic

/-!
# Valid simulations

`Simulation.ofArrays` accepts arrays that describe a simulation and names the first thing wrong with
any others. What it accepts meets `Simulation.IsValid`. It looks at the numbers in the arrays only;
`State.make` keeps the arrays themselves.
-/

namespace Leapfrog

/-- The arrays that describe a simulation. -/
structure Arrays (α : Type) where
  startPositions : Tensor α
  positions : Tensor α
  startVelocities : Tensor α
  velocities : Tensor α
  forces : Tensor α
  inverseMasses : Tensor α
  inverseMassesPerAxis : Tensor α
  timestep : Number α
  box : Box α
  velocityScaling : Tensor α
  thermostat : Thermostat
  barostat : Barostat
  couplings : List α
  /-- The group of every atom; without it all atoms are in the first group. -/
  groups? : Option (Tensor (Number α))

namespace Arrays

/-- The arrays with one vector for each atom. -/
inductive Column where
  | startPositions
  | positions
  | startVelocities
  | velocities
  | forces
  | inverseMassesPerAxis
  deriving DecidableEq, Repr

/-- The name of a column in a refusal. -/
def Column.name : Column → String
  | startPositions => "x0"
  | positions => "x"
  | startVelocities => "v0"
  | velocities => "v"
  | forces => "f"
  | inverseMassesPerAxis => "inverse_masses_per_dim"

variable {α : Type}

/-- The array that is given for a column. -/
def column (a : Arrays α) : Column → Tensor α
  | .startPositions => a.startPositions
  | .positions => a.positions
  | .startVelocities => a.startVelocities
  | .velocities => a.velocities
  | .forces => a.forces
  | .inverseMassesPerAxis => a.inverseMassesPerAxis

variable [Scalar α]

/-- An array of one vector for each atom. -/
def vectors (name : String) (atoms : Nat) (t : Tensor α) : Except (Fault α) (List (Vec3 α)) := do
  let t := (← Limits.checkedAxes t).withAxis
  match t.vectors? atoms with
  | some vectors => return vectors
  | none => throw (.arrayShape name t.shape atoms)

/-- The inverse masses: at least one, all of them finite and above zero. -/
def checkedMasses (t : Tensor α) : Except (Fault α) (List α) := do
  let t := (← Limits.checkedAxes t).withAxis
  unless t.shape.length = 1 do throw (.massShape t.shape)
  if t.entries.isEmpty then throw .noAtoms
  unless t.entries.all Scalar.isPositive do throw .massRange
  return t.entries

/-- The matrix of a Parrinello-Rahman barostat. -/
def checkedMatrix (t : Tensor α) : Except (Fault α) (Tensor α) := do
  let t ← Limits.checkedAxes t
  unless t.shape = [3, 3] do throw (.matrixShape t.shape)
  return t

/-- The groups of all atoms, each of them in a table of `groups`. That they fit into 32 bits is
checked first. -/
def checkedGroups (atoms groups : Nat) (t? : Option (Tensor (Number α))) :
    Except (Fault α) (List Int) := do
  let t := (← Limits.checkedAxes (t?.getD (.row (List.replicate atoms (.whole 0))))).withAxis
  let entries ← t.entries.mapM Simulation.groupOf
  unless t.shape = [atoms] do throw (.arrayShape "group_indices" t.shape atoms)
  unless entries.all fun g => decide (0 ≤ g ∧ g < groups) do throw .missingGroup
  return entries

end Arrays

/-- The vector of an atom in a column. -/
def Atom.column {α : Type} (a : Atom α) : Arrays.Column → Vec3 α
  | .startPositions => a.startPosition
  | .positions => a.position
  | .startVelocities => a.startVelocity
  | .velocities => a.velocity
  | .forces => a.force
  | .inverseMassesPerAxis => a.inverseMassPerAxis

namespace Simulation

variable {α : Type} [Scalar α]

/-- The atoms of columns of equal length. -/
def zipAtoms : List (Vec3 α) → List (Vec3 α) → List (Vec3 α) → List (Vec3 α) → List (Vec3 α) →
    List α → List (Vec3 α) → List (Atom α)
  | x0 :: x0s, x :: xs, v0 :: v0s, v :: vs, f :: fs, m :: ms, ma :: mas =>
    ⟨x0, x, v0, v, f, m, ma⟩ :: zipAtoms x0s xs v0s vs fs ms mas
  | _, _, _, _, _, _, _ => []

/-- The simulation that arrays describe. -/
def ofArrays (a : Arrays α) : Except (Fault α) (Simulation α) := do
  let masses ← Arrays.checkedMasses a.inverseMasses
  let n := masses.length
  let ⟨timestep, _⟩ ← a.timestep.timestep
  let x0 ← Arrays.vectors "x0" n a.startPositions
  let x ← Arrays.vectors "x" n a.positions
  let v0 ← Arrays.vectors "v0" n a.startVelocities
  let v ← Arrays.vectors "v" n a.velocities
  let f ← Arrays.vectors "f" n a.forces
  let perAxis ← Arrays.vectors "inverse_masses_per_dim" n a.inverseMassesPerAxis
  let matrix ← Arrays.checkedMatrix a.velocityScaling
  let groups ← Arrays.checkedGroups n a.couplings.length a.groups?
  return {
    atoms := (zipAtoms x0 x v0 v f masses perAxis).toArray
    timestep, box := a.box, velocityScaling := matrix
    thermostat := a.thermostat, barostat := a.barostat
    couplings := a.couplings, groups := groups.toArray, scratch := .single
    step := 0, time := Scalar.ofInt 0 }

/-- What is true of every simulation that was accepted and of every simulation it moves to. -/
structure IsValid (s : Simulation α) : Prop where
  atoms_pos : 0 < s.atoms.size
  timestep_positive : Scalar.isPositive s.timestep = true
  mass_positive : ∀ a ∈ s.atoms, Scalar.isPositive a.inverseMass = true
  matrix_shape : s.velocityScaling.shape = [3, 3]
  group_count : s.groups.size = s.atoms.size
  group_present : ∀ g ∈ s.groups, 0 ≤ g ∧ g < s.couplings.length

end Simulation

end Leapfrog
