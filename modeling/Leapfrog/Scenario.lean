import Leapfrog.Reference
import Leapfrog.Tolerance
import Leapfrog.Mismatch
import Leapfrog.Simulation.Synthetic
import Leapfrog.Backend.Basic

/-!
# Scenarios

A scenario is a synthetic simulation and a number of steps. Running it on a backend compares every
component of the outcome with the reference; a component outside the tolerance is recorded and
stops nothing.
-/

namespace Leapfrog

/-- What is simulated: the number of atoms, how they start, and for how long. -/
structure Scenario (α : Type) [Scalar α] where
  atoms : Nat
  timestep : α
  velocity : Vec3 α
  force : Vec3 α
  steps : Nat
  atoms_pos : 0 < atoms
  timestep_positive : Scalar.isPositive timestep = true
  deriving DecidableEq, Repr

namespace Scenario

section

variable {α : Type} [Scalar α]

/-- A vector of three components. -/
def vector (name : String) (components : List α) : Except (Fault α) (Vec3 α) :=
  match Vec3.ofList? components with
  | some v => .ok v
  | none => .error (.componentCount name components.length)

/-- A scenario from numbers that have not been checked. -/
def make (atoms timestep : Number α) (velocity force : List α) (steps : Number α) :
    Except (Fault α) (Scenario α) := do
  let ⟨n, n_pos⟩ ← atoms.atoms
  let ⟨timestep, positive⟩ ← timestep.timestep
  let k ← steps.steps
  let velocity ← vector "v0" velocity
  let force ← vector "f0" force
  return ⟨n, timestep, velocity, force, k, n_pos, positive⟩

variable [Machine] [Add α] [Sub α] [Mul α] [Div α]

/-- The time after all steps. -/
def totalTime (s : Scenario α) : Except (Fault α) α := (Number.whole s.steps).times s.timestep

/-- A fresh simulation of a scenario. -/
def simulation (s : Scenario α) : Except (Fault α) (Simulation α) :=
  Synthetic.fresh s.atoms s.timestep s.velocity s.force

end

/-- The text that describes a scenario on a backend, in one line. -/
def description (s : Scenario Float) (backend : String) : String :=
  "Testing " ++ backend ++ " with " ++ Decimal.whole s.atoms ++ " atoms for " ++
    Decimal.whole s.steps ++ " timestep (dt = " ++ Decimal.fixed 6 s.timestep ++ ", v0=" ++
    triple s.velocity ++ ", f0=" ++ triple s.force ++ ")"
where
  /-- Three numbers between parentheses. -/
  triple (v : Vec3 Float) : String :=
    "(" ++ ", ".intercalate (v.toList.map (Decimal.fixed 6)) ++ ")"

/-- The description of a scenario on a backend, if its whole numbers are short enough to be
written. -/
def describe (s : Scenario Float) (backend : String) : Except (Fault Float) String := do
  Limits.checkAllDigits [s.atoms, s.steps]
  return s.description backend

end Scenario

/-- What became of a scenario on a backend. -/
structure Result (α : Type) [Scalar α] where
  backend : String
  scenario : Scenario α
  /-- How many components were compared. -/
  checks : Int
  mismatches : List (Mismatch α)
  deriving DecidableEq, Repr

namespace Result

variable {α : Type} [Scalar α]

/-- Whether all components were within the tolerance. -/
def passed (r : Result α) : Bool := r.mismatches.isEmpty

end Result

section

variable {α : Type} [Add α] [Sub α] [Mul α] [Div α] [Scalar α]

/-- The mismatches of a simulation that has taken a number of steps: first those of positions, then
those of velocities. -/
def Simulation.check (s : Simulation α) (steps : Number α) (tolerance : Tolerance α) :
    Except (Fault α) (List (Mismatch α)) := do
  let reference ← Reference.ofSimulation s steps
  let bound ← tolerance.bound steps
  return Mismatch.ofVectors .position bound s.positions reference.positions ++
    Mismatch.ofVectors .velocity bound s.velocities reference.velocities

/-- A scenario run on a backend, from a fresh simulation. -/
def Scenario.run [Machine] (backend : Backend α) (tolerance : Tolerance α) (s : Scenario α) :
    Except (Fault α) (Result α) := do
  let steps := Number.whole s.steps
  let simulation ← (backend.advance steps (← s.simulation)).toExcept
  let mismatches ← simulation.check steps tolerance
  return ⟨backend.name, s, 2 * 3 * simulation.atoms.size, mismatches⟩

end

end Leapfrog
