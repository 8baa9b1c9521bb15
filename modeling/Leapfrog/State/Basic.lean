import Leapfrog.Backend.Basic
import Leapfrog.Simulation.Checked
import Leapfrog.State.Memory

/-!
# States

A `State` is a simulation in memory. Its numbers are read through arrays, and nothing keeps these from
looking into the same buffer: a state whose positions are also its start positions moves both. An
advance reads everything first and writes positions and velocities at the end, so what is shared shows
up only in what is read later, and an array that must not be written stops the advance halfway.

`State.load` is the simulation that is read from a state. A backend works on that, and everything that
is known about simulations is about states whose positions and velocities are their own.
-/

namespace Leapfrog

/-- The arrays of numbers that a state has. -/
inductive Slot where
  | column (c : Arrays.Column)
  | inverseMasses
  | velocityScaling
  deriving DecidableEq, Repr

/-- All slots. -/
def Slot.all : List Slot :=
  [.column .startPositions, .column .positions, .column .startVelocities, .column .velocities,
    .column .forces, .column .inverseMassesPerAxis, .inverseMasses, .velocityScaling]

/-- The arrays that there are: those that were there before a state, and one more for each slot. The
buffers have the same names. -/
inductive Storage where
  | outside (n : Nat)
  | own (slot : Slot)
  deriving DecidableEq, Repr

/-- A simulation in memory. -/
structure State (α : Type) where
  memory : Memory Storage α
  /-- The array in each slot. -/
  arrays : Slot → Storage
  /-- How many atoms there are. -/
  size : Nat
  scalingShape : List Nat
  timestep : α
  box : Box α
  thermostat : Thermostat
  barostat : Barostat
  couplings : List α
  groups : Array Int
  scratch : Scratch
  step : Nat
  time : α

/-- What is left of a state, and the fault that stopped its change, if any. -/
structure State.Outcome (α : Type) where
  state : State α
  fault? : Option (Fault α)

/-- The components of a column, one atom after the other. -/
def Simulation.columnEntries {α : Type} (s : Simulation α) (c : Arrays.Column) : Array α :=
  ((s.atoms.toList.map fun a => a.column c).flatMap Vec3.toList).toArray

namespace State

variable {α : Type}

/-- A second change, made unless there was a fault. -/
def Outcome.andThen (o : Outcome α) (next : State α → Outcome α) : Outcome α :=
  match o.fault? with
  | none => next o.state
  | some _ => o

/-- How many entries there are in a slot. -/
def length (s : State α) : Slot → Nat
  | .column _ => s.size * 3
  | .inverseMasses => s.size
  | .velocityScaling => s.scalingShape.foldr (· * ·) 1

/-- An entry of the array in a slot. -/
def entry (s : State α) (slot : Slot) (k : Nat) : α := s.memory.entry (s.arrays slot) k

/-- The vector of an atom in a column. -/
def vector (s : State α) (c : Arrays.Column) (atom : Nat) : Vec3 α :=
  ⟨s.entry (.column c) (atom * 3), s.entry (.column c) (atom * 3 + 1),
    s.entry (.column c) (atom * 3 + 2)⟩

/-- An atom. -/
def atom (s : State α) (i : Nat) : Atom α where
  startPosition := s.vector .startPositions i
  position := s.vector .positions i
  startVelocity := s.vector .startVelocities i
  velocity := s.vector .velocities i
  force := s.vector .forces i
  inverseMass := s.entry .inverseMasses i
  inverseMassPerAxis := s.vector .inverseMassesPerAxis i

/-- The velocity scaling. -/
def scaling (s : State α) : Tensor α :=
  ⟨s.scalingShape, s.memory.entries (s.arrays .velocityScaling) (s.length .velocityScaling),
    by simp [Memory.entries, length]⟩

/-- The simulation that is read from a state. -/
def load (s : State α) : Simulation α where
  atoms := Array.ofFn fun i : Fin s.size => s.atom i
  timestep := s.timestep
  box := s.box
  velocityScaling := s.scaling
  thermostat := s.thermostat
  barostat := s.barostat
  couplings := s.couplings
  groups := s.groups
  scratch := s.scratch
  step := s.step
  time := s.time

/-- A column of a simulation written over the one of a state. -/
def write (c : Arrays.Column) (after : Simulation α) (s : State α) : Outcome α :=
  match s.memory.write (s.arrays (.column c)) (after.columnEntries c) with
  | .ok memory => ⟨{ s with memory }, none⟩
  | .error fault => ⟨s, some fault⟩

/-- The positions and then the velocities of a simulation written over those of a state. -/
def store (after : Simulation α) (s : State α) : Outcome α :=
  (s.write .positions after).andThen (write .velocities after)

/-- A deep copy. Its arrays look into buffers of their own, but what was one and the same array is still
one. -/
def copy (s : State α) : State α := { s with memory := s.memory.copy }

/-- The steps of a backend, stored. A backend that fails has not written anything. -/
def integrate (b : Backend α) (n : Nat) (s : State α) : Outcome α :=
  match (b.integrate s.load n).toExcept with
  | .error fault => ⟨s, some fault⟩
  | .ok after => s.store after

section

variable [Add α] [Mul α] [Scalar α]

/-- The count of steps and the time after `n` more steps. -/
def clock (n : Nat) (s : State α) : Outcome α :=
  let o := Backend.clock n s.load
  ⟨{ s with step := o.simulation.step, time := o.simulation.time }, o.fault?⟩

/-- A state advanced by a number of steps. -/
def advance (b : Backend α) (count : Number α) (s : State α) : Outcome α :=
  match count.steps with
  | .error fault => ⟨s, some fault⟩
  | .ok 0 => ⟨s, none⟩
  | .ok n => (s.integrate b n).andThen (clock n)

end

end State

end Leapfrog
