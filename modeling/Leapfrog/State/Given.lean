import Leapfrog.State.Basic

/-!
# States from what is given

The arrays of a state are given as numbers, which are copied into new arrays, or as arrays of scalars
without gaps, which are kept. An array that is kept may be given for several slots, may look into the
same buffer as another one, and may be one that must not be written: it is only asked what is in it.

An array with gaps is copied like numbers are. The velocity scaling is kept even then, but it is never
written, so that it makes no difference unless it shares its buffer with positions or velocities.
-/

namespace Leapfrog

/-- An array as it is given. -/
inductive Given (α : Type) where
  /-- Numbers that are copied into an array. -/
  | numbers (t : Tensor α)
  /-- An array that is there already and is kept. -/
  | array (shape : List Nat) (n : Nat)

/-- What a state is made from. -/
structure Supplies (α : Type) where
  given : Slot → Given α
  timestep : Number α
  box : Box α
  thermostat : Thermostat
  barostat : Barostat
  couplings : List α
  groups? : Option (Tensor (Number α))

/-- The numbers of an array as it is given. -/
def Given.read {α : Type} (outside : Memory Nat α) : Given α → Tensor α
  | .numbers t => t
  | .array shape n => ⟨shape, outside.entries n (shape.foldr (· * ·) 1), by simp [Memory.entries]⟩

namespace Supplies

variable {α : Type}

/-- The numbers of all arrays. -/
def read (outside : Memory Nat α) (supplies : Supplies α) : Arrays α :=
  let numbers (slot : Slot) := (supplies.given slot).read outside
  { startPositions := numbers (.column .startPositions)
    positions := numbers (.column .positions)
    startVelocities := numbers (.column .startVelocities)
    velocities := numbers (.column .velocities)
    forces := numbers (.column .forces)
    inverseMasses := numbers .inverseMasses
    inverseMassesPerAxis := numbers (.column .inverseMassesPerAxis)
    timestep := supplies.timestep
    box := supplies.box
    velocityScaling := numbers .velocityScaling
    thermostat := supplies.thermostat
    barostat := supplies.barostat
    couplings := supplies.couplings
    groups? := supplies.groups? }

/-- The array that a slot gets. -/
def storage (supplies : Supplies α) (slot : Slot) : Storage :=
  match supplies.given slot with
  | .numbers _ => .own slot
  | .array _ n => .outside n

/-- Arrays that are all given as numbers. -/
def ofArrays (a : Arrays α) : Supplies α where
  given
    | .column c => .numbers (a.column c)
    | .inverseMasses => .numbers a.inverseMasses
    | .velocityScaling => .numbers a.velocityScaling
  timestep := a.timestep
  box := a.box
  thermostat := a.thermostat
  barostat := a.barostat
  couplings := a.couplings
  groups? := a.groups?

end Supplies

namespace Memory

variable {α : Type} [Scalar α]

/-- Memory without anything in it. -/
def blank : Memory Nat α := ⟨fun _ _ => Scalar.ofInt 0, fun n => ⟨n, 0, true⟩⟩

/-- The memory in which there are new arrays of some values besides those that were there before. -/
def extend (outside : Memory Nat α) (values : Slot → Array α) : Memory Storage α :=
  let buffers := Slot.all.map fun slot => (slot, values slot)
  { cells
      | .outside n, k => outside.cells n k
      | .own slot, k => ((buffers.lookup slot).bind (·[k]?)).getD (Scalar.ofInt 0)
    views
      | .outside n => ⟨.outside (outside.views n).buffer, (outside.views n).start,
          (outside.views n).isWritable⟩
      | .own slot => ⟨.own slot, 0, true⟩ }

end Memory

namespace State

variable {α : Type}

/-- The state that has the size and the settings of a simulation, with its numbers in memory. -/
def within (memory : Memory Storage α) (arrays : Slot → Storage) (s : Simulation α) : State α where
  memory := memory
  arrays := arrays
  size := s.atoms.size
  scalingShape := s.velocityScaling.shape
  timestep := s.timestep
  box := s.box
  thermostat := s.thermostat
  barostat := s.barostat
  couplings := s.couplings
  groups := s.groups
  scratch := s.scratch
  step := s.step
  time := s.time

variable [Scalar α]

/-- The state that is made from what is given, if the numbers describe a simulation. -/
def make (outside : Memory Nat α) (supplies : Supplies α) : Except (Fault α) (State α) := do
  let values := fun slot => ((supplies.given slot).read outside).entries.toArray
  return within (outside.extend values) supplies.storage
    (← Simulation.ofArrays (supplies.read outside))

/-- A simulation in memory of its own. -/
def own (s : Simulation α) : State α :=
  let values := fun
    | .column c => s.columnEntries c
    | .inverseMasses => s.atoms.map Atom.inverseMass
    | .velocityScaling => s.velocityScaling.entries.toArray
  within (Memory.blank.extend values) .own s

end State

end Leapfrog
