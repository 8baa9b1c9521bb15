import Leapfrog.Simulation.Basic

/-!
# Motion under a constant force

An atom under a constant force moves along a parabola. `Reference.motion` evaluates it at one time,
and `Reference.ofSimulation` applies it to every atom of a simulation from where the atom started.
Only the start, the force and the scalar inverse mass of an atom are read, never where a backend has
moved it.

The order of the operations is fixed, since doubles round after each of them.
-/

namespace Leapfrog

/-- Where the atoms of a simulation should be. -/
structure Reference (α : Type) where
  positions : List (Vec3 α)
  velocities : List (Vec3 α)
  time : α
  deriving DecidableEq, Repr

namespace Reference

variable {α : Type} [Add α] [Mul α] [Div α] [Scalar α]

/-- The square of a time. A finite time with an infinite square is refused. -/
def square (t : α) : Except (Fault α) α :=
  if Scalar.isFinite t && !Scalar.isFinite (t * t) then .error .timeTooLarge
  else .ok (Scalar.square t)

/-- One component of a position after a time with the given square. -/
def position (start velocity force inverseMass time squared : α) : α :=
  start + velocity * time + Scalar.ofInt 1 / Scalar.ofInt 2 * force * squared * inverseMass

/-- One component of a velocity after a time. -/
def velocity (start force inverseMass time : α) : α := start + force * time * inverseMass

/-- The start of an atom in constant-force motion. -/
structure Start (α : Type) where
  position : Vec3 α
  velocity : Vec3 α
  force : Vec3 α
  inverseMass : α
  deriving DecidableEq, Repr

namespace Start

/-- The position of an atom after a time with the given square. -/
def positionAt (s : Start α) (time squared : α) : Vec3 α :=
  let along (axis : Axis) : α := Reference.position (s.position.get axis) (s.velocity.get axis)
    (s.force.get axis) s.inverseMass time squared
  ⟨along .x, along .y, along .z⟩

/-- The velocity of an atom after a time. -/
def velocityAt (s : Start α) (time : α) : Vec3 α :=
  let along (axis : Axis) : α :=
    Reference.velocity (s.velocity.get axis) (s.force.get axis) s.inverseMass time
  ⟨along .x, along .y, along .z⟩

end Start

/-- How an atom of a simulation started. -/
def Start.ofAtom (a : Atom α) : Start α :=
  ⟨a.startPosition, a.startVelocity, a.force, a.inverseMass⟩

/-- The motion of atoms over a time. -/
def motion (starts : List (Start α)) (time : α) : Except (Fault α) (Reference α) := do
  let squared ← square time
  return ⟨starts.map (·.positionAt time squared), starts.map (·.velocityAt time), time⟩

/-- The motion of atoms with any number of components each, given as one row for each atom: the rows
of positions and those of velocities. The inverse masses must have at least one axis, and there must
be room for another one beside it. -/
def ofRows (positions velocities forces : List (List α)) (inverseMasses : Tensor α) (time : α) :
    Except (Fault α) (List (List α) × List (List α)) := do
  let axes := inverseMasses.shape.length
  if axes = 0 then throw (.tooManyIndices 0 1)
  if Limits.axes ≤ axes then throw (.rankTooLarge (axes + 1) Limits.axes)
  let squared ← square time
  let rows := (positions.zip velocities).zip (forces.zip inverseMasses.entries)
  let move (component : α → α → α → α → α) : List (List α) :=
    rows.map fun ((xs, vs), (fs, m)) =>
      ((xs.zip vs).zip fs).map fun ((x, v), f) => component x v f m
  return (move fun x v f m => position x v f m time squared,
    move fun _ v f m => velocity v f m time)

/-- Where the atoms of a simulation should be after a number of steps. -/
def ofSimulation (s : Simulation α) (steps : Number α) : Except (Fault α) (Reference α) := do
  if steps.isNegative then throw (.negativeSteps steps)
  motion (s.atoms.toList.map Start.ofAtom) (← steps.times s.timestep)

end Reference

end Leapfrog
