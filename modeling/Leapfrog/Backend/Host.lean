import Leapfrog.Backend.Basic

/-!
# The step as a loop

The host visits one atom after the other and, within an atom, one axis after the other, and writes
every new component over the old one at once. A snapshot of the old velocity is taken when an atom
is reached, so that a coupling of the axes reads old components only. The factor of an atom is looked
up when the atom is reached, and the loop stops where there is none.
-/

namespace Leapfrog.Host

variable {α : Type} [Add α] [Sub α] [Mul α]

/-- What the step needs to know besides the atoms. -/
structure Drive (α : Type) where
  timestep : α
  matrix? : Option (Mat3 α)

/-- The new velocity along an axis. -/
def velocityAlong (d : Drive α) (scaling : α) (a : Atom α) (old : Vec3 α) (axis : Axis) : α :=
  let free := scaling * old.get axis + a.force.get axis * a.inverseMassPerAxis.get axis * d.timestep
  match d.matrix? with
  | none => free
  | some matrix => free - d.timestep * (matrix.row axis).dot old

/-- One axis of one atom: the new velocity is written first, and the position moves with it. -/
def visitAxis (d : Drive α) (scaling : α) (old : Vec3 α) (a : Atom α) (axis : Axis) : Atom α :=
  let new := velocityAlong d scaling a old axis
  { a with
    velocity := a.velocity.set axis new
    position := a.position.set axis (a.position.get axis + new * d.timestep) }

/-- All axes of one atom in order. -/
def visitAtom (d : Drive α) (scaling : α) (a : Atom α) : Atom α :=
  Axis.all.foldl (visitAxis d scaling a.velocity) a

/-- The atom at a position visited, by the factor at that position. -/
def visit (d : Drive α) (scaling : Array α) (atoms : Array (Atom α)) (i : Nat) :
    Except (Fault α) (Array (Atom α)) :=
  match scaling[i]? with
  | some factor => .ok (atoms.modify i (visitAtom d factor))
  | none => .error .unknownSlot

/-- All atoms in order. -/
def sweep (d : Drive α) (scaling : Array α) (atoms : Array (Atom α)) :
    Except (Fault α) (Array (Atom α)) :=
  (List.range atoms.size).foldlM (visit d scaling) atoms

/-- A number of sweeps. -/
def sweeps (d : Drive α) (scaling : Array α) :
    Nat → Array (Atom α) → Except (Fault α) (Array (Atom α))
  | 0, atoms => .ok atoms
  | n + 1, atoms => do sweeps d scaling n (← sweep d scaling atoms)

/-- The atoms after a number of steps. They are worked on outside the simulation, which is left as it
was where the loop stops. What comes of them in memory is a matter of `State.store`. -/
def integrate (s : Simulation α) (n : Nat) : Outcome α :=
  .ofExcept s do
    let scaling ← s.groupScaling
    let matrix? ← s.activeScaling?
    return { s with atoms := ← sweeps ⟨s.timestep, matrix?⟩ scaling n s.atoms }

end Leapfrog.Host

namespace Leapfrog

/-- The backend that every other one is compared with. -/
def Backend.host {α : Type} [Add α] [Sub α] [Mul α] : Backend α := ⟨"host", .host, Host.integrate⟩

end Leapfrog
