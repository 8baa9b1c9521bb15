import Leapfrog.Box
import Leapfrog.Coupling
import Leapfrog.Index

/-!
# Simulations of independent atoms

An atom remembers where it started, so that the motion can be compared with its closed form at any
time. The backends read the inverse mass for each axis, the closed form reads the scalar one. The
groups of the atoms are an array of their own. Each of them is an index into the table of coupling
groups; as with any index into a row of values, a negative one counts from the end.

Nothing here checks a simulation, which may be edited into any state: there may be fewer groups than
atoms, a group may be missing from the table, and the velocity scaling may be an array of any shape. A
step finds out when it reads them. The module `Leapfrog.Simulation.Checked` builds the simulations
that are valid.
-/

namespace Leapfrog

/-- One atom. -/
structure Atom (α : Type) where
  startPosition : Vec3 α
  position : Vec3 α
  startVelocity : Vec3 α
  velocity : Vec3 α
  force : Vec3 α
  inverseMass : α
  inverseMassPerAxis : Vec3 α
  deriving DecidableEq, Repr

/-- Atoms that are being integrated, with everything a step reads and a clock. -/
structure Simulation (α : Type) where
  atoms : Array (Atom α)
  timestep : α
  box : Box α
  /-- How a Parrinello-Rahman barostat scales velocities. -/
  velocityScaling : Tensor α
  thermostat : Thermostat
  barostat : Barostat
  /-- The factor by which each coupling group scales its velocities. -/
  couplings : List α
  /-- The coupling groups of the atoms. -/
  groups : Array Int
  scratch : Scratch
  /-- How many steps have been taken. -/
  step : Nat
  /-- The time that has passed. -/
  time : α
  deriving DecidableEq, Repr

namespace Atom

variable {α : Type} [Sub α]

/-- How far an atom has moved. -/
def displacement (a : Atom α) : Vec3 α := a.position - a.startPosition

end Atom

namespace Simulation

variable {α : Type}

/-- The velocity scaling of a simulation that does not name one: the identity. -/
def standardScaling [Scalar α] : Tensor α :=
  .ofMat3 (.diagonal (Scalar.ofInt 0) (.replicate (Scalar.ofInt 1)))

/-- A group that fits into 32 bits. -/
def checkedGroup (group : Int) : Except (Fault α) Int :=
  if !Limits.isMachineInteger group then .error .hugeInteger
  else if -Limits.shortBound ≤ group ∧ group < Limits.shortBound then .ok group
  else .error (.hugeGroup group)

/-- A group is accepted exactly if it fits into 32 bits, and is then left as it is. -/
theorem checkedGroup_eq_ok_iff {given group : Int} :
    checkedGroup (α := α) given = .ok group ↔
      (-(Limits.shortBound : Int) ≤ given ∧ given < Limits.shortBound) ∧ given = group := by
  unfold checkedGroup Limits.isMachineInteger Limits.bound Limits.shortBound
  split
  · next huge =>
    simp only [Bool.not_eq_true', decide_eq_false_iff_not] at huge
    simp only [reduceCtorEq, false_iff]
    omega
  · split
    · next fits => simp only [Except.ok.injEq, fits, true_and, and_self]
    · next misses => simp only [reduceCtorEq, misses, false_and]

/-- A group as it is given. A scalar loses its fraction before it is checked. -/
def groupOf [Scalar α] : Number α → Except (Fault α) Int
  | .whole n => checkedGroup n
  | .scalar x =>
    if Scalar.isNaN x then .error .notANumber
    else if !Scalar.isFinite x then .error .infiniteCount
    else checkedGroup (Scalar.truncate x)

/-- The factor that a coupling group scales velocities by. -/
def scalingOf (s : Simulation α) (group : Int) : Except (Fault α) α := do
  let i ← wrapIndex 0 s.couplings.length group
  match s.couplings[i]? with
  | some factor => return factor
  | none => throw (.outOfBounds group 0 s.couplings.length)

/-- The factors for all groups of atoms. The first group that is missing stops the lookup. -/
def groupScaling (s : Simulation α) : Except (Fault α) (Array α) := s.groups.mapM s.scalingOf

/-- The matrix that a step reads from an array: the first three entries of its first three rows. -/
def leadingMatrix (t : Tensor α) : Except (Fault α) (Mat3 α) :=
  match t.shape with
  | [] => .error .rowForm
  | [size] => .error (if size = 0 then .unknownSlot else .rowForm)
  | [_, _] =>
    match t.rows with
    | (xx :: xy :: xz :: _) :: (yx :: yy :: yz :: _) :: (zx :: zy :: zz :: _) :: _ =>
      .ok ⟨⟨xx, xy, xz⟩, ⟨yx, yy, yz⟩, ⟨zx, zy, zz⟩⟩
    | _ => .error .unknownSlot
  | rows :: columns :: _ => .error (if rows = 0 ∨ columns = 0 then .unknownSlot else .entryForm)

/-- An array made from a matrix holds that matrix. -/
@[simp] theorem leadingMatrix_ofMat3 (m : Mat3 α) : leadingMatrix (.ofMat3 m) = .ok m := rfl

/-- The matrix that a step applies: only a Parrinello-Rahman barostat has one. -/
def activeScaling? (s : Simulation α) : Except (Fault α) (Option (Mat3 α)) :=
  match s.barostat with
  | .parrinelloRahman => (leadingMatrix s.velocityScaling).map some
  | _ => .ok none

/-- The positions of all atoms. -/
def positions (s : Simulation α) : List (Vec3 α) := s.atoms.toList.map Atom.position

/-- The velocities of all atoms. -/
def velocities (s : Simulation α) : List (Vec3 α) := s.atoms.toList.map Atom.velocity

/-- How far all atoms have moved. -/
def displacements [Sub α] (s : Simulation α) : List (Vec3 α) := s.atoms.toList.map Atom.displacement

end Simulation

end Leapfrog
