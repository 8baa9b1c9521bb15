import Leapfrog.Backend.Device
import Leapfrog.Backend.Host
import Mathlib.Data.List.Nodup

/-!
# One step of one atom

The loop writes one component after the other over the old ones, the kernel writes whole vectors.
Both are the same simultaneous update: the loop takes old velocities from a snapshot, so a component
that has been written is never read again, and the order of the axes does not matter.

No law of arithmetic is used. Sums and products may round, and need not be associative.
-/

namespace Leapfrog

open Host (Drive)

variable {α : Type} [Add α] [Sub α] [Mul α]

/-- An atom that is another one at some other position with some other velocity. -/
def Atom.Moved {α : Type} (a b : Atom α) : Prop :=
  b = { a with position := b.position, velocity := b.velocity }

/-- Moving twice is moving. -/
theorem Atom.Moved.trans {α : Type} {a b c : Atom α} (hab : a.Moved b) (hbc : b.Moved c) :
    a.Moved c := by
  unfold Atom.Moved at hab hbc ⊢
  rw [hbc, hab]

/-- The velocity of an atom after one step, all components at once. -/
def Atom.nextVelocity (d : Drive α) (scaling : α) (a : Atom α) : Vec3 α :=
  let free := a.velocity.scale scaling + (a.force.mul a.inverseMassPerAxis).times d.timestep
  match d.matrix? with
  | none => free
  | some matrix => free - (matrix.mulVec a.velocity).scale d.timestep

/-- An atom after one step. The position moves with the new velocity. -/
def Atom.next (d : Drive α) (scaling : α) (a : Atom α) : Atom α :=
  { a with
    velocity := a.nextVelocity d scaling
    position := a.position + (a.nextVelocity d scaling).times d.timestep }

/-- A step moves an atom and changes nothing else about it. -/
theorem Atom.moved_next (d : Drive α) (scaling : α) (a : Atom α) : a.Moved (a.next d scaling) := rfl

namespace Host

variable (d : Drive α) (scaling : α)

/-- A component that is computed from the snapshot is one of the simultaneous update. -/
theorem velocityAlong_eq (a : Atom α) (axis : Axis) :
    velocityAlong d scaling a a.velocity axis = (a.nextVelocity d scaling).get axis := by
  cases h : d.matrix? <;> simp [velocityAlong, Atom.nextVelocity, h]

/-- A new component depends on the snapshot and not on where the atom has been moved since. -/
theorem velocityAlong_of_moved {a b : Atom α} (h : a.Moved b) (old : Vec3 α) (axis : Axis) :
    velocityAlong d scaling b old axis = velocityAlong d scaling a old axis := by
  unfold velocityAlong
  rw [h]

/-- Axes visited in any order get their new components, and the other axes keep their old ones. -/
theorem foldl_visitAxis (old : Vec3 α) (axes : List Axis) (a : Atom α) (hnodup : axes.Nodup) :
    a.Moved (axes.foldl (visitAxis d scaling old) a) ∧
      ∀ axis,
        (axes.foldl (visitAxis d scaling old) a).velocity.get axis =
          (if axis ∈ axes then velocityAlong d scaling a old axis else a.velocity.get axis) ∧
        (axes.foldl (visitAxis d scaling old) a).position.get axis =
          (if axis ∈ axes then
            a.position.get axis + velocityAlong d scaling a old axis * d.timestep
          else a.position.get axis) := by
  induction axes generalizing a with
  | nil => exact ⟨rfl, fun _ => ⟨rfl, rfl⟩⟩
  | cons first rest ih =>
    obtain ⟨hfirst, hrest⟩ := List.nodup_cons.mp hnodup
    have hmoved : a.Moved (visitAxis d scaling old a first) := rfl
    obtain ⟨htail, hget⟩ := ih (visitAxis d scaling old a first) hrest
    rw [List.foldl_cons]
    refine ⟨hmoved.trans htail, fun axis => ?_⟩
    obtain ⟨hv, hx⟩ := hget axis
    rw [hv, hx, velocityAlong_of_moved d scaling hmoved]
    by_cases haxis : axis = first
    · subst haxis
      simp [hfirst, visitAxis]
    · have hne : first ≠ axis := fun h => haxis h.symm
      simp [haxis, visitAxis, Vec3.get_set_of_ne _ _ hne]

/-- The loop over the axes is the simultaneous update. -/
theorem visitAtom_eq_next (a : Atom α) : visitAtom d scaling a = a.next d scaling := by
  obtain ⟨hmoved, hget⟩ := foldl_visitAxis d scaling a.velocity Axis.all a Axis.nodup_all
  have hv : (visitAtom d scaling a).velocity = a.nextVelocity d scaling := by
    apply Vec3.ext_get
    intro axis
    rw [visitAtom, (hget axis).1, if_pos (Axis.mem_all axis), velocityAlong_eq]
  have hx : (visitAtom d scaling a).position =
      a.position + (a.nextVelocity d scaling).times d.timestep := by
    apply Vec3.ext_get
    intro axis
    rw [visitAtom, (hget axis).2, if_pos (Axis.mem_all axis), velocityAlong_eq, Vec3.get_add,
      Vec3.get_times]
  have hframe : visitAtom d scaling a = { a with
      position := (visitAtom d scaling a).position
      velocity := (visitAtom d scaling a).velocity } := hmoved
  rw [hframe, hv, hx]
  rfl

end Host

end Leapfrog
