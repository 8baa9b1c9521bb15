import Leapfrog.Backend.Host
import Leapfrog.Simulation.Edit

/-!
# Stand-in backends

A suite that never fails shows little, so it is also run on backends with a known defect: one that
stops with a failure, one that does nothing, one that adds an error of known size to a component.
-/

namespace Leapfrog

/-- An error added to one component of one atom. None of its numbers is read before it is added. -/
structure Nudge (α : Type) where
  field : Field
  atom : Number α
  axis : Number α
  error : Number α

/-- What a stand-in does. -/
inductive Defect (α : Type) where
  /-- It stops with a failure. -/
  | failure (text : String)
  /-- It takes the steps of the host, or none, and then adds errors. -/
  | drift (moves : Bool) (nudges : List (Nudge α))

namespace Defect

variable {α : Type} [Add α] [Sub α] [Mul α] [Scalar α]

/-- One error added. An atom beyond the last one is passed over. -/
def addError (n : Nudge α) (s : Simulation α) : Outcome α :=
  if n.atom.isBelow s.atoms.size then .ofExcept s (s.addAt n.field n.atom n.axis n.error)
  else ⟨s, none⟩

/-- Errors added one after the other, up to the first that has no place or is no scalar. -/
def addErrors : List (Nudge α) → Simulation α → Outcome α
  | [], s => ⟨s, none⟩
  | n :: rest, s => (addError n s).andThen (addErrors rest)

/-- The steps of a stand-in. -/
def integrate : Defect α → Simulation α → Nat → Outcome α
  | failure text, s, _ => ⟨s, some (.raised text)⟩
  | drift moves nudges, s, n =>
    (if moves then Host.integrate s n else ⟨s, none⟩).andThen (addErrors nudges)

end Defect

/-- A backend with a defect. -/
def Backend.standIn {α : Type} [Add α] [Sub α] [Mul α] [Scalar α] (name : String)
    (defect : Defect α) : Backend α := ⟨name, .standIn, defect.integrate⟩

end Leapfrog
