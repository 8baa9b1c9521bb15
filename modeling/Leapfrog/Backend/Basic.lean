import Leapfrog.Simulation.Outcome

/-!
# Backends

A backend takes a simulation through a number of steps. It may fail, and a failing backend may leave
a changed simulation behind.

`Backend.advance` is what callers use: it checks the count, leaves the simulation alone when there
is nothing to do, and keeps count of steps and time.
-/

namespace Leapfrog

/-- The implementations of the step. -/
inductive Backend.Kind where
  /-- A loop over atoms and axes. -/
  | host
  /-- A kernel on a device. -/
  | device (name : String)
  /-- A stand-in with a known defect. -/
  | standIn
  deriving DecidableEq, Repr

/-- An implementation of the step. -/
structure Backend (α : Type) where
  name : String
  kind : Backend.Kind
  /-- A positive number of steps. -/
  integrate : Simulation α → Nat → Outcome α

namespace Backend

variable {α : Type}

/-- The word for an implementation. -/
def Kind.word : Kind → String
  | host => "HostLeapFrog"
  | device _ => "WarpLeapFrog"
  | standIn => "Double"

/-- A backend as it is shown to a developer. -/
def text (b : Backend α) : String :=
  b.kind.word ++ "(name=" ++ Text.quoted b.name ++ ")"

section

variable [Add α] [Mul α] [Scalar α]

/-- The count of steps and the time after `n` more steps. The time stays as it was if `n` is too
large for a scalar; the steps have been taken all the same. -/
def clock (n : Nat) (s : Simulation α) : Outcome α :=
  let counted := { s with step := s.step + n }
  .ofExcept counted do
    let elapsed ← (Number.whole n).times s.timestep
    return { counted with time := s.time + elapsed }

/-- A simulation advanced by a number of steps. -/
def advance (b : Backend α) (count : Number α) (s : Simulation α) : Outcome α :=
  match count.steps with
  | .error fault => ⟨s, some fault⟩
  | .ok 0 => ⟨s, none⟩
  | .ok n => (b.integrate s n).andThen (clock n)

end

end Backend

end Leapfrog
