import Leapfrog.Scenario

/-!
# Growth of the error

The largest error of a position and of a velocity after every number of steps up to that of a
scenario. Every number of steps starts from a fresh simulation. An error that is not a number is the
largest of all.
-/

namespace Leapfrog

/-- The largest errors after zero steps, one step, and so on. -/
structure ErrorGrowth (α : Type) where
  positions : List α
  velocities : List α
  deriving DecidableEq, Repr

namespace ErrorGrowth

variable {α : Type} [Add α] [Sub α] [Mul α] [Div α] [Scalar α]

/-- The largest distance between corresponding components. -/
def largestError (actual expected : List (Vec3 α)) : α :=
  Scalar.largest (List.zipWith (fun a e => Scalar.abs (a - e))
    (actual.flatMap Vec3.toList) (expected.flatMap Vec3.toList))

/-- The largest errors after `n` steps. -/
def after [Machine] (backend : Backend α) (scenario : Scenario α) (n : Nat) :
    Except (Fault α) (α × α) := do
  let simulation ← (backend.advance (.whole n) (← scenario.simulation)).toExcept
  let reference ← Reference.ofSimulation simulation (.whole n)
  return (largestError simulation.positions reference.positions,
    largestError simulation.velocities reference.velocities)

/-- The growth of the error on a backend. The numbers of steps are a row of indices, which has to be
within its limits. -/
def measure [Machine] (backend : Backend α) (scenario : Scenario α) :
    Except (Fault α) (ErrorGrowth α) := do
  let errors ← (List.range (← Limits.range .whole (scenario.steps + 1))).mapM (after backend scenario)
  return ⟨errors.map Prod.fst, errors.map Prod.snd⟩

end ErrorGrowth

end Leapfrog
