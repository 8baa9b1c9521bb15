import Leapfrog.Limits

/-!
# Tolerances

The error that is admitted grows linearly with the number of steps.
-/

namespace Leapfrog

/-- A bound on the error that each step may add. -/
structure Tolerance (α : Type) [Scalar α] where
  epsilon : α
  epsilon_nonnegative : Scalar.isNonnegative epsilon = true

namespace Tolerance

variable {α : Type} [Scalar α]

/-- The bound that is used when none is given. -/
def standardEpsilon [Div α] : α := Scalar.ofInt 5 / Scalar.ofInt 1000000

/-- The tolerance with a given bound for each step. -/
def ofEpsilon (epsilon : Number α) : Except (Fault α) (Tolerance α) :=
  if !epsilon.isNarrow then .error .wideNumber
  else if h : Scalar.isNonnegative epsilon.nearest then .ok ⟨epsilon.nearest, h⟩
  else .error (.epsilon epsilon)

/-- The error that is admitted after a number of steps. -/
def bound [Mul α] (t : Tolerance α) (steps : Number α) : Except (Fault α) α :=
  if steps.isNegative then .error (.negativeSteps steps) else steps.times t.epsilon

end Tolerance

end Leapfrog
