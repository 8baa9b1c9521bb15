import Leapfrog.Scenario

/-!
# Reports

A report collects the results of a run. It judges nothing on its own: whether all components were
within the tolerance is asked of it.
-/

namespace Leapfrog

/-- A component outside the tolerance, with the scenario and backend it belongs to. -/
structure Failure (α : Type) [Scalar α] where
  backend : String
  scenario : Scenario α
  mismatch : Mismatch α
  deriving DecidableEq, Repr

/-- The failures of a result. -/
def Result.failures {α : Type} [Scalar α] (r : Result α) : List (Failure α) :=
  r.mismatches.map fun m => ⟨r.backend, r.scenario, m⟩

/-- The line that describes a failure. -/
def Failure.description (f : Failure Float) : String :=
  f.scenario.description f.backend ++ ": " ++ f.mismatch.description

/-- The description of a failure, if its whole numbers are short enough to be written. -/
def Failure.describe (f : Failure Float) : Except (Fault Float) String := do
  return (← f.scenario.describe f.backend) ++ ": " ++ (← f.mismatch.describe)

/-- The results of a run, in the order they were made. -/
structure Report (α : Type) [Scalar α] where
  name : String
  /-- The optional backends that were not available. -/
  skipped : List String
  results : List (Result α)
  deriving DecidableEq, Repr

namespace Report

/-- The name of a report that is not given one. -/
def standardName : String := "leapfrog_parity"

variable {α : Type} [Scalar α]

/-- A report with one more result. -/
def add (r : Report α) (result : Result α) : Report α := { r with results := r.results ++ [result] }

/-- The names of the backends with a result, each once, in the order of their first one. -/
def backends (r : Report α) : List String := (r.results.map Result.backend).eraseDups

/-- All failures in order. -/
def failures (r : Report α) : List (Failure α) := r.results.flatMap Result.failures

/-- How many components were compared. -/
def checks (r : Report α) : Int := r.results.foldl (fun n result => n + result.checks) 0

/-- Whether all results passed. -/
def passed (r : Report α) : Bool := r.results.all Result.passed

/-- The results of one backend. -/
def resultsFor (r : Report α) (backend : String) : List (Result α) :=
  r.results.filter fun result => result.backend = backend

/-- How many of some results did not pass. -/
def failed (results : List (Result α)) : Nat := results.countP fun r => !r.passed

end Report

/-- Nothing if a report has no failures, otherwise a fault that lists them. -/
def Report.verdict (r : Report Float) : Except (Fault Float) Unit :=
  match r.failures with
  | [] => .ok ()
  | failures => do throw (.parity (← failures.mapM Failure.describe))

end Leapfrog
