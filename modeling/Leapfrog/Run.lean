import Leapfrog.Grid
import Leapfrog.Registry
import Leapfrog.Report.Basic

/-!
# Runs

A run takes every scenario of a grid through every backend of a registry, the backends of one
scenario before the next scenario. Each pair starts from a fresh simulation. Failures are recorded
and the run goes on; a fault stops it, and what was recorded and logged up to then is kept.

The scenarios are formed one by one as the run comes to them, so a run that is stopped early never
looks at the rest of its grid. Only a log asks for the size of the grid.
-/

namespace Leapfrog

/-- A run so far: its report and its log. -/
structure Run where
  report : Report Float
  log : List String

/-- A run that was stopped, and the fault that stopped it. -/
structure StoppedRun extends Run where
  fault : Fault Float

namespace Run

/-- The first lines of a log. -/
def header (size : Nat) (names skipped : List String) : List String :=
  ("Leap-frog parity: " ++ Decimal.whole size ++ " scenarios x " ++ Decimal.whole names.length ++
    " backend(s) (" ++ ", ".intercalate names ++ ")") ::
  skipped.map fun name => "  " ++ name ++ " not available, skipping"

/-- The line for a result that did not pass. -/
def failureLine (r : Result Float) : Except (Fault Float) String := do
  return "  FAIL " ++ (← r.scenario.describe r.backend) ++ " (" ++
    Decimal.whole r.mismatches.length ++ " component(s))"

/-- The last line of a log. The checks of a run are of atoms that have been in memory, so that their
number is short enough to be written. -/
def lastLine (r : Report Float) : String :=
  "Done: " ++ Decimal.whole r.results.length ++ " runs, " ++ Decimal.whole r.checks ++
    " checks, " ++ (if r.passed then "passed" else "FAILED")

/-- Lines added to the log, if there is one. -/
def say (verbose : Bool) (lines : List String) (r : Run) : Run :=
  if verbose then { r with log := r.log ++ lines } else r

/-- A result added, with a line in the log if it did not pass. A line that cannot be written stops
the run. -/
def record (verbose : Bool) (result : Result Float) (r : Run) : Except StoppedRun Run :=
  let r := { r with report := r.report.add result }
  if !verbose || result.passed then .ok r
  else match failureLine result with
    | .error fault => .error ⟨r, fault⟩
    | .ok line => .ok (r.say verbose [line])

/-- One scenario on one backend. -/
def visit [Machine] (tolerance : Tolerance Float) (verbose : Bool) (scenario : Scenario Float)
    (r : Run) (backend : Backend Float) : Except StoppedRun Run :=
  match scenario.run backend tolerance with
  | .error fault => .error ⟨r, fault⟩
  | .ok result => r.record verbose result

/-- The scenario of a combination on all backends in order. -/
def visitAll [Machine] (backends : List (Backend Float)) (tolerance : Tolerance Float)
    (verbose : Bool) (r : Run) (c : Combination Float) : Except StoppedRun Run :=
  match c.scenario with
  | .error fault => .error ⟨r, fault⟩
  | .ok scenario => backends.foldlM (visit tolerance verbose scenario) r

/-- A run that has visited nothing. Its log starts with the size of the grid, which must be one that
can be counted. -/
def opened (grid : Grid Float) (registry : Registry Float) (verbose : Bool) :
    Except StoppedRun Run :=
  let r : Run := ⟨⟨Report.standardName, registry.skipped, []⟩, []⟩
  if verbose then
    match grid.length with
    | .error fault => .error ⟨r, fault⟩
    | .ok size => .ok (r.say verbose (header size registry.names registry.skipped))
  else .ok r

/-- A run of a grid on the backends of a registry. -/
def ofGrid [Machine] (grid : Grid Float) (registry : Registry Float) (tolerance : Tolerance Float)
    (verbose : Bool) : Except StoppedRun Run := do
  let r ← opened grid registry verbose
  let r ← grid.foldlM (visitAll registry.backends tolerance verbose) r
  return r.say verbose [lastLine r.report]

end Run

end Leapfrog
