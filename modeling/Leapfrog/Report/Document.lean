import Leapfrog.Json.Printer
import Leapfrog.Report.Basic
import Leapfrog.Report.Timestamp

/-!
# Reports as documents

A report is saved as a document with its name, the moment it was started, its totals and one entry
for each failure. An entry holds everything that is needed to repeat the failing scenario.
-/

namespace Leapfrog

/-- The nine parameters of a scenario, in order. -/
def Scenario.members (s : Scenario Float) : List (String × Json) :=
  [("n_atoms", .whole s.atoms), ("timestep", .real s.timestep),
   ("vx", .real s.velocity.x), ("vy", .real s.velocity.y), ("vz", .real s.velocity.z),
   ("fx", .real s.force.x), ("fy", .real s.force.y), ("fz", .real s.force.z),
   ("n_steps", .whole s.steps)]

/-- The members of the entry for a failure. -/
def Failure.members (f : Failure Float) : Except (Fault Float) (List (String × Json)) := do
  let dimension ← f.mismatch.dimensionName
  return ("backend", .text f.backend) :: f.scenario.members ++
    [("atom", .whole f.mismatch.atom), ("dimension", .text dimension),
     ("kind", .text f.mismatch.quantity.word), ("actual", .real f.mismatch.actual),
     ("expected", .real f.mismatch.expected), ("tolerance", .real f.mismatch.tolerance)]

/-- The whole numbers in the entry for a failure, where the dimension is a letter. -/
def Failure.numbers (f : Failure Float) : List Int :=
  [f.scenario.atoms, f.scenario.steps, f.mismatch.atom]

namespace Report

/-- The document of a report that was started at a given moment. -/
def document (r : Report Float) (started : Timestamp) : Except (Fault Float) Json := do
  let failures ← r.failures.mapM Failure.members
  return .record
    [("name", .text r.name), ("timestamp", .text started.text),
     ("backends", Json.texts r.backends), ("skipped_backends", Json.texts r.skipped),
     ("n_scenarios", .whole r.results.length), ("n_checks", .whole r.checks),
     ("n_failed_scenarios", .whole (failed r.results)), ("passed", .bool r.passed),
     ("failures", .list (failures.map .record))]

/-- How a saved report is laid out. -/
def savedLayout : Json.Layout := .indented 2

/-- The text of a report's document, if its whole numbers are short enough to be written. -/
def text (r : Report Float) (started : Timestamp) (layout : Json.Layout) :
    Except (Fault Float) String := do
  let document ← r.document started
  Limits.checkAllDigits (r.checks :: r.failures.flatMap Failure.numbers)
  return Json.print layout document

end Report

end Leapfrog
