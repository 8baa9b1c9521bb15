import Leapfrog.Report.Document
import Leapfrog.Report.Summary
import Leapfrog.Run
import Leapfrog.Suite

/-!
# The parity check

The whole check in one call: it asks the suite for its backends, runs the grid on them, saves the
report if it is to be saved and shows the log and the summary if anything is to be shown. A fault
anywhere ends it, and nothing is saved or summarised after a fault.
-/

namespace Leapfrog

/-- What a check leaves behind. -/
structure Parity where
  suite : Suite Float
  /-- The lines that were shown. -/
  shown : List String
  /-- The text that was saved. -/
  saved? : Option String
  result : Except (Fault Float) (Report Float)

namespace Parity

/-- What is to be checked and how. -/
structure Request where
  grid : Grid Float
  epsilon : Number Float
  suite : Suite Float
  /-- Whether the report is saved. -/
  saves : Bool
  verbose : Bool
  started : Timestamp

/-- The text to save, if a report is to be saved. -/
def savedText (q : Request) (report : Report Float) : Except (Fault Float) (Option String) :=
  if q.saves then (report.text q.started Report.savedLayout).map some else .ok none

/-- A completed run, saved and summarised as requested. -/
def publish (q : Request) (suite : Suite Float) (log : List String) (report : Report Float) :
    Parity :=
  match savedText q report with
  | .error fault => ⟨suite, log, none, .error fault⟩
  | .ok saved? =>
    if q.verbose then
      let (lines, fault?) := Text.written report.lines
      ⟨suite, log ++ lines, saved?, fault?.elim (.ok report) .error⟩
    else ⟨suite, log, saved?, .ok report⟩

/-- The check. The tolerance is made before the suite is asked for anything. -/
def check [Machine] (q : Request) : Parity :=
  match Tolerance.ofEpsilon q.epsilon with
  | .error fault => ⟨q.suite, [], none, .error fault⟩
  | .ok tolerance =>
    let (registry, suite) := q.suite.registry
    match registry with
    | .error fault => ⟨suite, [], none, .error fault⟩
    | .ok registry =>
      match Run.ofGrid q.grid registry tolerance q.verbose with
      | .error stopped => ⟨suite, stopped.log, none, .error stopped.fault⟩
      | .ok run => publish q suite run.log run.report

end Parity

end Leapfrog
