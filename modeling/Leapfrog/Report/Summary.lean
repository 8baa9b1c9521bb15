import Leapfrog.Report.Basic
import Leapfrog.Text.Line

/-!
# Report summaries

A summary names the report, gives its totals, shows one row for each backend and then one line for
each failure. It is written line by line, so a number that is too long leaves the lines before it.
The lengths of lists are never too long.
-/

namespace Leapfrog.Report

/-- A row of the table of backends. -/
def tableRow (name status scenarios failed : String) : String :=
  " ".intercalate
    [Text.padRight 24 name, Text.padRight 8 status, Text.padRight 12 scenarios,
     Text.padRight 8 failed]

/-- The row of a backend. -/
def backendRow (r : Report Float) (backend : String) : String :=
  let results := r.resultsFor backend
  let failures := failed results
  tableRow backend (if failures = 0 then "PASS" else "FAIL")
    (Decimal.whole results.length) (Decimal.whole failures)

/-- The line with the number of checks, if it is short enough to be written. -/
def checksLine (r : Report Float) : Except (Fault Float) String := do
  Limits.checkDigits r.checks
  return "Checks: " ++ Decimal.whole r.checks

/-- The lines of a summary as they are made. -/
def lines (r : Report Float) : List (Except (Fault Float) String) :=
  let double := Text.rule '='
  let single := Text.rule '-'
  let above := ["", double, "Verification Report: " ++ r.name, double,
    "Scenarios: " ++ Decimal.whole r.results.length]
  let table := ["Failures: " ++ Decimal.whole r.failures.length] ++
    r.skipped.map (fun name => "Skipped: " ++ name ++ " (not available)") ++
    [single, tableRow "Backend" "Status" "Scenarios" "Failed", single] ++
    r.backends.map r.backendRow
  above.map .ok ++ [r.checksLine] ++ table.map .ok ++
    (if r.failures.isEmpty then [] else .ok single :: r.failures.map Failure.describe) ++
    [double, ""].map .ok

/-- The text of a summary, if all of its lines can be written. -/
def summary (r : Report Float) : Except (Fault Float) String :=
  match Text.written r.lines with
  | (lines, none) => .ok (Text.unlines lines)
  | (_, some fault) => .error fault

end Leapfrog.Report
