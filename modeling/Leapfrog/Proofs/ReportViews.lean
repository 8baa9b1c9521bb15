import Leapfrog.Proofs.RunResults
import Leapfrog.Report.Summary

/-!
# The views of a report

A report is looked at in several ways: whether it passed, its verdict, its document and its summary
with a row for each backend. All of them are computed from the list of results, each on its own, and
all of them tell the same story. The rows of the summary cover every result once, since the names of
the backends are those of the results, each of them once.

A summary and a verdict write whole numbers, which have to be short enough for that. A document names
dimensions, which have to be dimensions.
-/

namespace Leapfrog

section

variable {β γ : Type} [DecidableEq β]

/-- Values sorted by their keys are the values, in another order. -/
theorem perm_flatMap_filter (key : γ → β) {keys : List β} (hkeys : keys.Nodup) {values : List γ}
    (hvalues : ∀ c ∈ values, key c ∈ keys) :
    (keys.flatMap fun k => values.filter fun c => key c = k).Perm values := by
  induction keys generalizing values with
  | nil =>
    have hnil : values = [] := List.eq_nil_iff_forall_not_mem.mpr fun c hc => by
      simpa using hvalues c hc
    rw [hnil]
    exact .nil
  | cons k rest ih =>
    obtain ⟨hk, hrest⟩ := List.nodup_cons.mp hkeys
    have hothers : (rest.flatMap fun k' => values.filter fun c => key c = k') =
        rest.flatMap fun k' => (values.filter fun c => !decide (key c = k)).filter
          fun c => key c = k' := by
      apply List.flatMap_congr
      intro k' hk'
      rw [List.filter_filter]
      apply List.filter_congr
      intro c _
      by_cases hc : key c = k'
      · have hne : k' ≠ k := fun heq => hk (heq ▸ hk')
        simp [hc, hne]
      · simp [hc]
    rw [List.flatMap_cons, hothers]
    refine .trans (.append_left _ (ih hrest fun c hc => ?_)) (List.filter_append_perm _ _)
    obtain ⟨hmem, hne⟩ := List.mem_filter.mp hc
    exact (List.mem_cons.mp (hvalues c hmem)).resolve_left (by simpa using hne)

end

/-- An index stands for a position in the row, counted from its start or from its end. -/
theorem wrapIndex?_eq_some_iff {size : Nat} {index : Int} {i : Nat} :
    wrapIndex? size index = some i ↔ i < size ∧ (index = i ∨ index + size = i) := by
  unfold wrapIndex?
  split
  · rw [Option.some_inj]
    omega
  · split
    · rw [Option.some_inj]
      omega
    · refine iff_of_false (by simp) ?_
      omega

/-- An axis stands at the position that its number says. -/
theorem Axis.ofNat?_eq_some_iff {i : Nat} {axis : Axis} : ofNat? i = some axis ↔ axis.index = i := by
  constructor
  · intro h
    unfold ofNat? at h
    split at h <;> cases h <;> rfl
  · rintro rfl
    cases axis <;> rfl

/-- The number of an axis is below three. -/
theorem Axis.index_lt (axis : Axis) : axis.index < 3 := by cases axis <;> decide

namespace Mismatch

/-- A mismatch whose dimension is one of the three, counted from the first or from the last one. -/
def HasAxis (m : Mismatch Float) : Prop := -3 ≤ m.dimension ∧ m.dimension ≤ 2

/-- The letter of a dimension is that of the axis it stands for. -/
theorem dimensionName_eq_ok_iff {m : Mismatch Float} {name : String} :
    m.dimensionName = .ok name ↔
      ∃ axis : Axis, (m.dimension = axis.index ∨ m.dimension + 3 = axis.index) ∧
        axis.name = name := by
  unfold dimensionName
  rw [bind_eq_ok_iff]
  constructor
  · intro h
    obtain ⟨index, hindex, h⟩ := h
    have heq : m.dimension = index := by
      unfold checkedIndex at hindex
      split at hindex
      · exact Except.ok.inj hindex
      · cases hindex
    split at h
    · rename_i axis haxis
      obtain ⟨i, hi, haxis⟩ := Option.bind_eq_some_iff.mp haxis
      refine ⟨axis, ?_, Except.ok.inj h⟩
      rw [Axis.ofNat?_eq_some_iff.mp haxis, heq]
      exact (wrapIndex?_eq_some_iff.mp hi).2
    · cases h
  · intro h
    obtain ⟨axis, hdimension, rfl⟩ := h
    have hlt := axis.index_lt
    have hbound : (Limits.bound : Int) = 9223372036854775808 := rfl
    have hmachine : Limits.isMachineInteger m.dimension = true := decide_eq_true (by omega)
    have haxis : (wrapIndex? 3 m.dimension).bind Axis.ofNat? = some axis :=
      Option.bind_eq_some_iff.mpr
        ⟨axis.index, wrapIndex?_eq_some_iff.mpr ⟨hlt, hdimension⟩, Axis.ofNat?_eq_some_iff.mpr rfl⟩
    refine ⟨m.dimension, if_pos hmachine, ?_⟩
    rw [haxis]
    rfl

/-- A dimension has a letter exactly if it is one of the three. -/
theorem exists_dimensionName_iff {m : Mismatch Float} :
    (∃ name, m.dimensionName = .ok name) ↔ m.HasAxis := by
  simp only [dimensionName_eq_ok_iff, HasAxis]
  constructor
  · intro h
    obtain ⟨_, axis, hdimension, -⟩ := h
    have hlt := axis.index_lt
    omega
  · intro h
    obtain ⟨hleast, hgreatest⟩ := h
    obtain ⟨axis, haxis⟩ : ∃ axis : Axis, (axis.index : Int) = m.dimension % 3 := by
      have hcases : m.dimension % 3 = 0 ∨ m.dimension % 3 = 1 ∨ m.dimension % 3 = 2 := by omega
      rcases hcases with hmod | hmod | hmod <;> rw [hmod]
      · exact ⟨.x, rfl⟩
      · exact ⟨.y, rfl⟩
      · exact ⟨.z, rfl⟩
    exact ⟨_, axis, by omega, rfl⟩

/-- A dimension that has no letter is an index outside a row. -/
theorem kind_of_dimensionName {m : Mismatch Float} {fault : Fault Float}
    (h : m.dimensionName = .error fault) : fault.kind = .index := by
  unfold dimensionName at h
  rcases bind_eq_error_iff.mp h with hindex | ⟨index, -, h⟩
  · unfold checkedIndex at hindex
    split at hindex <;> cases hindex
    rfl
  · split at h <;> cases h
    rfl

end Mismatch

/-- An entry has its letter exactly if its dimension is one of the three. -/
theorem Failure.exists_members_iff {f : Failure Float} :
    (∃ members, f.members = .ok members) ↔ f.mismatch.HasAxis := by
  simp only [members, bind_eq_ok_iff, ← Mismatch.exists_dimensionName_iff]
  constructor
  · intro h
    obtain ⟨_, name, hname, -⟩ := h
    exact ⟨name, hname⟩
  · intro h
    obtain ⟨name, hname⟩ := h
    exact ⟨_, name, hname, rfl⟩

/-- A result passes if it has no failures. -/
theorem Result.passed_iff {result : Result Float} : result.passed = true ↔ result.failures = [] := by
  rw [passed, failures, List.isEmpty_iff, List.map_eq_nil_iff]

namespace Report

variable {r : Report Float}

/-- A report whose whole numbers are short enough to be written. -/
structure HasShortNumbers (r : Report Float) : Prop where
  checks : Limits.IsShort r.checks
  failures : ∀ f ∈ r.failures, f.HasShortNumbers

/-- A report to which results have been added one after the other. -/
def ofResults (name : String) (skipped : List String) (results : List (Result Float)) :
    Report Float :=
  results.foldl add ⟨name, skipped, []⟩

/-- The results of a report are those that were added to it, in order. -/
theorem ofResults_eq (name : String) (skipped : List String) (results : List (Result Float)) :
    ofResults name skipped results = ⟨name, skipped, results⟩ := by
  have hfoldl (results : List (Result Float)) (r : Report Float) :
      results.foldl add r = ⟨r.name, r.skipped, r.results ++ results⟩ := by
    induction results generalizing r with
    | nil => rw [List.foldl_nil, List.append_nil]
    | cons result rest ih => rw [List.foldl_cons, ih, add, List.append_assoc, List.singleton_append]
  rw [ofResults, hfoldl, List.nil_append]

/-- A row of the table of backends. -/
structure Row where
  backend : String
  /-- How many results the backend has. -/
  scenarios : Nat
  /-- How many of them have failures. -/
  failed : Nat

/-- What a row says about its backend. -/
def Row.status (row : Row) : String := if row.failed = 0 then "PASS" else "FAIL"

/-- A row as it is written. -/
def Row.text (row : Row) : String :=
  tableRow row.backend row.status (Decimal.whole row.scenarios) (Decimal.whole row.failed)

/-- The rows of the table of backends. -/
def rows (r : Report Float) : List Row :=
  r.backends.map fun backend =>
    ⟨backend, (r.resultsFor backend).length, failed (r.resultsFor backend)⟩

/-- The rows of a summary are those of its table. -/
theorem map_backendRow (r : Report Float) : r.backends.map r.backendRow = r.rows.map Row.text := by
  rw [rows, List.map_map]
  rfl

/-- A report has no failures if all results passed. -/
theorem failures_eq_nil_iff : r.failures = [] ↔ ∀ result ∈ r.results, result.passed = true := by
  simp only [failures, List.flatMap_eq_nil_iff, Result.passed_iff]

/-- No result failed if all of them passed. -/
theorem failed_eq_zero_iff {results : List (Result Float)} :
    failed results = 0 ↔ ∀ result ∈ results, result.passed = true := by
  simp [failed, List.countP_eq_zero]

/-- A report names the backends of its results. -/
theorem mem_backends {name : String} :
    name ∈ r.backends ↔ ∃ result ∈ r.results, result.backend = name := by
  rw [backends, List.mem_eraseDups, List.mem_map]

/-- The names of the backends stand in the order of their first results. -/
theorem pairwise_backends (r : Report Float) :
    r.backends.Pairwise fun a b =>
      (r.results.map Result.backend).idxOf a < (r.results.map Result.backend).idxOf b :=
  pairwise_idxOf_eraseDups _

/-- Every backend is named once. -/
theorem nodup_backends (r : Report Float) : r.backends.Nodup :=
  nodup_eraseDups _

/-- The results of a backend are those that bear its name. -/
theorem mem_resultsFor {name : String} {result : Result Float} :
    result ∈ r.resultsFor name ↔ result ∈ r.results ∧ result.backend = name := by
  rw [resultsFor, List.mem_filter, decide_eq_true_eq]

/-- The results of all backends are all results. -/
theorem perm_resultsFor (r : Report Float) : (r.backends.flatMap r.resultsFor).Perm r.results :=
  perm_flatMap_filter Result.backend r.nodup_backends fun result hresult =>
    mem_backends.mpr ⟨result, hresult, rfl⟩

/-- All rows say that their backend passed exactly if all results passed. -/
theorem rows_pass_iff :
    (∀ row ∈ r.rows, row.status = "PASS") ↔ ∀ result ∈ r.results, result.passed = true := by
  have hstatus (row : Row) : row.status = "PASS" ↔ row.failed = 0 := by
    unfold Row.status
    split <;> simp_all
  simp only [rows, List.forall_mem_map, hstatus, failed_eq_zero_iff, mem_resultsFor]
  constructor
  · intro h result hresult
    exact h _ (mem_backends.mpr ⟨result, hresult, rfl⟩) result ⟨hresult, rfl⟩
  · intro h name _ result hresult
    exact h result hresult.1

/-- The numbers of scenarios in the table add up to that of all results. -/
theorem sum_scenarios (r : Report Float) : (r.rows.map Row.scenarios).sum = r.results.length := by
  rw [← r.perm_resultsFor.length_eq, List.length_flatMap, rows, List.map_map]
  rfl

/-- The numbers of failed scenarios in the table add up to that of all failed results. -/
theorem sum_failed (r : Report Float) : (r.rows.map Row.failed).sum = failed r.results := by
  rw [failed, ← r.perm_resultsFor.countP_eq, List.countP_flatMap, rows, List.map_map]
  rfl

/-- A document holds an entry for each failure. -/
theorem document_eq_ok_iff {started : Timestamp} {document : Json} :
    r.document started = .ok document ↔
      ∃ entries, List.Forall₂ (fun f members => f.members = .ok members) r.failures entries ∧
        document = .record
          [("name", .text r.name), ("timestamp", .text started.text),
           ("backends", Json.texts r.backends), ("skipped_backends", Json.texts r.skipped),
           ("n_scenarios", .whole r.results.length), ("n_checks", .whole r.checks),
           ("n_failed_scenarios", .whole (failed r.results)), ("passed", .bool r.passed),
           ("failures", .list (entries.map .record))] := by
  unfold Report.document
  rw [bind_eq_ok_iff]
  simp only [mapM_eq_ok_iff]
  exact exists_congr fun _ => and_congr_right fun _ =>
    ⟨fun h => (Except.ok.inj h).symm, fun h => h ▸ rfl⟩

/-- There is a document exactly if every failure has one of the three dimensions. -/
theorem exists_document_iff (started : Timestamp) :
    (∃ document, r.document started = .ok document) ↔ ∀ f ∈ r.failures, f.mismatch.HasAxis := by
  simp only [← Failure.exists_members_iff, ← exists_answers_iff, document_eq_ok_iff]
  constructor
  · intro h
    obtain ⟨_, entries, hentries, -⟩ := h
    exact ⟨entries, hentries⟩
  · intro h
    obtain ⟨entries, hentries⟩ := h
    exact ⟨_, entries, hentries, rfl⟩

/-- Where there is no document, an index is outside a row. -/
theorem kind_of_document {started : Timestamp} {fault : Fault Float}
    (h : r.document started = .error fault) : fault.kind = .index := by
  unfold Report.document at h
  rcases bind_eq_error_iff.mp h with hentries | ⟨_, -, h⟩
  · obtain ⟨f, -, hmembers⟩ := exists_of_mapM_eq_error hentries
    unfold Failure.members at hmembers
    rcases bind_eq_error_iff.mp hmembers with hname | ⟨_, -, hmembers⟩
    · exact Mismatch.kind_of_dimensionName hname
    · cases hmembers
  · cases h

/-- All views of a report tell the same story. -/
structure ViewsAgree (r : Report Float) (started : Timestamp) : Prop where
  /-- The failures are the mismatches of all results, in order. -/
  failures_eq : r.failures = r.results.flatMap fun result =>
    result.mismatches.map fun m => ⟨result.backend, result.scenario, m⟩
  passed_iff : r.passed = true ↔ r.failures = []
  verdict_iff : r.verdict = .ok () ↔ r.failures = []
  failed_iff : failed r.results = 0 ↔ r.failures = []
  rows_iff : (∀ row ∈ r.rows, row.status = "PASS") ↔ r.failures = []
  /-- A verdict on failures says how many they are. -/
  verdict_message : r.HasShortNumbers → r.failures ≠ [] →
    ∃ fault lines, r.verdict = .error fault ∧ fault.kind = .parity ∧
      fault.message = Decimal.whole r.failures.length ++
        " component(s) differ from the analytical solution:\n" ++ lines
  /-- A failure with a number that is too long cannot be listed. -/
  verdict_refused : (∃ f ∈ r.failures, ¬ f.HasShortNumbers) → r.verdict = .error .tooManyDigits
  /-- A summary says how many results and failures there are, and shows the table of backends. -/
  summary_lines : r.HasShortNumbers →
    ∃ lines before after, r.summary = .ok (Text.unlines lines) ∧
      lines[4]? = some ("Scenarios: " ++ Decimal.whole r.results.length) ∧
      lines[6]? = some ("Failures: " ++ Decimal.whole r.failures.length) ∧
      lines = before ++ tableRow "Backend" "Status" "Scenarios" "Failed" :: Text.rule '-' ::
        r.rows.map Row.text ++ after
  /-- There is no summary of a report with a number that is too long. -/
  summary_refused : ¬ r.HasShortNumbers → r.summary = .error .tooManyDigits
  mem_backends_iff : ∀ name, name ∈ r.backends ↔ ∃ result ∈ r.results, result.backend = name
  backends_nodup : r.backends.Nodup
  /-- The backends stand in the order of their first results. -/
  backends_order : r.backends.Pairwise fun a b =>
    (r.results.map Result.backend).idxOf a < (r.results.map Result.backend).idxOf b
  rows_backends : r.rows.map Row.backend = r.backends
  /-- The results of a backend are all those with its name, in order. -/
  resultsFor_sublist : ∀ name, (r.resultsFor name).Sublist r.results ∧
    ∀ result, result ∈ r.resultsFor name ↔ result ∈ r.results ∧ result.backend = name
  resultsFor_perm : (r.backends.flatMap r.resultsFor).Perm r.results
  scenarios_sum : (r.rows.map Row.scenarios).sum = r.results.length
  failed_sum : (r.rows.map Row.failed).sum = failed r.results
  /-- There is no document exactly if a mismatch has none of the three dimensions. -/
  document_error_iff : (∃ fault, r.document started = .error fault) ↔
    ∃ result ∈ r.results, ∃ m ∈ result.mismatches, ¬ (-3 ≤ m.dimension ∧ m.dimension ≤ 2)
  document_kind : ∀ fault, r.document started = .error fault → fault.kind = .index
  /-- A document has the same numbers, and an entry for each failure. -/
  document_members : ∀ document, r.document started = .ok document →
    document.member? "backends" = some (Json.texts r.backends) ∧
    document.member? "n_scenarios" = some (.whole r.results.length) ∧
    document.member? "n_failed_scenarios" = some (.whole (failed r.results)) ∧
    document.member? "passed" = some (.bool r.passed) ∧
    ∃ entries, document.member? "failures" = some (.list entries) ∧
      entries.length = r.failures.length

/-- A report without failures has nothing against it. -/
theorem verdict_of_nil (h : r.failures = []) : r.verdict = .ok () := by
  unfold verdict
  rw [h]

/-- A verdict on failures lists them, if they can be described. -/
theorem verdict_of_ne_nil (h : r.failures ≠ []) :
    r.verdict = (r.failures.mapM Failure.describe).bind fun lines => .error (.parity lines) := by
  unfold verdict
  split
  · exact absurd ‹_› h
  · rfl

/-- Failures whose whole numbers are short are described one after the other. -/
theorem mapM_describe {failures : List (Failure Float)} (h : ∀ f ∈ failures, f.HasShortNumbers) :
    failures.mapM Failure.describe = .ok (failures.map Failure.description) := by
  rw [mapM_eq_ok_iff, List.forall₂_map_right_iff, List.forall₂_same]
  exact fun f hf => f.describe_eq.1 (h f hf)

/-- A failure that cannot be described has a number that is too long. -/
theorem eq_of_describe {f : Failure Float} {fault : Fault Float} (h : f.describe = .error fault) :
    fault = .tooManyDigits := by
  by_cases hshort : f.HasShortNumbers
  · cases (f.describe_eq.1 hshort).symm.trans h
  · exact Except.error.inj (h.symm.trans (f.describe_eq.2 hshort))

/-- A verdict on failures whose whole numbers are short lists all of them. -/
theorem verdict_of_short (h : r.failures ≠ []) (hshort : ∀ f ∈ r.failures, f.HasShortNumbers) :
    r.verdict = .error (.parity (r.failures.map Failure.description)) := by
  rw [verdict_of_ne_nil h, mapM_describe hshort]
  rfl

/-- There is no list of failures if one of them has a number that is too long. -/
theorem verdict_of_long (h : ∃ f ∈ r.failures, ¬ f.HasShortNumbers) :
    r.verdict = .error .tooManyDigits := by
  obtain ⟨f, hf, hlong⟩ := h
  rw [verdict_of_ne_nil (List.ne_nil_of_mem hf)]
  cases hlines : r.failures.mapM Failure.describe with
  | error fault =>
    obtain ⟨_, -, hfault⟩ := exists_of_mapM_eq_error hlines
    rw [eq_of_describe hfault]
    rfl
  | ok lines =>
    obtain ⟨line, -, hline⟩ := exists_answer_mem (mapM_eq_ok_iff.mp hlines) hf
    cases hline.symm.trans (f.describe_eq.2 hlong)

/-- A verdict on failures begins with how many they are. -/
theorem message_parity (r : Report Float) :
    (Fault.parity (r.failures.map Failure.description)).message =
      Decimal.whole r.failures.length ++ " component(s) differ from the analytical solution:\n" ++
        "\n".intercalate (r.failures.map Failure.description) := by
  rw [← List.length_map Failure.description]
  rfl

/-- The lines above the table: the name of a report, its totals and the names that were skipped. -/
def heading (r : Report Float) : List String :=
  ["", Text.rule '=', "Verification Report: " ++ r.name, Text.rule '=',
   "Scenarios: " ++ Decimal.whole r.results.length, "Checks: " ++ Decimal.whole r.checks,
   "Failures: " ++ Decimal.whole r.failures.length] ++
  r.skipped.map fun name => "Skipped: " ++ name ++ " (not available)"

/-- The lines of a summary all of which can be written: the heading, the table, the failures under a
rule and the closing rule. -/
def summaryLines (r : Report Float) : List String :=
  r.heading ++
    [Text.rule '-', tableRow "Backend" "Status" "Scenarios" "Failed", Text.rule '-'] ++
    r.rows.map Row.text ++
    (if r.failures = [] then [] else Text.rule '-' :: r.failures.map Failure.description) ++
    [Text.rule '=', ""]

/-- The number of checks is shown if it is short, and refused otherwise. -/
theorem checksLine_eq (r : Report Float) :
    r.checksLine = if Limits.IsShort r.checks then .ok ("Checks: " ++ Decimal.whole r.checks)
      else .error .tooManyDigits := by
  rw [checksLine, Limits.checkDigits_eq]
  split <;> rfl

/-- A summary with short numbers has all of its lines. -/
theorem lines_of_short (h : r.HasShortNumbers) : r.lines = r.summaryLines.map .ok := by
  have hfailures : r.failures.map Failure.describe =
      (r.failures.map Failure.description).map .ok := by
    rw [List.map_map]
    exact List.map_congr_left fun f hf => f.describe_eq.1 (h.failures f hf)
  rw [lines, checksLine_eq, if_pos h.checks, hfailures, map_backendRow, summaryLines, heading]
  simp only [List.isEmpty_iff]
  split <;> simp

/-- A line of a summary that cannot be written has a number that is too long. -/
theorem eq_of_mem_lines {fault : Fault Float} (h : .error fault ∈ r.lines) :
    fault = .tooManyDigits := by
  have hchecks : .error fault = r.checksLine → fault = .tooManyDigits := by
    rw [checksLine_eq]
    split
    · exact nofun
    · exact fun h => Except.error.inj h
  have hfailure : (∃ f ∈ r.failures, f.describe = .error fault) → fault = .tooManyDigits :=
    fun ⟨_, _, hdescribe⟩ => eq_of_describe hdescribe
  unfold lines at h
  split at h <;> simp at h
  · exact hchecks h
  · exact h.elim hchecks hfailure

/-- A summary with a number that is too long has a line that cannot be written. -/
theorem mem_lines_of_long (h : ¬ r.HasShortNumbers) : .error .tooManyDigits ∈ r.lines := by
  by_cases hchecks : Limits.IsShort r.checks
  · have hlong : ∃ f ∈ r.failures, ¬ f.HasShortNumbers := by
      by_contra hall
      push Not at hall
      exact h ⟨hchecks, hall⟩
    obtain ⟨f, hf, hlong⟩ := hlong
    have hmem : .error .tooManyDigits ∈ r.failures.map Failure.describe :=
      List.mem_map.mpr ⟨f, hf, f.describe_eq.2 hlong⟩
    have hne : r.failures.isEmpty = false := List.isEmpty_eq_false_iff_exists_mem.mpr ⟨f, hf⟩
    simp only [lines, hne, List.mem_append]
    exact .inl (.inr (List.mem_cons_of_mem _ hmem))
  · have hline : r.checksLine = .error .tooManyDigits := by rw [checksLine_eq, if_neg hchecks]
    simp [lines, hline]

/-- A summary with short numbers is written. -/
theorem written_of_short (h : r.HasShortNumbers) :
    Text.written r.lines = (r.summaryLines, none) := by
  have hwritten := Text.written_map_ok_append (φ := Fault Float) r.summaryLines []
  rw [List.append_nil] at hwritten
  rw [lines_of_short h, hwritten]
  simp [Text.written]

/-- A summary with short numbers has a text. -/
theorem summary_of_short (h : r.HasShortNumbers) :
    r.summary = .ok (Text.unlines r.summaryLines) := by
  unfold summary
  rw [written_of_short h]

/-- A summary with a number that is too long has no text. -/
theorem summary_of_long (h : ¬ r.HasShortNumbers) : r.summary = .error .tooManyDigits := by
  have hfault := Text.written_of_mem (mem_lines_of_long h) fun _ => eq_of_mem_lines
  unfold summary
  split
  · next hnone =>
    rw [hnone] at hfault
    cases hfault
  · next hsome =>
    rw [hsome] at hfault
    rw [Option.some.inj hfault]

/-- A summary whose number of checks is too long stops before its table. -/
theorem written_of_long_checks (h : ¬ Limits.IsShort r.checks) :
    Text.written r.lines = (["", Text.rule '=', "Verification Report: " ++ r.name, Text.rule '=',
      "Scenarios: " ++ Decimal.whole r.results.length], some .tooManyDigits) := by
  have hline : r.checksLine = .error .tooManyDigits := by rw [checksLine_eq, if_neg h]
  simp only [lines, List.append_assoc]
  rw [Text.written_map_ok_append, hline]
  rfl

/-- A summary shows the table of backends. -/
theorem exists_summaryLines_eq (r : Report Float) :
    ∃ before after, r.summaryLines =
      before ++ tableRow "Backend" "Status" "Scenarios" "Failed" :: Text.rule '-' ::
        r.rows.map Row.text ++ after := by
  refine ⟨r.heading ++ [Text.rule '-'], (if r.failures = [] then [] else
    Text.rule '-' :: r.failures.map Failure.description) ++ [Text.rule '=', ""], ?_⟩
  simp only [summaryLines, List.append_assoc, List.cons_append, List.nil_append]

/-- There is no document exactly if a mismatch has none of the three dimensions. -/
theorem exists_error_document_iff {started : Timestamp} :
    (∃ fault, r.document started = .error fault) ↔
      ∃ result ∈ r.results, ∃ m ∈ result.mismatches, ¬ m.HasAxis := by
  have hfault : (∃ fault, r.document started = .error fault) ↔
      ¬ ∃ document, r.document started = .ok document := by
    cases r.document started <;> simp
  rw [hfault, exists_document_iff started]
  simp only [failures, Result.failures, List.forall_mem_flatMap, List.forall_mem_map, not_forall,
    exists_prop]

/-- The views of any report agree. -/
theorem viewsAgree (r : Report Float) (started : Timestamp) : r.ViewsAgree started where
  failures_eq := rfl
  passed_iff := by rw [failures_eq_nil_iff, passed, List.all_eq_true]
  verdict_iff := by
    refine ⟨fun h => ?_, verdict_of_nil⟩
    by_contra hne
    rw [verdict_of_ne_nil hne] at h
    cases hlines : r.failures.mapM Failure.describe <;> rw [hlines] at h <;> cases h
  failed_iff := by rw [failures_eq_nil_iff, failed_eq_zero_iff]
  rows_iff := by rw [failures_eq_nil_iff, rows_pass_iff]
  verdict_message := by
    intro hshort hfailures
    exact ⟨_, _, verdict_of_short hfailures hshort.failures, rfl, message_parity r⟩
  verdict_refused := verdict_of_long
  summary_lines := by
    intro hshort
    obtain ⟨before, after, hlines⟩ := exists_summaryLines_eq r
    exact ⟨r.summaryLines, before, after, summary_of_short hshort,
      by simp [summaryLines, heading], by simp [summaryLines, heading], hlines⟩
  summary_refused := summary_of_long
  mem_backends_iff := fun _ => mem_backends
  backends_nodup := r.nodup_backends
  backends_order := r.pairwise_backends
  rows_backends := by rw [rows, List.map_map]; exact List.map_id _
  resultsFor_sublist := fun _ => ⟨List.filter_sublist, fun _ => mem_resultsFor⟩
  resultsFor_perm := r.perm_resultsFor
  scenarios_sum := r.sum_scenarios
  failed_sum := r.sum_failed
  document_error_iff := exists_error_document_iff
  document_kind := fun _ => kind_of_document
  document_members := by
    intro document hdocument
    obtain ⟨entries, hentries, rfl⟩ := document_eq_ok_iff.mp hdocument
    refine ⟨rfl, rfl, rfl, rfl, _, rfl, ?_⟩
    rw [List.length_map, hentries.length_eq]

end Report

/-- The mismatches of a run are components, whose dimensions are those of the axes. -/
theorem Run.hasAxis_of_ofGrid [Machine] {grid : Grid Float} {registry : Registry Float}
    {tolerance : Tolerance Float} {verbose : Bool} {run : Run}
    (hrun : Run.ofGrid grid registry tolerance verbose = .ok run) :
    ∀ f ∈ run.report.failures, f.mismatch.HasAxis := by
  obtain ⟨scenarios, -, -, hresults⟩ := Run.exists_scenarios hrun
  simp only [Report.failures, Result.failures, List.forall_mem_flatMap, List.forall_mem_map]
  intro result hresult m hm
  obtain ⟨pair, -, hpair⟩ := exists_answer_mem hresults.flip hresult
  obtain ⟨components, -, rfl⟩ := Scenario.exists_components hpair
  obtain ⟨c, -, rfl⟩ := List.mem_map.mp hm
  have hlt := c.axis.index_lt
  change -3 ≤ (c.axis.index : Int) ∧ (c.axis.index : Int) ≤ 2
  omega

/-- All views of a report of any results tell the same story, and the report of a completed run has a
document. -/
theorem report_views_agree [Machine] (started : Timestamp) :
    (∀ (name : String) (skipped : List String) (results : List (Result Float)),
      (Report.ofResults name skipped results).results = results ∧
        (Report.ofResults name skipped results).ViewsAgree started) ∧
    ∀ (grid : Grid Float) (registry : Registry Float) (tolerance : Tolerance Float) (verbose : Bool)
      (run : Run), Run.ofGrid grid registry tolerance verbose = .ok run →
      run.report.ViewsAgree started ∧ ∃ document, run.report.document started = .ok document := by
  constructor
  · intro name skipped results
    rw [Report.ofResults_eq]
    exact ⟨rfl, Report.viewsAgree _ started⟩
  · intro grid registry tolerance verbose run hrun
    exact ⟨run.report.viewsAgree started,
      (Report.exists_document_iff started).mpr (Run.hasAxis_of_ofGrid hrun)⟩

/-- A result that passed with a number of checks. -/
def Result.counted (checks : Int) : Result Float := ⟨"host", .single 2, checks, []⟩

/-- A result with one mismatch in the last dimension, counted from the end. -/
def Result.missed (backend : String) : Result Float :=
  ⟨backend, .single 2, 6, [⟨0, -1, .position, 0.25, 0.5, 0.125⟩]⟩

/-- Two results of a backend, and between them one of another backend that fails. -/
def Report.interleaved : Report Float :=
  .ofResults "parity" [] [.counted 6, .missed "device", .counted 6]

/-- The moment at which the examples of reports were started. -/
def Timestamp.early : Timestamp := ⟨2024, 1, 2, 3, 4, 5, 0⟩

/-- The numbers of the interleaved report are short. -/
theorem Report.hasShortNumbers_interleaved : interleaved.HasShortNumbers where
  checks := by
    unfold Limits.IsShort
    decide +kernel
  failures := by
    intro f hf
    obtain rfl := List.mem_singleton.mp hf
    constructor <;> unfold Limits.IsShort <;> decide +kernel

section

open Workstation

/-- One of the two rows of the interleaved report fails, and the run of the small grid has a
document. -/
theorem report_views_agree_interleaved :
    Report.interleaved.HasShortNumbers ∧ (Report.interleaved.rows.map Report.Row.scenarios).sum = 3 ∧
      (Report.interleaved.rows.map Report.Row.failed).sum = 1 ∧
      (∃ lines, Report.interleaved.summary = .ok (Text.unlines lines) ∧
        lines[6]? = some "Failures: 1") ∧
      (∃ fault, Report.interleaved.verdict = .error fault ∧ fault.kind = .parity) ∧
      ∃ run, Run.ofGrid .small .both .tight false = .ok run ∧
        ∃ document, run.report.document .early = .ok document := by
  obtain ⟨hreports, hruns⟩ := report_views_agree .early
  obtain ⟨run, hrun⟩ := Run.exists_ofGrid_small
  have hshort := Report.hasShortNumbers_interleaved
  obtain ⟨hresults, hagree⟩ : Report.interleaved.results = _ ∧ Report.interleaved.ViewsAgree .early :=
    hreports "parity" [] [.counted 6, .missed "device", .counted 6]
  obtain ⟨lines, -, -, hsummary, -, hfailures, -⟩ := hagree.summary_lines hshort
  obtain ⟨fault, -, hverdict, hkind, -⟩ := hagree.verdict_message hshort (by decide +kernel)
  refine ⟨hshort, ?_, ?_, ⟨lines, hsummary, hfailures⟩, ⟨fault, hverdict, hkind⟩, run, hrun,
    (hruns _ _ _ _ run hrun).2⟩
  · rw [hagree.scenarios_sum, hresults]
    rfl
  · rw [hagree.failed_sum, hresults]
    rfl

end

/-- Two results whose checks add up to a number with one digit too many. -/
def Report.overlong : Report Float :=
  .ofResults standardName [] [.counted (Nat.pow 10 Decimal.maxDigits - 1), .counted 1]

/-- The overlong total is not short. -/
theorem Report.not_isShort_overlong : ¬ Limits.IsShort overlong.checks := by
  have hlong (n : Nat) : ¬ (0 + ((n : Int) - 1) + 1).natAbs < n := by omega
  have hchecks : overlong.checks = 0 + ((Nat.pow 10 Decimal.maxDigits : Nat) - 1 : Int) + 1 := by
    rw [overlong, ofResults_eq]
    rfl
  rw [hchecks]
  exact hlong _

/-- A report whose checks have one digit too many shows neither its totals nor its rows. -/
theorem summary_eq_error_of_overlong : Report.overlong.summary = .error .tooManyDigits :=
  Report.summary_of_long fun hshort => Report.not_isShort_overlong hshort.checks

end Leapfrog
