import Leapfrog.Proofs.RunResults

/-!
# The log of a run

A run goes through the pairs of a combination and a backend one after the other. A pair gives a
result or a fault on its own; a combination that is no scenario gives its fault at its first pair. A
run therefore ends in one of two ways: all pairs have results, or some pair is the first without
one. In both cases it has recorded the results up to there.

The log of a run so far is its header and one line for each result that did not pass, in the order
of the results; a run that is not to be logged has an empty one. The opening of a run makes it so
and every recorded result keeps it so. It is therefore what a stopped run leaves behind, and a
completed run adds its last line.
-/

namespace Leapfrog

section

variable {β γ φ : Type}

/-- An entry of a list that is the first one without an answer, at a position. -/
structure FailsFirst (run : β → Except φ γ) (values : List β) (p : Nat) (fault : φ) : Prop where
  before : ∀ b ∈ values.take p, ∃ c, run b = .ok c
  fails : ∃ b, values[p]? = some b ∧ run b = .error fault

variable {run : β → Except φ γ} {values : List β} {p : Nat} {fault : φ}

/-- A list is its entries up to the first one without an answer, that one, and the rest. -/
theorem FailsFirst.exists_append (h : FailsFirst run values p fault) :
    ∃ given b rest, values = values.take p ++ b :: rest ∧ run b = .error fault ∧
      List.Forall₂ (fun b c => run b = .ok c) (values.take p) given := by
  obtain ⟨b, hb, hfault⟩ := h.fails
  obtain ⟨hp, rfl⟩ := List.getElem?_eq_some_iff.mp hb
  obtain ⟨given, hgiven⟩ := exists_answers_iff.mpr h.before
  refine ⟨given, values[p], values.drop (p + 1), ?_, hfault, hgiven⟩
  rw [← List.drop_eq_getElem_cons hp, List.take_append_drop]

/-- All entries have answers, or one of them is the first without. -/
theorem answers_or_failsFirst (run : β → Except φ γ) (values : List β) :
    (∃ given, List.Forall₂ (fun b c => run b = .ok c) values given) ∨
      ∃ p fault, FailsFirst run values p fault := by
  induction values with
  | nil => exact .inl ⟨[], .nil⟩
  | cons b rest ih =>
    cases hb : run b with
    | error fault => exact .inr ⟨0, fault, by simp, b, rfl, hb⟩
    | ok c =>
      rcases ih with ⟨given, hgiven⟩ | ⟨p, fault, hbefore, hfails⟩
      · exact .inl ⟨c :: given, .cons hb hgiven⟩
      · refine .inr ⟨p + 1, fault, ?_, hfails⟩
        rw [List.take_succ_cons, List.forall_mem_cons]
        exact ⟨⟨c, hb⟩, hbefore⟩

end

namespace Run

variable {grid : Grid Float} {registry : Registry Float} {tolerance : Tolerance Float}
variable {verbose : Bool}

/-- What a pair gives on its own: a result, or the fault of its combination or of its scenario. -/
def outcome [Machine] (tolerance : Tolerance Float) (pair : Combination Float × Backend Float) :
    Except (Fault Float) (Result Float) :=
  pair.1.scenario >>= fun scenario => scenario.run pair.2 tolerance

/-- A pair added to a run. -/
def visitPair [Machine] (tolerance : Tolerance Float) (verbose : Bool) (r : Run)
    (pair : Combination Float × Backend Float) : Except StoppedRun Run :=
  match outcome tolerance pair with
  | .error fault => .error ⟨r, fault⟩
  | .ok result => .ok (r.recorded verbose result)

/-- A combination on all backends is its pairs one after the other. Without a backend there would be
no pair to find out that it is no scenario. -/
theorem visitAll_eq_foldlM [Machine] {backends : List (Backend Float)} (hsome : backends ≠ [])
    (r : Run) (c : Combination Float) :
    visitAll backends tolerance verbose r c =
      (backends.map fun b => (c, b)).foldlM (visitPair tolerance verbose) r := by
  obtain ⟨first, rest, rfl⟩ := List.exists_cons_of_ne_nil hsome
  unfold visitAll
  cases hscenario : c.scenario with
  | error fault => simp [visitPair, outcome, hscenario, bind, Except.bind]
  | ok scenario =>
    have hvisit : (fun r b => visitPair tolerance verbose r (c, b)) =
        visit tolerance verbose scenario := by
      funext r b
      cases hrun : scenario.run b tolerance <;>
        simp [visit_eq, visitPair, outcome, hscenario, hrun, bind, Except.bind]
    rw [List.foldlM_map, hvisit]

/-- A run goes through the pairs of a combination and a backend. -/
theorem foldlM_visitAll_eq [Machine] (r : Run) :
    grid.foldlM (visitAll registry.backends tolerance verbose) r =
      (grid.combinations ×ˢ registry.backends).foldlM (visitPair tolerance verbose) r := by
  have hvisit : visitAll registry.backends tolerance verbose = fun r c =>
      (registry.backends.map fun b => (c, b)).foldlM (visitPair tolerance verbose) r := by
    funext r c
    exact visitAll_eq_foldlM registry.nonempty r c
  rw [Axes.foldlM_eq, product_eq_flatMap, Axes.foldlM_flatMap, hvisit]

variable {pairs : List (Combination Float × Backend Float)} {results : List (Result Float)}

/-- Pairs that all have results are recorded one after the other. -/
theorem foldlM_visitPair_of_results [Machine]
    (h : List.Forall₂ (fun pair result => outcome tolerance pair = .ok result) pairs results)
    (r : Run) :
    pairs.foldlM (visitPair tolerance verbose) r = .ok (results.foldl (recorded verbose) r) := by
  induction h generalizing r with
  | nil => rfl
  | cons hpair _ ih => simp [visitPair, hpair, ih, bind, Except.bind]

variable (verbose) in
/-- The first pair without a result stops a run that has recorded all pairs before it. -/
theorem foldlM_visitPair_of_failsFirst [Machine] {p : Nat} {fault : Fault Float}
    (h : FailsFirst (outcome tolerance) pairs p fault) :
    ∃ results, List.Forall₂ (fun pair result => outcome tolerance pair = .ok result)
        (pairs.take p) results ∧
      ∀ r : Run, pairs.foldlM (visitPair tolerance verbose) r =
        .error ⟨results.foldl (recorded verbose) r, fault⟩ := by
  obtain ⟨results, pair, rest, hpairs, hfault, hresults⟩ := h.exists_append
  refine ⟨results, hresults, fun r => ?_⟩
  rw [hpairs, List.foldlM_append, foldlM_visitPair_of_results hresults]
  simp [visitPair, hfault, bind, Except.bind]

/-- What a log says before any result: how many scenarios there are and which backends, and in one line
each which backends were not available. -/
def opening (grid : Grid Float) (registry : Registry Float) : List String :=
  ("Leap-frog parity: " ++ Decimal.whole grid.size ++ " scenarios x " ++
    Decimal.whole registry.backends.length ++ " backend(s) (" ++
    ", ".intercalate (registry.backends.map Backend.name) ++ ")") ::
  registry.skipped.map fun name => "  " ++ name ++ " not available, skipping"

/-- What a log says about some results: one line for each of them that has mismatches. -/
def misses (results : List (Result Float)) : List String :=
  (results.filter fun result => !result.mismatches.isEmpty).map fun result =>
    "  FAIL " ++ result.scenario.description result.backend ++ " (" ++
      Decimal.whole result.mismatches.length ++ " component(s))"

/-- What a log says at the end of a run: how many results there are, how many components they have
compared, and whether no result has a mismatch. -/
def closing (results : List (Result Float)) : String :=
  "Done: " ++ Decimal.whole results.length ++ " runs, " ++
    Decimal.whole (results.map Result.checks).sum ++ " checks, " ++
    if ∀ result ∈ results, result.mismatches = [] then "passed" else "FAILED"

/-- The lines for the results of a run so far. -/
def progress (grid : Grid Float) (registry : Registry Float) (results : List (Result Float)) :
    List String :=
  opening grid registry ++ misses results

/-- The first lines of a log are those of its grid and its registry. -/
theorem header_eq (grid : Grid Float) (registry : Registry Float) :
    header grid.size registry.names registry.skipped = opening grid registry := by
  rw [header, Registry.names, List.length_map, opening]

/-- The last line of a log is that of the results of its report. -/
theorem lastLine_eq (r : Report Float) : lastLine r = closing r.results := by
  have hpassed : r.passed = true ↔ ∀ result ∈ r.results, result.mismatches = [] := by
    simp [Report.passed, Result.passed, List.all_eq_true]
  rw [lastLine, closing, checks_eq_sum, if_congr hpassed rfl rfl]

/-- A run on the backends of a registry whose log shows its results so far, if it has a log. -/
structure IsLogged (grid : Grid Float) (registry : Registry Float) (verbose : Bool) (r : Run) :
    Prop where
  name : r.report.name = Report.standardName
  skipped : r.report.skipped = registry.skipped
  log : r.log = if verbose then progress grid registry r.report.results else []

/-- The log still shows the results when one of them is recorded. -/
theorem IsLogged.recorded {r : Run} (h : r.IsLogged grid registry verbose) (result : Result Float) :
    (r.recorded verbose result).IsLogged grid registry verbose := by
  refine ⟨h.name, h.skipped, ?_⟩
  rw [Run.recorded, h.log, Report.add]
  cases verbose <;> cases hpassed : result.mismatches.isEmpty <;>
    simp [progress, misses, Result.passed, failText, hpassed]

/-- The log still shows the results when any number of them are recorded. -/
theorem IsLogged.foldl_recorded {r : Run} (h : r.IsLogged grid registry verbose)
    (results : List (Result Float)) :
    (results.foldl (Run.recorded verbose) r).IsLogged grid registry verbose := by
  induction results generalizing r with
  | nil => exact h
  | cons result rest ih => exact ih (h.recorded result)

/-- A run is opened with the header in its log, if it has one. Only a size that cannot be counted is
refused, before anything is logged. -/
theorem opened_cases (grid : Grid Float) (registry : Registry Float) (verbose : Bool) :
    (∃ first, opened grid registry verbose = .ok first ∧ first.IsLogged grid registry verbose ∧
      first.report.results = []) ∨
    ∃ stopped, opened grid registry verbose = .error stopped ∧ verbose = true ∧
      grid.length = .error stopped.fault ∧ stopped.log = [] ∧ stopped.report.results = [] := by
  unfold opened
  cases verbose with
  | false => exact .inl ⟨_, rfl, ⟨rfl, rfl, rfl⟩, rfl⟩
  | true =>
    dsimp only
    cases hlength : grid.length with
    | error fault => exact .inr ⟨_, rfl, rfl, rfl, rfl, rfl⟩
    | ok size =>
      have hsize : size = grid.size := by
        unfold Grid.length at hlength
        split at hlength
        · exact (Except.ok.inj hlength).symm
        · cases hlength
      refine .inl ⟨_, rfl, ⟨rfl, rfl, ?_⟩, rfl⟩
      rw [hsize, header_eq]
      simp [say, progress, misses]

variable [Machine]

/-- A run all of whose pairs have results records them and adds its last line. -/
theorem ofGrid_of_results {first : Run}
    (hfirst : opened grid registry verbose = .ok first)
    (h : List.Forall₂ (fun pair result => outcome tolerance pair = .ok result)
      (grid.combinations ×ˢ registry.backends) results) :
    let last := results.foldl (recorded verbose) first
    ofGrid grid registry tolerance verbose = .ok (last.say verbose [lastLine last.report]) := by
  rw [ofGrid, hfirst]
  change (grid.foldlM (visitAll registry.backends tolerance verbose) first >>= _) = _
  rw [foldlM_visitAll_eq, foldlM_visitPair_of_results h]
  rfl

/-- A run is stopped at the first pair without a result, with the results before it recorded. -/
theorem ofGrid_of_failsFirst {first : Run}
    (hfirst : opened grid registry verbose = .ok first)
    {p : Nat} {fault : Fault Float}
    (h : FailsFirst (outcome tolerance) (grid.combinations ×ˢ registry.backends) p fault) :
    ∃ results, List.Forall₂ (fun pair result => outcome tolerance pair = .ok result)
        ((grid.combinations ×ˢ registry.backends).take p) results ∧
      ofGrid grid registry tolerance verbose =
        .error ⟨results.foldl (recorded verbose) first, fault⟩ := by
  obtain ⟨results, hresults, hfold⟩ := foldlM_visitPair_of_failsFirst verbose h
  refine ⟨results, hresults, ?_⟩
  rw [ofGrid, hfirst]
  change (grid.foldlM (visitAll registry.backends tolerance verbose) first >>= _) = _
  rw [foldlM_visitAll_eq, hfold]
  rfl

/-- What a run leaves behind: a completed one has its last line after its progress, a stopped one
has its progress so far, or nothing if its scenarios could not be counted. -/
theorem log_ofGrid :
    (∀ run, ofGrid grid registry tolerance verbose = .ok run →
      run.report.name = Report.standardName ∧ run.report.skipped = registry.skipped ∧
      run.log = if verbose then
          progress grid registry run.report.results ++ [closing run.report.results]
        else []) ∧
    ∀ stopped, ofGrid grid registry tolerance verbose = .error stopped →
      stopped.toRun.IsLogged grid registry verbose ∨
        verbose = true ∧ grid.length = .error stopped.fault ∧ stopped.log = [] ∧
          stopped.report.results = [] := by
  rcases opened_cases grid registry verbose with
    ⟨first, hopened, hlogged, -⟩ | ⟨stopped, hopened, hrest⟩
  · rcases answers_or_failsFirst (outcome tolerance) (grid.combinations ×ˢ registry.backends) with
      ⟨results, hresults⟩ | ⟨p, fault, hfails⟩
    · rw [ofGrid_of_results hopened hresults]
      refine ⟨fun run hrun => ?_, fun stopped hstopped => (nomatch hstopped)⟩
      obtain ⟨hname, hskipped, hlog⟩ := hlogged.foldl_recorded results
      rw [← Except.ok.inj hrun, report_say, ← lastLine_eq]
      refine ⟨hname, hskipped, ?_⟩
      unfold say
      cases verbose with
      | false => exact hlog
      | true => exact congrArg (· ++ [lastLine _]) hlog
    · obtain ⟨results, -, hrun⟩ := ofGrid_of_failsFirst hopened hfails
      rw [hrun]
      refine ⟨fun run hrun => (nomatch hrun), fun stopped hstopped => .inl ?_⟩
      rw [← Except.error.inj hstopped]
      exact hlogged.foldl_recorded results
  · rw [ofGrid, hopened]
    refine ⟨fun run hrun => (nomatch hrun), fun stopped' hstopped' => .inr ?_⟩
    rw [← Except.error.inj hstopped']
    exact hrest

/-- A run that is stopped has logged its progress, if it has logged anything. -/
theorem log_of_stopped {stopped : StoppedRun}
    (h : ofGrid grid registry tolerance verbose = .error stopped) :
    stopped.log = [] ∨
      verbose = true ∧ stopped.log = progress grid registry stopped.report.results := by
  rcases log_ofGrid.2 stopped h with hlogged | ⟨-, -, hnone, -⟩
  · cases verbose with
    | false => exact .inl hlogged.log
    | true => exact .inr ⟨rfl, hlogged.log⟩
  · exact .inl hnone

end Run

end Leapfrog
