import Leapfrog.Proofs.RunCompletion
import Leapfrog.Proofs.RunLog

/-!
# The progress log

Whether all pairs of a combination and a backend have results or some pair is the first without one,
what a run has logged is known from the pairs alone, line by line, and its report does not depend on
whether anything is logged.

A log starts with the size of the grid. A grid whose size cannot be counted stops a run that is to
be logged before its first pair.
-/

namespace Leapfrog

namespace Run

variable {grid : Grid Float} {registry : Registry Float} {tolerance : Tolerance Float}
variable {verbose : Bool}
variable {pairs : List (Combination Float × Backend Float)} {results : List (Result Float)}

/-- The line of a pair in a log: one that says how many components have failed, if any have. -/
def failLine? [Machine] (tolerance : Tolerance Float) (pair : Combination Float × Backend Float) :
    Option String :=
  match pair.1.scenario with
  | .error _ => none
  | .ok scenario =>
    match scenario.run pair.2 tolerance with
    | .error _ => none
    | .ok result =>
      if result.mismatches = [] then none
      else some ("  FAIL " ++ scenario.description pair.2.name ++ " (" ++
        Decimal.whole result.mismatches.length ++ " component(s))")

/-- What is left of a run that has recorded some results: a report that holds them, and a log that
shows them. -/
structure Holds (grid : Grid Float) (registry : Registry Float) (verbose : Bool)
    (results : List (Result Float)) (r : Run) : Prop where
  report : r.report = ⟨Report.standardName, registry.skipped, results⟩
  log : r.log = if verbose then progress grid registry results else []

/-- A run that is opened holds the results that are recorded. -/
theorem holds_of_opened {first : Run} (h : opened grid registry verbose = .ok first)
    (results : List (Result Float)) :
    (results.foldl (recorded verbose) first).Holds grid registry verbose results := by
  rcases opened_cases grid registry verbose with
    ⟨first', hfirst', hlogged, hnone⟩ | ⟨_, hstopped, -⟩
  · obtain rfl := Except.ok.inj (h.symm.trans hfirst')
    obtain ⟨hname, hskipped, hlog⟩ := hlogged.foldl_recorded results
    have hresults : (results.foldl (recorded verbose) first).report.results = results := by
      rw [results_foldl_recorded, hnone, List.nil_append]
    rw [hresults] at hlog
    exact ⟨congr (congr (congrArg Report.mk hname) hskipped) hresults, hlog⟩
  · cases h.symm.trans hstopped

variable [Machine]

/-- The line of a pair with a result is that of the result. -/
theorem failLine?_of_outcome {pair : Combination Float × Backend Float}
    {result : Result Float}
    (h : outcome tolerance pair = .ok result) :
    failLine? tolerance pair = (misses [result]).head? := by
  obtain ⟨scenario, hscenario, hrun⟩ := bind_eq_ok_iff.mp h
  obtain ⟨start, -, last, -, mismatches, -, hresult⟩ := Scenario.run_eq_ok_iff.mp hrun
  simp only [failLine?, hscenario, hrun]
  rw [← hresult]
  cases mismatches <;> simp [misses]

/-- The lines for some results are those of their pairs. -/
theorem misses_eq
    (h : List.Forall₂ (fun pair result => outcome tolerance pair = .ok result) pairs results) :
    misses results = pairs.filterMap (failLine? tolerance) := by
  induction h with
  | nil => rfl
  | @cons pair result _ _ hpair _ ih =>
    unfold misses at ih
    cases hmissed : result.mismatches.isEmpty <;>
      simp [failLine?_of_outcome hpair, misses, hmissed, ih]

/-- A run completes exactly if it is opened and no pair is the first without a result. -/
theorem exists_ofGrid_iff_pairs :
    (∃ run, ofGrid grid registry tolerance verbose = .ok run) ↔
      (∃ first, opened grid registry verbose = .ok first) ∧
        ¬ ∃ p fault,
          FailsFirst (outcome tolerance) (grid.combinations ×ˢ registry.backends) p fault := by
  constructor
  · rintro ⟨run, hrun⟩
    obtain ⟨first, hfirst, -⟩ := ofGrid_eq_ok_iff.mp hrun
    refine ⟨⟨first, hfirst⟩, ?_⟩
    rintro ⟨p, fault, hfails⟩
    obtain ⟨_, -, hstopped⟩ := ofGrid_of_failsFirst hfirst hfails
    cases hrun.symm.trans hstopped
  · rintro ⟨⟨first, hfirst⟩, hnone⟩
    obtain ⟨results, hresults⟩ := (answers_or_failsFirst _ _).resolve_right hnone
    exact ⟨_, ofGrid_of_results hfirst hresults⟩

/-- A completed run holds the results of all pairs and has written its last line. -/
theorem exists_results_of_ofGrid {run : Run}
    (h : ofGrid grid registry tolerance verbose = .ok run) :
    ∃ results, List.Forall₂ (fun pair result => outcome tolerance pair = .ok result)
        (grid.combinations ×ˢ registry.backends) results ∧
      ∃ last : Run, last.Holds grid registry verbose results ∧
        run = last.say verbose [lastLine last.report] := by
  obtain ⟨⟨first, hfirst⟩, hnone⟩ := exists_ofGrid_iff_pairs.mp ⟨run, h⟩
  obtain ⟨results, hresults⟩ := (answers_or_failsFirst _ _).resolve_right hnone
  exact ⟨results, hresults, _, holds_of_opened hfirst results,
    Except.ok.inj (h.symm.trans (ofGrid_of_results hfirst hresults))⟩

/-- Where the scenarios cannot be counted, a run that is to be logged is stopped at once. -/
theorem ofGrid_of_uncountable (h : ¬ grid.size < Limits.bound) :
    ∃ stopped, ofGrid grid registry tolerance true = .error stopped ∧
      stopped.fault = .sizeTooLarge ∧ stopped.log = [] := by
  rcases opened_cases grid registry true with
    ⟨first, hfirst, -⟩ | ⟨stopped, hstopped, -, -, hlog, -⟩
  · exact absurd (exists_opened_iff.mp ⟨first, hfirst⟩ rfl) h
  · refine ⟨stopped, ?_, fault_of_opened hstopped, hlog⟩
    rw [ofGrid, hstopped]
    rfl

end Run

/-- The progress log is an exact record of a run. It starts with the number of scenarios, the number
of backends and their names, and with one line for each backend that was not available. If the run
completes, all pairs have results, which are those of its report; a line for each failing pair follows
in their order, and then a line with the number of results, the number of their checks and the word for
whether none of them has a mismatch; and the run without a log has the same report. If some pair is the
first without a result, the run is stopped with its fault, and the log ends with the lines of the
failing pairs before it. Nothing else stops a run, except that a grid of too many scenarios to count has
no first line: then the fault is met before the first pair, and nothing is logged. -/
theorem progress_log_exact [Machine] (grid : Grid Float) (registry : Registry Float)
    (tolerance : Tolerance Float) :
    let pairs := grid.combinations ×ˢ registry.backends
    let header :=
      ("Leap-frog parity: " ++ Decimal.whole grid.size ++ " scenarios x " ++
        Decimal.whole registry.backends.length ++ " backend(s) (" ++
        ", ".intercalate (registry.backends.map Backend.name) ++ ")") ::
      registry.skipped.map fun name => "  " ++ name ++ " not available, skipping"
    let done (results : List (Result Float)) :=
      "Done: " ++ Decimal.whole results.length ++ " runs, " ++
        Decimal.whole (results.map Result.checks).sum ++ " checks, " ++
        if ∀ result ∈ results, result.mismatches = [] then "passed" else "FAILED"
    (∀ run, Run.ofGrid grid registry tolerance true = .ok run →
      List.Forall₂ (fun pair result => Run.outcome tolerance pair = .ok result) pairs
        run.report.results ∧
      run.log =
        header ++ pairs.filterMap (Run.failLine? tolerance) ++ [done run.report.results] ∧
      ∃ quiet, Run.ofGrid grid registry tolerance false = .ok quiet ∧ quiet.log = [] ∧
        quiet.report = run.report) ∧
    (∀ p fault, FailsFirst (Run.outcome tolerance) pairs p fault →
      ∃ stopped, Run.ofGrid grid registry tolerance true = .error stopped ∧
        if grid.size < Limits.bound then
          stopped.fault = fault ∧
            stopped.log = header ++ (pairs.take p).filterMap (Run.failLine? tolerance)
        else stopped.fault = .sizeTooLarge ∧ stopped.log = []) ∧
    ((∃ run, Run.ofGrid grid registry tolerance true = .ok run) ↔
      grid.size < Limits.bound ∧ ¬ ∃ p fault, FailsFirst (Run.outcome tolerance) pairs p fault) ∧
    ((∃ run, Run.ofGrid grid registry tolerance false = .ok run) ↔
      ¬ ∃ p fault, FailsFirst (Run.outcome tolerance) pairs p fault) := by
  intro pairs header done
  have hquiet : ∃ first, Run.opened grid registry false = .ok first :=
    Run.exists_opened_iff.mpr nofun
  refine ⟨fun run hrun => ?_, fun p fault hfails => ?_, ?_, ?_⟩
  · obtain ⟨results, hresults, last, ⟨hreport, hlog⟩, rfl⟩ := Run.exists_results_of_ofGrid hrun
    obtain ⟨first, hfirst⟩ := hquiet
    obtain ⟨hsame, hnothing⟩ := Run.holds_of_opened hfirst results
    refine ⟨?_, ?_, _, Run.ofGrid_of_results hfirst hresults, hnothing, ?_⟩
    · rw [Run.report_say, hreport]
      exact hresults
    · rw [if_pos rfl, Run.progress, Run.misses_eq hresults] at hlog
      rw [Run.report_say, Run.say, if_pos rfl, Run.lastLine_eq, hlog]
      rfl
    · rw [Run.report_say, Run.report_say, hsame, hreport]
  · by_cases hsize : grid.size < Limits.bound
    · obtain ⟨first, hfirst⟩ := Run.exists_opened_iff.mpr fun _ : true = true => hsize
      obtain ⟨results, hresults, hstopped⟩ := Run.ofGrid_of_failsFirst hfirst hfails
      obtain ⟨-, hlog⟩ := Run.holds_of_opened hfirst results
      rw [if_pos rfl, Run.progress, Run.misses_eq hresults] at hlog
      exact ⟨_, hstopped, by rw [if_pos hsize]; exact ⟨rfl, hlog⟩⟩
    · obtain ⟨stopped, hstopped, hrest⟩ := Run.ofGrid_of_uncountable hsize
      exact ⟨stopped, hstopped, by rwa [if_neg hsize]⟩
  · rw [Run.exists_ofGrid_iff_pairs, Run.exists_opened_iff]
    simp only [forall_const, pairs]
  · rw [Run.exists_ofGrid_iff_pairs]
    exact and_iff_right hquiet

/-- One atom that is pushed for two steps: first of a half, then of a length that leaves no finite
square of the time. -/
def Grid.interrupted : Grid Float where
  atoms := [.whole 1]
  timesteps := [.scalar 0.5, .scalar 1e200]
  vx := [1]
  vy := [0]
  vz := [0]
  fx := [2]
  fy := [0]
  fz := [-1]
  steps := [.whole 2]
  nonempty := by decide

open Workstation

/-- The first scenario of the interrupted grid has a result on both backends, and the second has
none on the first. -/
theorem Run.failsFirst_interrupted :
    FailsFirst (outcome .tight) (Grid.interrupted.combinations ×ˢ Registry.both.backends) 2
      .timeTooLarge := by
  have hbefore : ∀ pair ∈ (Grid.interrupted.combinations ×ˢ Registry.both.backends).take 2,
      (outcome .tight pair).toBool = true := by decide +kernel
  have hthird : (Grid.interrupted.combinations ×ˢ Registry.both.backends)[2]?.map (outcome .tight) =
      some (.error .timeTooLarge) := by decide +kernel
  exact ⟨fun pair hpair => exists_ok_of_toBool (hbefore pair hpair),
    Option.map_eq_some_iff.mp hthird⟩

/-- When the interrupted run is stopped, it has written its header and the lines of those of its
first two pairs that fail. The log of the small grid ends with the totals of its report. -/
theorem progress_log_exact_interrupted :
    (∃ stopped, Run.ofGrid .interrupted .both .tight true = .error stopped ∧
      stopped.fault = .timeTooLarge ∧
      stopped.log = "Leap-frog parity: 2 scenarios x 2 backend(s) (host, warp-cpu)" ::
        ((Grid.interrupted.combinations ×ˢ Registry.both.backends).take 2).filterMap
          (Run.failLine? .tight)) ∧
    ∃ run, Run.ofGrid .small .both .tight true = .ok run ∧ run.report.results.length = 4 ∧
      (∃ word ∈ ["passed", "FAILED"],
        run.log.getLast? = some ("Done: 4 runs, 48 checks, " ++ word)) ∧
      ∃ quiet, Run.ofGrid .small .both .tight false = .ok quiet ∧ quiet.report = run.report := by
  have hinterrupted : Grid.interrupted.size < Limits.bound := by decide
  have hsmall : Grid.small.size < Limits.bound := by decide
  have hheader : Run.opening Grid.interrupted Registry.both =
      ["Leap-frog parity: 2 scenarios x 2 backend(s) (host, warp-cpu)"] := by decide +kernel
  constructor
  · obtain ⟨-, hstops, -, -⟩ := progress_log_exact .interrupted .both .tight
    obtain ⟨stopped, hstopped, hrest⟩ := hstops 2 .timeTooLarge Run.failsFirst_interrupted
    rw [if_pos hinterrupted] at hrest
    exact ⟨stopped, hstopped, hrest.1, hrest.2.trans (congrArg (· ++ _) hheader)⟩
  · obtain ⟨hcompletes, -, hverbose, hquiet⟩ := progress_log_exact .small .both .tight
    obtain ⟨run, hrun⟩ := hverbose.mpr ⟨hsmall, hquiet.mp Run.exists_ofGrid_small⟩
    obtain ⟨hresults, hlog, quiet, hsame, -, hreport⟩ := hcompletes run hrun
    refine ⟨run, hrun, hresults.length_eq.symm, ?_, quiet, hsame, hreport⟩
    have hchecks : (Run.ofGrid .small .both .tight false).toOption.map
        (fun run => (run.report.results.map Result.checks).sum) = some 48 := by decide +kernel
    have hlength : run.report.results.length = 4 := hresults.length_eq.symm
    rw [hsame] at hchecks
    have hsum : (run.report.results.map Result.checks).sum = 48 := by
      rw [← hreport]
      exact Option.some.inj hchecks
    rw [hlog, List.getLast?_concat]
    dsimp only
    rw [hlength, hsum]
    split
    · exact ⟨"passed", by simp, rfl⟩
    · exact ⟨"FAILED", by simp, rfl⟩

end Leapfrog
