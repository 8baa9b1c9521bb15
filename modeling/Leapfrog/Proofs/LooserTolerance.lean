import Leapfrog.Proofs.CalibrationCurve
import Leapfrog.Proofs.RoundedProducts
import Leapfrog.Proofs.RunCompletion
import Leapfrog.Proofs.RunVerdict

/-!
# A looser tolerance

A run at a looser tolerance finds nothing that the same run at a tighter one does not find: the
bound after any number of steps is no smaller, also where it is rounded, is zero or is infinite, and
what is within a bound is within every larger one. So the mismatches of each pair of a scenario and
a backend become fewer or stay, in the same order and with the same values, and whatever passes
keeps passing.
-/

namespace Leapfrog

/-- A looser tolerance has no smaller bound after any number of steps. -/
theorem Tolerance.bound_mono {tight loose : Tolerance Float}
    (h : Scalar.le tight.epsilon loose.epsilon = true) {n : Nat}
    (hn : Scalar.isFinite (Scalar.ofInt n : Float) = true) :
    Scalar.le (Scalar.ofInt n * tight.epsilon) (Scalar.ofInt n * loose.epsilon) = true := by
  have hfinite (t : Tolerance Float) : t.epsilon.isFinite = true :=
    (Bool.and_eq_true_iff.mp t.epsilon_nonnegative).1
  exact Scalar.mul_le_mul_left (zero_le_ofInt hn) tight.zero_le_epsilon h hn (hfinite tight)
    (hfinite loose)

/-- A component that misses a bound misses every smaller one. -/
theorem Component.misses_of_le {bound bound' : Float} (h : Scalar.le bound bound' = true)
    {c : Component Float} (hc : c.misses bound' = true) : c.misses bound = true := by
  rw [misses, Bool.not_eq_true'] at *
  by_contra hwithin
  rw [Bool.not_eq_false] at hwithin
  rw [isWithin, Scalar.le_trans hwithin h] at hc
  cases hc

/-- A mismatch without the bound that it was found at. -/
def Mismatch.withoutBound {α : Type} (m : Mismatch α) : Int × Int × Quantity × α × α :=
  (m.atom, m.dimension, m.quantity, m.actual, m.expected)

namespace Result

/-- What a looser tolerance makes of a result: the same pair and the same checks, and no mismatch
that was not there. -/
structure Loosens (tight loose : Result Float) : Prop where
  backend : loose.backend = tight.backend
  scenario : loose.scenario = tight.scenario
  checks : loose.checks = tight.checks
  mismatches : (loose.mismatches.map Mismatch.withoutBound).Sublist
    (tight.mismatches.map Mismatch.withoutBound)

variable {tight loose : Result Float}

/-- There are no more mismatches than before. -/
theorem Loosens.length_le (h : tight.Loosens loose) :
    loose.mismatches.length ≤ tight.mismatches.length := by
  simpa using h.mismatches.length_le

/-- A result that passed passes. -/
theorem Loosens.passed (h : tight.Loosens loose) (hpassed : tight.passed = true) :
    loose.passed = true := by
  rw [Result.passed, List.isEmpty_iff_length_eq_zero] at *
  exact Nat.le_zero.mp (hpassed ▸ h.length_le)

end Result

/-- The same components give a result that a looser tolerance loosens. -/
theorem Scenario.loosens_resultOf (scenario : Scenario Float) (b : Backend Float)
    (components : List (Component Float)) {tight loose : Tolerance Float}
    (h : Scalar.le tight.epsilon loose.epsilon = true)
    (hsteps : Scalar.isFinite (Scalar.ofInt scenario.steps : Float) = true) :
    (scenario.resultOf b tight components).Loosens (scenario.resultOf b loose components) := by
  have hbound := Tolerance.bound_mono h hsteps
  have hwithout (bound : Float) : Mismatch.withoutBound ∘ Component.mismatch bound =
      fun c => ((c.atom : Int), (c.axis.index : Int), c.quantity, c.actual, c.expected) := rfl
  refine ⟨rfl, rfl, rfl, ?_⟩
  simp only [resultOf, List.map_map, hwithout]
  exact (List.monotone_filter_right components fun _ => Component.misses_of_le hbound).map _

/-- A scenario that runs at one tolerance runs at every tolerance. -/
theorem Scenario.exists_run_of_run [Machine] {scenario : Scenario Float} {b : Backend Float}
    {tolerance : Tolerance Float} {result : Result Float}
    (h : scenario.run b tolerance = .ok result) (other : Tolerance Float) :
    ∃ result', scenario.run b other = .ok result' := by
  have hsteps := isFinite_steps_of_run h
  obtain ⟨start, hstart, last, hlast, mismatches, hcheck, -⟩ := Scenario.run_eq_ok_iff.mp h
  obtain ⟨reference, hreference, -⟩ := Simulation.check_eq_ok_iff.mp hcheck
  have hbound := Tolerance.bound_whole hsteps other
  exact ⟨_, Scenario.run_eq_ok_iff.mpr ⟨start, hstart, last, hlast, _,
    Simulation.check_eq_ok_iff.mpr ⟨reference, hreference, _, hbound, rfl⟩, rfl⟩⟩

namespace Run

variable {grid : Grid Float} {registry : Registry Float} {tight loose : Tolerance Float}
variable {verbose verbose' : Bool} {run run' : Run}

/-- A run that completes at one tolerance completes at every tolerance. -/
theorem exists_ofGrid_of_ofGrid [Machine] (h : ofGrid grid registry tight verbose = .ok run)
    (other : Tolerance Float) : ∃ run', ofGrid grid registry other verbose = .ok run' := by
  obtain ⟨scenarios, hscenarios, -, -⟩ := exists_scenarios h
  obtain ⟨hopened, hresults⟩ := (exists_ofGrid_iff hscenarios).mp ⟨run, h⟩
  refine (exists_ofGrid_iff hscenarios).mpr ⟨hopened, fun s hs b hb => ?_⟩
  obtain ⟨result, hresult⟩ := hresults s hs b hb
  exact s.exists_run_of_run hresult other

/-- Two runs of one grid on one registry have the results of the same pairs in the same order. -/
theorem forall₂_loosens [Machine] (h : Scalar.le tight.epsilon loose.epsilon = true)
    (hrun : ofGrid grid registry tight verbose = .ok run)
    (hrun' : ofGrid grid registry loose verbose' = .ok run') :
    List.Forall₂ Result.Loosens run.report.results run'.report.results := by
  obtain ⟨scenarios, hscenarios, -, hpairs⟩ := exists_scenarios hrun
  obtain ⟨scenarios', hscenarios', -, hpairs'⟩ := exists_scenarios hrun'
  obtain rfl := (Prod.mk.inj (hscenarios.symm.trans hscenarios')).1
  rw [(results_eq hpairs).2, (results_eq hpairs').2, List.forall₂_map_left_iff,
    List.forall₂_map_right_iff, List.forall₂_same]
  intro pair hpair
  obtain ⟨result, -, hresult⟩ := exists_answer_mem hpairs hpair
  exact pair.1.loosens_resultOf pair.2 _ h (Scenario.isFinite_steps_of_run hresult)

end Run

namespace Report

variable {results results' : List (Result Float)}

/-- Where every result is loosened and all of them passed, all of them pass. -/
theorem all_passed_of_loosens (h : List.Forall₂ Result.Loosens results results')
    (hpassed : results.all Result.passed = true) : results'.all Result.passed = true := by
  induction h with
  | nil => rfl
  | cons hfirst _ ih =>
    rw [List.all_cons, Bool.and_eq_true] at *
    exact ⟨hfirst.passed hpassed.1, ih hpassed.2⟩

/-- Where every result is loosened there are no more failures. -/
theorem length_failures_le_of_loosens (h : List.Forall₂ Result.Loosens results results') :
    (results'.flatMap Result.failures).length ≤ (results.flatMap Result.failures).length := by
  induction h with
  | nil => exact le_rfl
  | cons hfirst _ ih =>
    rw [List.flatMap_cons, List.flatMap_cons, List.length_append, List.length_append]
    refine Nat.add_le_add ?_ ih
    simpa [Result.failures] using hfirst.length_le

/-- Where every result is loosened no more of them fail. -/
theorem failed_le_of_loosens (h : List.Forall₂ Result.Loosens results results') :
    failed results' ≤ failed results := by
  induction h with
  | nil => exact le_rfl
  | @cons tight loose _ _ hfirst _ ih =>
    rw [failed, failed, List.countP_cons, List.countP_cons]
    refine Nat.add_le_add ih ?_
    cases hpassed : tight.passed with
    | true => simp [hfirst.passed hpassed]
    | false => split <;> simp

end Report

/-- A looser tolerance never creates a failure: every result that it leaves behind has at most the
mismatches of the tighter one, and results and reports that passed still pass. -/
theorem looser_tolerance_keeps_what_passes [Machine] {grid : Grid Float} {registry : Registry Float}
    {tight loose : Tolerance Float} {verbose verbose' : Bool} {run run' : Run}
    (h : Scalar.le tight.epsilon loose.epsilon = true)
    (hrun : Run.ofGrid grid registry tight verbose = .ok run)
    (hrun' : Run.ofGrid grid registry loose verbose' = .ok run') :
    (∃ scenarios, grid.scenarios = (scenarios, none) ∧
      ∀ k j scenario backend, scenarios[k]? = some scenario →
        registry.backends[j]? = some backend →
        ∃ result result', run.report.results[k * registry.backends.length + j]? = some result ∧
          run'.report.results[k * registry.backends.length + j]? = some result' ∧
          scenario.run backend tight = .ok result ∧ scenario.run backend loose = .ok result' ∧
          result.Loosens result' ∧ (result.passed = true → result'.passed = true)) ∧
    (run.report.passed = true → run'.report.passed = true) ∧
    run'.report.failures.length ≤ run.report.failures.length ∧
    Report.failed run'.report.results ≤ Report.failed run.report.results := by
  have hloosens := Run.forall₂_loosens h hrun hrun'
  obtain ⟨scenarios, hscenarios, -, hpairs⟩ := Run.exists_scenarios hrun
  obtain ⟨scenarios', hscenarios', -, hpairs'⟩ := Run.exists_scenarios hrun'
  obtain rfl := (Prod.mk.inj (hscenarios.symm.trans hscenarios')).1
  refine ⟨⟨scenarios, hscenarios, ?_⟩, Report.all_passed_of_loosens hloosens,
    Report.length_failures_le_of_loosens hloosens, Report.failed_le_of_loosens hloosens⟩
  intro k j scenario backend hk hj
  obtain ⟨result, hresult, hanswer⟩ := Run.exists_result hpairs hk hj
  obtain ⟨result', hresult', hanswer'⟩ := Run.exists_result hpairs' hk hj
  obtain ⟨other, hother, hloose⟩ := exists_answer hloosens hresult
  obtain rfl := Option.some.inj (hresult'.symm.trans hother)
  exact ⟨result, result', hresult, hresult', hanswer, hanswer', hloose, hloose.passed⟩

/-- A tolerance that all components of the small grid keep. -/
def Tolerance.wide : Tolerance Float := ⟨8, by decide +kernel⟩

open Workstation

/-- The small grid at the wide tolerance has no more failures than at the tight one. -/
theorem looser_tolerance_keeps_what_passes_small :
    ∃ run run', Run.ofGrid .small .both .tight false = .ok run ∧
      Run.ofGrid .small .both .wide false = .ok run' ∧
      run'.report.failures.length ≤ run.report.failures.length := by
  obtain ⟨run, hrun⟩ := Run.exists_ofGrid_small
  obtain ⟨run', hrun'⟩ := Run.exists_ofGrid_of_ofGrid hrun .wide
  obtain ⟨-, -, hfailures, -⟩ := looser_tolerance_keeps_what_passes (by decide +kernel) hrun hrun'
  exact ⟨run, run', hrun, hrun', hfailures⟩

end Leapfrog
