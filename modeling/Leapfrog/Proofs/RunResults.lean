import Leapfrog.Backend.Device
import Leapfrog.Backend.Host
import Leapfrog.Proofs.ShortNumbers
import Leapfrog.Run
import Mathlib.Tactic.Ring

/-!
# The results of a run

A run that completes has formed every scenario of its grid and has recorded one result for each pair
of a scenario and a backend: the result that the pair gives on its own, at the place that the pair
has in the order of the run. What was recorded before plays no part.
-/

namespace Leapfrog

section

variable {α : Type}

/-- There are as many combinations as the lengths of the axes say. -/
theorem Axes.length_combinations (a : Axes α) : a.combinations.length = a.size := by
  simp only [combinations, List.length_flatMap, List.length_map, List.map_const',
    List.sum_replicate_nat, size, lengths, List.foldl_cons, List.foldl_nil]
  ring

/-- A grid has at least one scenario. -/
theorem Grid.size_pos (g : Grid α) : 0 < g.size := by
  have hpos : ∀ (axes : List (String × Nat)) (n : Nat), 0 < n → (∀ axis ∈ axes, axis.2 ≠ 0) →
      0 < axes.foldl (fun n axis => n * axis.2) n := by
    intro axes
    induction axes with
    | nil => exact fun n hn _ => hn
    | cons axis rest ih =>
      intro n hn haxes
      have haxis : 0 < axis.2 := Nat.pos_of_ne_zero (haxes axis List.mem_cons_self)
      exact ih _ (Nat.mul_pos hn haxis) fun other h => haxes other (List.mem_cons_of_mem _ h)
  exact hpos g.lengths 1 Nat.one_pos g.nonempty

/-- Combinations that are all scenarios. -/
theorem Combination.scenarios_eq [Scalar α] {cs : List (Combination α)} {ss : List (Scenario α)}
    (h : List.Forall₂ (fun c s => c.scenario = .ok s) cs ss) :
    Combination.scenarios cs = (ss, none) := by
  induction h with
  | nil => rfl
  | cons hc _ ih => rw [Combination.scenarios, hc, ih]

/-- Where there is no fault, all combinations are scenarios. -/
theorem Combination.forall₂_scenarios [Scalar α] {cs : List (Combination α)} {ss : List (Scenario α)}
    (h : scenarios cs = (ss, none)) : List.Forall₂ (fun c s => c.scenario = .ok s) cs ss := by
  induction cs generalizing ss with
  | nil =>
    obtain rfl := (Prod.mk.inj h).1
    exact .nil
  | cons c rest ih =>
    rw [scenarios] at h
    cases hc : c.scenario with
    | error fault =>
      rw [hc] at h
      cases (Prod.mk.inj h).2
    | ok s =>
      rw [hc] at h
      obtain ⟨rfl, hrest⟩ := Prod.mk.inj h
      exact .cons hc (ih (Prod.ext rfl hrest))

end

namespace Run

variable {backends : List (Backend Float)} {tolerance : Tolerance Float} {verbose : Bool}

/-- The line for a result that did not pass, as it is written. -/
def failText (result : Result Float) : String :=
  "  FAIL " ++ result.scenario.description result.backend ++ " (" ++
    Decimal.whole result.mismatches.length ++ " component(s))"

/-- A run with one more result in its report, and with a line in its log if the result did not
pass. -/
def recorded (verbose : Bool) (r : Run) (result : Result Float) : Run where
  report := r.report.add result
  log := r.log ++ if verbose && !result.passed then [failText result] else []

/-- The result of a scenario that has run can be written, so it is recorded. -/
theorem record_of_run [Machine] {scenario : Scenario Float} {backend : Backend Float}
    {result : Result Float} (h : scenario.run backend tolerance = .ok result) (r : Run) :
    r.record verbose result = .ok (r.recorded verbose result) := by
  obtain ⟨_, -, _, -, _, -, hresult⟩ := Scenario.run_eq_ok_iff.mp h
  have hscenario : result.scenario = scenario := by rw [← hresult]
  have hline : failureLine result = .ok (failText result) := by
    rw [failureLine, hscenario, Scenario.describe_of_short (Scenario.hasShortCounts_of_run h),
      failText, hscenario]
    rfl
  unfold record recorded
  cases verbose <;> cases hpassed : result.passed <;> simp [hline, say]

/-- A pair that gives a result is recorded, and a pair that gives none stops the run. -/
theorem visit_eq [Machine] (scenario : Scenario Float) (r : Run) (backend : Backend Float) :
    visit tolerance verbose scenario r backend =
      match scenario.run backend tolerance with
      | .error fault => .error ⟨r, fault⟩
      | .ok result => .ok (r.recorded verbose result) := by
  unfold visit
  cases hrun : scenario.run backend tolerance with
  | error fault => rfl
  | ok result => exact record_of_run hrun r

/-- A pair is recorded exactly if it gives a result. -/
theorem visit_eq_ok_iff [Machine] {scenario : Scenario Float} {r r' : Run}
    {backend : Backend Float} :
    visit tolerance verbose scenario r backend = .ok r' ↔
      ∃ result, scenario.run backend tolerance = .ok result ∧ r' = r.recorded verbose result := by
  rw [visit_eq]
  cases scenario.run backend tolerance <;> simp [eq_comm]

/-- The results of a combination: its scenario, and what each backend makes of it. -/
def Results [Machine] (backends : List (Backend Float)) (tolerance : Tolerance Float)
    (c : Combination Float) (block : Scenario Float × List (Result Float)) : Prop :=
  c.scenario = .ok block.1 ∧
    List.Forall₂ (fun backend result => block.1.run backend tolerance = .ok result) backends block.2

/-- A combination is recorded exactly if it is a scenario and every backend gives a result for it. -/
theorem visitAll_eq_ok_iff [Machine] {r r' : Run} {c : Combination Float} :
    visitAll backends tolerance verbose r c = .ok r' ↔
      ∃ block, Results backends tolerance c block ∧
        r' = block.2.foldl (recorded verbose) r := by
  unfold visitAll
  cases hscenario : c.scenario with
  | error fault =>
    constructor
    · intro h
      cases h
    · intro h
      obtain ⟨block, ⟨hblock, -⟩, -⟩ := h
      cases hscenario.symm.trans hblock
  | ok scenario =>
    dsimp only
    rw [foldlM_eq_ok_iff (visit tolerance verbose scenario) fun _ _ _ => visit_eq_ok_iff]
    constructor
    · intro h
      obtain ⟨results, hresults, rfl⟩ := h
      exact ⟨(scenario, results), ⟨hscenario, hresults⟩, rfl⟩
    · intro h
      obtain ⟨⟨scenario', results⟩, ⟨hblock, hresults⟩, rfl⟩ := h
      obtain rfl := Except.ok.inj (hscenario.symm.trans hblock)
      exact ⟨results, hresults, rfl⟩

/-- Recording one result after the other adds all of them. -/
theorem results_foldl_recorded (results : List (Result Float)) (r : Run) :
    (results.foldl (recorded verbose) r).report.results = r.report.results ++ results := by
  induction results generalizing r with
  | nil => simp
  | cons result rest ih => rw [List.foldl_cons, ih, recorded, Report.add]; simp

/-- A report adds up the checks of its results. -/
theorem checks_eq_sum (report : Report Float) :
    report.checks = (report.results.map Result.checks).sum := by
  rw [Report.checks, List.sum_eq_foldl, List.foldl_map]

/-- Words in the log change nothing in the report. -/
theorem report_say (lines : List String) (r : Run) : (r.say verbose lines).report = r.report := by
  unfold say
  split <;> rfl

/-- A run starts without results. -/
theorem results_opened {grid : Grid Float} {registry : Registry Float} {r : Run}
    (h : opened grid registry verbose = .ok r) : r.report.results = [] := by
  unfold opened at h
  dsimp only at h
  split at h
  · split at h
    · cases h
    · rw [← Except.ok.inj h, report_say]
  · rw [← Except.ok.inj h]

variable [Machine]

/-- A completed run is the record of the results of all combinations, in order. -/
theorem ofGrid_eq_ok_iff {grid : Grid Float} {registry : Registry Float} {run : Run} :
    ofGrid grid registry tolerance verbose = .ok run ↔
      ∃ first, opened grid registry verbose = .ok first ∧
      ∃ blocks, List.Forall₂ (Results registry.backends tolerance) grid.combinations blocks ∧
        let last := (blocks.flatMap Prod.snd).foldl (recorded verbose) first
        run = last.say verbose [lastLine last.report] := by
  have hfold (first last : Run) :
      grid.foldlM (visitAll registry.backends tolerance verbose) first = .ok last ↔
        ∃ blocks, List.Forall₂ (Results registry.backends tolerance) grid.combinations blocks ∧
          last = (blocks.flatMap Prod.snd).foldl (recorded verbose) first := by
    rw [Axes.foldlM_eq, foldlM_eq_ok_iff (visitAll registry.backends tolerance verbose)
      fun _ _ _ => visitAll_eq_ok_iff]
    simp only [List.foldl_flatMap]
  unfold ofGrid
  rw [bind_eq_ok_iff]
  constructor
  · intro h
    obtain ⟨first, hfirst, h⟩ := h
    obtain ⟨last, hlast, h⟩ := bind_eq_ok_iff.mp h
    obtain ⟨blocks, hblocks, rfl⟩ := (hfold first last).mp hlast
    exact ⟨first, hfirst, blocks, hblocks, (Except.ok.inj h).symm⟩
  · intro h
    obtain ⟨first, hfirst, blocks, hblocks, rfl⟩ := h
    exact ⟨first, hfirst, bind_eq_ok_iff.mpr ⟨_, (hfold first _).mpr ⟨blocks, hblocks, rfl⟩, rfl⟩⟩

/-- The results of all combinations are those of all pairs. -/
theorem forall₂_pairs {cs : List (Combination Float)}
    {blocks : List (Scenario Float × List (Result Float))}
    (h : List.Forall₂ (Results backends tolerance) cs blocks) :
    List.Forall₂ (fun pair result => pair.1.run pair.2 tolerance = .ok result)
      (blocks.map Prod.fst ×ˢ backends) (blocks.flatMap Prod.snd) := by
  induction h with
  | nil => exact .nil
  | @cons c block _ _ hblock _ ih =>
    rw [List.map_cons, List.product_cons, List.flatMap_cons]
    exact List.rel_append (List.forall₂_map_left_iff.mpr hblock.2) ih

/-- A completed run has formed all scenarios, and holds the results of all pairs in order. -/
theorem exists_scenarios {grid : Grid Float} {registry : Registry Float} {run : Run}
    (h : ofGrid grid registry tolerance verbose = .ok run) :
    ∃ scenarios, grid.scenarios = (scenarios, none) ∧ scenarios.length = grid.size ∧
      List.Forall₂ (fun pair result => pair.1.run pair.2 tolerance = .ok result)
        (scenarios ×ˢ registry.backends) run.report.results := by
  obtain ⟨first, hfirst, blocks, hblocks, rfl⟩ := ofGrid_eq_ok_iff.mp h
  refine ⟨blocks.map Prod.fst, ?_, ?_, ?_⟩
  · exact Combination.scenarios_eq
      (List.forall₂_map_right_iff.mpr (hblocks.imp fun _ _ hblock => hblock.1))
  · rw [List.length_map, ← hblocks.length_eq, Axes.length_combinations]
  · rw [report_say, results_foldl_recorded, results_opened hfirst, List.nil_append]
    exact forall₂_pairs hblocks

/-- The result of a pair stands where the pair comes in the run. -/
theorem exists_result {scenarios : List (Scenario Float)} {results : List (Result Float)}
    (h : List.Forall₂ (fun pair result => pair.1.run pair.2 tolerance = .ok result)
      (scenarios ×ˢ backends) results)
    {k j : Nat} {scenario : Scenario Float} {backend : Backend Float}
    (hk : scenarios[k]? = some scenario) (hj : backends[j]? = some backend) :
    ∃ result, results[k * backends.length + j]? = some result ∧
      scenario.run backend tolerance = .ok result := by
  obtain ⟨hpair, -⟩ := getElem?_product_of_getElem? hk hj
  obtain ⟨result, hresult, hrun⟩ := exists_answer h hpair
  exact ⟨result, hresult, hrun⟩

end Run

/-- A half is a timestep. -/
theorem Scalar.isPositive_half : Scalar.isPositive (0.5 : Float) = true := by decide +kernel

/-- One atom that is pushed for a number of steps. -/
def Scenario.single (steps : Nat) : Scenario Float where
  atoms := 1
  timestep := 0.5
  velocity := ⟨1, 0, 0⟩
  force := ⟨2, 0, -1⟩
  steps := steps
  atoms_pos := Nat.one_pos
  timestep_positive := Scalar.isPositive_half

/-- Two atoms for no step and for two. -/
def Grid.small : Grid Float where
  atoms := [.whole 2]
  timesteps := [.scalar 0.5]
  vx := [1]
  vy := [0]
  vz := [0]
  fx := [2]
  fy := [0]
  fz := [-1]
  steps := [.whole 0, .whole 2]
  nonempty := by decide

/-- The loop and the kernel. -/
def Registry.both [Machine] : Registry Float where
  backends := [.host, .device Device.processor]
  skipped := []
  nonempty := List.cons_ne_nil _ _
  unique := by
    change ["host", "warp-" ++ Device.processor].Nodup
    decide

/-- A tolerance that some components of the small grid miss. -/
def Tolerance.tight : Tolerance Float := ⟨0.125, by decide⟩

open Workstation

/-- The run of the small grid on both backends completes. -/
theorem Run.exists_ofGrid_small : ∃ run, Run.ofGrid .small .both .tight false = .ok run :=
  exists_ok_of_toBool (by decide +kernel)

end Leapfrog
