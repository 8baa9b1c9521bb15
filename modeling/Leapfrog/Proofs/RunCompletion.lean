import Leapfrog.Proofs.Doubles
import Leapfrog.Proofs.KeptAtoms
import Leapfrog.Proofs.RunResults

/-!
# When a run completes

A run of scenarios on genuine backends is stopped by one thing only: a finite time whose square is
not finite. Whatever else leaves the doubles, an infinite time, a position that overflows or a
difference that is not a number, is a component that is not within the tolerance, and the run goes
on to its last pair.

A log asks for the number of scenarios, which must be a machine integer.
-/

namespace Leapfrog

/-- A number of steps that is converted to a scalar has a bound. -/
theorem Tolerance.bound_whole {α : Type} [Mul α] [Scalar α] {n : Nat}
    (hn : Scalar.isFinite (Scalar.ofInt n : α) = true) (t : Tolerance α) :
    t.bound (.whole n) = .ok (Scalar.ofInt n * t.epsilon) := by
  rw [bound, Number.isNegative_whole, Number.times_whole hn]
  rfl

namespace Scenario

/-- The time after all steps, as it is computed. -/
def time (s : Scenario Float) : Float := Scalar.ofInt s.steps * s.timestep

/-- A scenario with a reference: the square of its time is finite if the time is. -/
def HasReference (s : Scenario Float) : Prop :=
  s.time.isFinite = true → (s.time * s.time).isFinite = true

/-- A scenario whose arrays are within their limits and whose number of steps is a machine
integer. -/
structure WithinLimits [Machine] (s : Scenario Float) : Prop where
  arrays : Synthetic.checkSize (α := Float) s.atoms = .ok ()
  steps : s.steps < Limits.bound

instance (s : Scenario Float) : Decidable s.HasReference :=
  inferInstanceAs (Decidable (s.time.isFinite = true → (s.time * s.time).isFinite = true))

instance [Machine] (s : Scenario Float) : Decidable s.WithinLimits :=
  decidable_of_iff (Synthetic.checkSize (α := Float) s.atoms = .ok () ∧ s.steps < Limits.bound)
    ⟨fun h => ⟨h.1, h.2⟩, fun h => ⟨h.arrays, h.steps⟩⟩

variable {s : Scenario Float} {b : Backend Float} {tolerance : Tolerance Float}

/-- A machine integer is converted to a finite double. -/
theorem WithinLimits.isFinite_steps [Machine] (h : s.WithinLimits) :
    Scalar.isFinite (Scalar.ofInt s.steps : Float) = true := by
  have hbound : Limits.bound ≤ Decimal.Binary64.overflow := by decide
  have hsteps := h.steps
  exact (Decimal.Binary64.isFinite_ofInt s.steps).mpr (by omega)

/-- The time after all steps of a scenario is what it is computed to be. -/
theorem WithinLimits.totalTime_eq [Machine] (h : s.WithinLimits) : s.totalTime = .ok s.time :=
  Number.times_whole h.isFinite_steps s.timestep

/-- A genuine backend takes all steps of a scenario. -/
theorem WithinLimits.exists_last [Machine] (h : s.WithinLimits) (hb : b.IsGenuine) :
    ∃ start last, s.simulation = .ok start ∧
      (b.advance (.whole s.steps) start).toExcept = .ok last ∧ last.timestep = s.timestep := by
  have hstart : s.simulation = .ok (Synthetic.simulation s.atoms s.timestep s.velocity s.force) := by
    rw [simulation, Synthetic.fresh, h.arrays]
    rfl
  obtain ⟨step, time, hadvance⟩ := hb.exists_advance rfl
    (Synthetic.hasScaling_simulation s.atoms s.timestep s.velocity s.force) h.isFinite_steps
  exact ⟨_, _, hstart, by rw [hadvance]; rfl, rfl⟩

/-- The square of a time is refused in one case only. -/
theorem square_time (s : Scenario Float) :
    (s.HasReference → ∃ squared, Reference.square s.time = .ok squared) ∧
      (¬ s.HasReference → Reference.square s.time = .error .timeTooLarge) := by
  unfold HasReference Reference.square
  change (_ → ∃ squared, (if s.time.isFinite && !(s.time * s.time).isFinite then _ else _) = _) ∧
    (_ → (if s.time.isFinite && !(s.time * s.time).isFinite then _ else _) = _)
  cases s.time.isFinite <;> cases (s.time * s.time).isFinite <;> simp

variable [Machine]

/-- A scenario with a reference has a result on every genuine backend. -/
theorem exists_run (h : s.WithinLimits) (hb : b.IsGenuine) (hreference : s.HasReference) :
    ∃ result, s.run b tolerance = .ok result := by
  obtain ⟨start, last, hstart, hlast, htimestep⟩ := h.exists_last hb
  obtain ⟨squared, hsquared⟩ := s.square_time.1 hreference
  have htime : (Number.whole s.steps).times last.timestep = .ok s.time := by
    rw [htimestep]
    exact h.totalTime_eq
  have hbound := Tolerance.bound_whole h.isFinite_steps tolerance
  have hofSimulation := Reference.ofSimulation_eq_ok_iff.mpr
    ⟨Number.isNegative_whole s.steps, s.time, htime, squared, hsquared, rfl⟩
  have hcheck := Simulation.check_eq_ok_iff.mpr ⟨_, hofSimulation, _, hbound, rfl⟩
  exact ⟨_, run_eq_ok_iff.mpr ⟨start, hstart, last, hlast, _, hcheck, rfl⟩⟩

/-- A scenario without a reference stops on every genuine backend. -/
theorem run_eq_error (h : s.WithinLimits) (hb : b.IsGenuine)
    (hreference : ¬ s.HasReference) :
    s.run b tolerance = .error .timeTooLarge := by
  obtain ⟨start, last, hstart, hlast, htimestep⟩ := h.exists_last hb
  have hofSimulation : Reference.ofSimulation last (.whole s.steps) = .error .timeTooLarge := by
    rw [Reference.ofSimulation, Number.isNegative_whole, htimestep]
    change (s.totalTime >>= _) = _
    rw [h.totalTime_eq]
    change (Reference.square s.time >>= _) = _
    rw [s.square_time.2 hreference]
    rfl
  rw [run, hstart]
  change ((b.advance (.whole s.steps) start).toExcept >>= _) = _
  rw [hlast]
  change (last.check (.whole s.steps) tolerance >>= _) = _
  rw [Simulation.check, hofSimulation]
  rfl

/-- A scenario has a result on a genuine backend exactly if it has a reference. -/
theorem exists_run_iff (h : s.WithinLimits) (hb : b.IsGenuine) :
    (∃ result, s.run b tolerance = .ok result) ↔ s.HasReference := by
  refine ⟨fun hrun => ?_, exists_run h hb⟩
  by_contra hreference
  obtain ⟨result, hresult⟩ := hrun
  rw [run_eq_error h hb hreference] at hresult
  cases hresult

end Scenario

/-- A component with a value that is not finite misses every finite bound, and one whose distance is
no number misses all bounds. -/
theorem Component.misses_of_not_isFinite {c : Component Float} {bound : Float}
    (h : (c.actual - c.expected).isNaN = true ∨
      bound.isFinite = true ∧ (c.actual.isFinite = false ∨ c.expected.isFinite = false)) :
    c.misses bound = true := by
  have hfar : ¬ (c.actual - c.expected).abs ≤ bound := by
    rcases h with hnan | ⟨hbound, hvalues⟩
    · exact not_abs_le_of_isNaN hnan bound
    · refine not_abs_le_of_not_isFinite ?_ hbound
      by_contra hdistance
      rw [Bool.not_eq_false] at hdistance
      obtain ⟨hactual, hexpected⟩ := isFinite_of_sub hdistance
      simp [hactual, hexpected] at hvalues
  change (!decide ((c.actual - c.expected).abs ≤ bound)) = true
  rw [decide_eq_false hfar, Bool.not_false]

namespace Run

variable {grid : Grid Float} {registry : Registry Float} {tolerance : Tolerance Float}
variable {verbose : Bool} {scenarios : List (Scenario Float)}

/-- A run is opened unless it has a log and its scenarios cannot be counted. -/
theorem exists_opened_iff :
    (∃ first, opened grid registry verbose = .ok first) ↔
      (verbose = true → grid.size < Limits.bound) := by
  unfold opened Grid.length
  cases verbose with
  | false => simp
  | true =>
    by_cases hsize : grid.size < Limits.bound
    · simp [hsize]
    · simp [hsize]

/-- Scenarios that cannot be counted are the only trouble at the opening of a run. -/
theorem fault_of_opened {stopped : StoppedRun}
    (h : opened grid registry verbose = .error stopped) : stopped.fault = .sizeTooLarge := by
  unfold opened Grid.length at h
  cases verbose with
  | false => cases h
  | true =>
    by_cases hsize : grid.size < Limits.bound
    · rw [if_pos hsize] at h
      cases h
    · rw [if_neg hsize] at h
      obtain rfl := Except.error.inj h
      rfl

variable [Machine]

/-- A run completes exactly if its scenarios can be counted where they are logged, every combination is
a scenario and every scenario has a result on every backend. -/
theorem exists_ofGrid_iff_combinations :
    (∃ run, ofGrid grid registry tolerance verbose = .ok run) ↔
      (verbose = true → grid.size < Limits.bound) ∧
        ∀ c ∈ grid.combinations, ∃ s, c.scenario = .ok s ∧
          ∀ b ∈ registry.backends, ∃ result, s.run b tolerance = .ok result := by
  have hblock (c : Combination Float) :
      (∃ s, c.scenario = .ok s ∧ ∀ b ∈ registry.backends, ∃ result, s.run b tolerance = .ok result) ↔
        ∃ block, Results registry.backends tolerance c block := by
    simp only [← exists_answers_iff, Results, Prod.exists, exists_and_left]
  have hopened : (∃ first, opened grid registry verbose = .ok first) ↔ _ := exists_opened_iff
  rw [← hopened, forall₂_congr fun c _ => hblock c, ← exists_answers_iff]
  simp only [ofGrid_eq_ok_iff]
  constructor
  · rintro ⟨_, first, hfirst, blocks, hblocks, -⟩
    exact ⟨⟨first, hfirst⟩, blocks, hblocks⟩
  · rintro ⟨⟨first, hfirst⟩, blocks, hblocks⟩
    exact ⟨_, first, hfirst, blocks, hblocks, rfl⟩

/-- A run completes exactly if it is opened and every scenario has a result on every backend. -/
theorem exists_ofGrid_iff (hscenarios : grid.scenarios = (scenarios, none)) :
    (∃ run, ofGrid grid registry tolerance verbose = .ok run) ↔
      (∃ first, opened grid registry verbose = .ok first) ∧
        ∀ s ∈ scenarios, ∀ b ∈ registry.backends, ∃ result, s.run b tolerance = .ok result := by
  have hscenario (c : Combination Float) (s : Scenario Float) (hc : c.scenario = .ok s) :
      (∃ s', c.scenario = .ok s' ∧
        ∀ b ∈ registry.backends, ∃ result, s'.run b tolerance = .ok result) ↔
        ∀ b ∈ registry.backends, ∃ result, s.run b tolerance = .ok result := by
    constructor
    · intro h
      obtain ⟨s', hs', hresults⟩ := h
      obtain rfl := Except.ok.inj (hc.symm.trans hs')
      exact hresults
    · intro hresults
      exact ⟨s, hc, hresults⟩
  rw [exists_ofGrid_iff_combinations, exists_opened_iff]
  exact and_congr_right fun _ =>
    forall_mem_iff_of_forall₂ (Combination.forall₂_scenarios hscenarios) hscenario

/-- A run that is stopped has a log of too many scenarios, or a pair without a result. -/
theorem fault_of_ofGrid (hscenarios : grid.scenarios = (scenarios, none))
    {stopped : StoppedRun}
    (h : ofGrid grid registry tolerance verbose = .error stopped) :
    stopped.fault = .sizeTooLarge ∨
      ∃ s ∈ scenarios, ∃ b ∈ registry.backends, s.run b tolerance = .error stopped.fault := by
  unfold ofGrid at h
  cases hopened : opened grid registry verbose with
  | error first =>
    rw [hopened] at h
    obtain rfl := Except.error.inj h
    exact .inl (fault_of_opened hopened)
  | ok first =>
    right
    rw [hopened] at h
    change (grid.foldlM (visitAll registry.backends tolerance verbose) first >>= _) = _ at h
    cases hfold : grid.foldlM (visitAll registry.backends tolerance verbose) first with
    | ok last =>
      rw [hfold] at h
      cases h
    | error fault =>
      rw [hfold] at h
      obtain rfl := Except.error.inj h
      rw [Axes.foldlM_eq] at hfold
      obtain ⟨c, hc, r, hvisit⟩ := exists_of_foldlM_eq_error hfold
      obtain ⟨s, hs, hscenario⟩ := exists_answer_mem (Combination.forall₂_scenarios hscenarios) hc
      rw [visitAll, hscenario] at hvisit
      obtain ⟨b, hb, r', hrun⟩ := exists_of_foldlM_eq_error hvisit
      refine ⟨s, hs, b, hb, ?_⟩
      rw [visit_eq] at hrun
      cases hresult : s.run b tolerance with
      | ok result =>
        rw [hresult] at hrun
        cases hrun
      | error fault =>
        rw [hresult] at hrun
        rw [← Except.error.inj hrun]

/-- On genuine backends a run completes exactly if it is opened and every scenario has a reference. -/
theorem exists_ofGrid_iff_hasReference (hscenarios : grid.scenarios = (scenarios, none))
    (hlimits : ∀ s ∈ scenarios, s.WithinLimits) (hbackends : ∀ b ∈ registry.backends, b.IsGenuine) :
    (∃ run, ofGrid grid registry tolerance verbose = .ok run) ↔
      (verbose = true → grid.size < Limits.bound) ∧ ∀ s ∈ scenarios, s.HasReference := by
  rw [exists_ofGrid_iff hscenarios, exists_opened_iff]
  refine and_congr_right fun _ => forall₂_congr fun s hs => ?_
  constructor
  · intro h
    obtain ⟨b, hb⟩ := List.exists_mem_of_ne_nil _ registry.nonempty
    exact (Scenario.exists_run_iff (hlimits s hs) (hbackends b hb)).mp (h b hb)
  · intro h b hb
    exact Scenario.exists_run (hlimits s hs) (hbackends b hb) h

/-- The faults that stop a run on genuine backends. -/
theorem fault_of_genuine (hscenarios : grid.scenarios = (scenarios, none))
    (hlimits : ∀ s ∈ scenarios, s.WithinLimits) (hbackends : ∀ b ∈ registry.backends, b.IsGenuine)
    {stopped : StoppedRun} (h : ofGrid grid registry tolerance verbose = .error stopped) :
    stopped.fault = .sizeTooLarge ∨ stopped.fault = .timeTooLarge := by
  refine (fault_of_ofGrid hscenarios h).imp_right fun hpair => ?_
  obtain ⟨s, hs, b, hb, hrun⟩ := hpair
  by_cases hreference : s.HasReference
  · obtain ⟨result, hresult⟩ : ∃ result, s.run b tolerance = .ok result :=
      Scenario.exists_run (hlimits s hs) (hbackends b hb) hreference
    rw [hresult] at hrun
    cases hrun
  · rw [Scenario.run_eq_error (hlimits s hs) (hbackends b hb) hreference] at hrun
    exact (Except.error.inj hrun).symm

/-- A completed run has as many results as there are pairs of a scenario and a backend. -/
theorem length_results (hscenarios : grid.scenarios = (scenarios, none)) {run : Run}
    (hrun : ofGrid grid registry tolerance verbose = .ok run) :
    run.report.results.length = scenarios.length * registry.backends.length := by
  obtain ⟨scenarios', hscenarios', -, hresults⟩ := exists_scenarios hrun
  obtain rfl := (Prod.mk.inj (hscenarios.symm.trans hscenarios')).1
  rw [← hresults.length_eq, List.length_product]

/-- The result of a pair in a completed run is that of its components. -/
theorem exists_resultOf (hscenarios : grid.scenarios = (scenarios, none)) {run : Run}
    (hrun : ofGrid grid registry tolerance verbose = .ok run) {k j : Nat} {s : Scenario Float}
    {b : Backend Float} (hk : scenarios[k]? = some s) (hj : registry.backends[j]? = some b) :
    ∃ components, s.compared b = .ok components ∧
      run.report.results[k * registry.backends.length + j]? =
        some (s.resultOf b tolerance components) := by
  obtain ⟨scenarios', hscenarios', -, hresults⟩ := exists_scenarios hrun
  obtain rfl := (Prod.mk.inj (hscenarios.symm.trans hscenarios')).1
  obtain ⟨result, hresult, hpair⟩ := exists_result hresults hk hj
  obtain ⟨components, hcomponents, rfl⟩ := Scenario.exists_components hpair
  exact ⟨components, hcomponents, hresult⟩

end Run

/-- A run of scenarios on genuine backends completes exactly if every scenario has a reference and a
log can count them. A run that is stopped has one of these two faults. One that completes holds a
result for each pair of a scenario and a backend, in order, and a component that has left the doubles
is recorded as a mismatch in it. -/
theorem run_completes_iff [Machine] {grid : Grid Float} {scenarios : List (Scenario Float)}
    (hscenarios : grid.scenarios = (scenarios, none)) (hlimits : ∀ s ∈ scenarios, s.WithinLimits)
    {registry : Registry Float} (hbackends : ∀ b ∈ registry.backends, b.IsGenuine)
    (tolerance : Tolerance Float) (verbose : Bool) :
    ((∃ run, Run.ofGrid grid registry tolerance verbose = .ok run) ↔
      (verbose = true → grid.size < Limits.bound) ∧ ∀ s ∈ scenarios, s.HasReference) ∧
    (∀ stopped, Run.ofGrid grid registry tolerance verbose = .error stopped →
      stopped.fault = .sizeTooLarge ∨ stopped.fault = .timeTooLarge) ∧
    ∀ run, Run.ofGrid grid registry tolerance verbose = .ok run →
      run.report.results.length = scenarios.length * registry.backends.length ∧
      ∀ (k j : Nat) (s : Scenario Float) (b : Backend Float),
        scenarios[k]? = some s → registry.backends[j]? = some b →
      ∃ components, s.compared b = .ok components ∧ components.length = 6 * s.atoms ∧
        run.report.results[k * registry.backends.length + j]? =
          some (s.resultOf b tolerance components) ∧
        let bound := Scalar.ofInt s.steps * tolerance.epsilon
        ∀ c ∈ components,
          ((c.actual - c.expected).isNaN = true ∨
            bound.isFinite = true ∧ (c.actual.isFinite = false ∨ c.expected.isFinite = false)) →
          c.mismatch bound ∈ (s.resultOf b tolerance components).mismatches := by
  refine ⟨Run.exists_ofGrid_iff_hasReference hscenarios hlimits hbackends,
    fun stopped => Run.fault_of_genuine hscenarios hlimits hbackends, fun run hrun =>
    ⟨Run.length_results hscenarios hrun, fun k j s b hk hj => ?_⟩⟩
  obtain ⟨components, hcomponents, hresult⟩ := Run.exists_resultOf hscenarios hrun hk hj
  have hkeeps : b.KeepsAtoms := by
    rcases hbackends b (List.mem_of_getElem? hj) with rfl | rfl
    · exact Backend.keepsAtoms_host
    · exact Backend.keepsAtoms_device Device.processor
  refine ⟨components, hcomponents, Scenario.length_compared hkeeps hcomponents, hresult,
    fun c hc hleft => ?_⟩
  exact List.mem_map_of_mem
    (List.mem_filter.mpr ⟨hc, Component.misses_of_not_isFinite hleft⟩)

/-- Two scenarios of one atom that is pushed for two steps: of the given length, and of one half. -/
def Grid.stretched (timestep : Float) : Grid Float where
  atoms := [.whole 1]
  timesteps := [.scalar timestep, .scalar 0.5]
  vx := [0]
  vy := [0]
  vz := [0]
  fx := [1]
  fy := [1]
  fz := [1]
  steps := [.whole 2]
  nonempty := by simp [Axes.lengths]

/-- The backends of `Registry.both` are genuine. -/
theorem Registry.isGenuine_both [Machine] : ∀ b ∈ both.backends, b.IsGenuine := by
  simp [both, Backend.IsGenuine]

/-- The scenarios of a grid without a fault. -/
theorem Grid.scenarios_eq {g : Grid Float} (h : g.scenarios.2 = none) :
    g.scenarios = (g.scenarios.1, none) :=
  Prod.ext rfl h

open Workstation

/-- A time that is infinite itself does not stop a run, which has a result for each of the four
pairs. -/
theorem run_completes_iff_stretched :
    ∃ scenarios, (Grid.stretched 1e308).scenarios = (scenarios, none) ∧
      (∀ s ∈ scenarios, s.WithinLimits) ∧ (∀ s ∈ scenarios, s.HasReference) ∧
      ∃ run, Run.ofGrid (.stretched 1e308) .both .tight false = .ok run ∧
        run.report.results.length = scenarios.length * 2 := by
  have hscenarios := Grid.scenarios_eq (g := .stretched 1e308) (by decide +kernel)
  have hlimits : ∀ s ∈ (Grid.stretched 1e308).scenarios.1, s.WithinLimits := by decide +kernel
  have hreference : ∀ s ∈ (Grid.stretched 1e308).scenarios.1, s.HasReference := by decide +kernel
  obtain ⟨hiff, -, hresults⟩ :=
    run_completes_iff hscenarios hlimits Registry.isGenuine_both .tight false
  obtain ⟨run, hrun⟩ := hiff.mpr ⟨nofun, hreference⟩
  have hlength := (hresults run hrun).1
  have htwo : Registry.both.backends.length = 2 := rfl
  rw [htwo] at hlength
  exact ⟨_, hscenarios, hlimits, hreference, run, hrun, hlength⟩

/-- A finite time with an infinite square stops a run of valid scenarios at its first pair. -/
theorem run_stops_at_timeTooLarge :
    ∃ scenarios, (Grid.stretched 1e200).scenarios = (scenarios, none) ∧
      (∀ s ∈ scenarios, s.WithinLimits) ∧
      ∃ stopped, Run.ofGrid (.stretched 1e200) .both .tight false = .error stopped ∧
        stopped.fault = .timeTooLarge ∧ stopped.report.results = [] := by
  have hscenarios := Grid.scenarios_eq (g := .stretched 1e200) (by decide +kernel)
  have hlimits : ∀ s ∈ (Grid.stretched 1e200).scenarios.1, s.WithinLimits := by decide +kernel
  have hstops : (match Run.ofGrid (.stretched 1e200) .both .tight false with
      | .ok _ => none
      | .error stopped => some (stopped.fault, stopped.report.results)) =
        some (.timeTooLarge, []) := by
    decide +kernel
  refine ⟨_, hscenarios, hlimits, ?_⟩
  cases hrun : Run.ofGrid (.stretched 1e200) .both .tight false with
  | ok run =>
    rw [hrun] at hstops
    cases hstops
  | error stopped =>
    rw [hrun] at hstops
    obtain ⟨hfault, hresults⟩ := Prod.mk.inj (Option.some.inj hstops)
    exact ⟨stopped, rfl, hfault, hresults⟩

end Leapfrog
