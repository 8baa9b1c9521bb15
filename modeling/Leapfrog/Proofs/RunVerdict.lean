import Leapfrog.Proofs.Doubles
import Leapfrog.Proofs.KeptAtoms
import Leapfrog.Proofs.Places
import Leapfrog.Proofs.RunResults
import Mathlib.Algebra.Order.BigOperators.Group.List

/-!
# The verdict of a run

A completed run accounts for every component of every pair of a scenario and a backend. Its failures
are exactly the components that are not within the tolerance, each once and in the order of their
places, and its count of checks is the number of all components.
-/

namespace Leapfrog

namespace Run

variable [Machine] {scenarios : List (Scenario Float)} {backends : List (Backend Float)}
variable {tolerance : Tolerance Float} {results : List (Result Float)}

/-- The components of a pair, none if there is nothing to compare. -/
def componentsOf (pair : Scenario Float × Backend Float) : List (Component Float) :=
  (pair.1.compared pair.2).toOption.getD []

/-- The components of a pair that are too far apart. -/
def missedOf (tolerance : Tolerance Float) (pair : Scenario Float × Backend Float) :
    List (Component Float) :=
  (componentsOf pair).filter
    (Component.misses (Scalar.ofInt pair.1.steps * tolerance.epsilon))

/-- The result of a pair in a completed run. -/
theorem eq_resultOf {pair : Scenario Float × Backend Float} {result : Result Float}
    (h : pair.1.run pair.2 tolerance = .ok result) :
    pair.1.compared pair.2 = .ok (componentsOf pair) ∧
      pair.1.resultOf pair.2 tolerance (componentsOf pair) = result := by
  obtain ⟨components, hcomponents, rfl⟩ := Scenario.exists_components h
  have hof : componentsOf pair = components := by
    rw [componentsOf, hcomponents]
    rfl
  rw [hof]
  exact ⟨hcomponents, rfl⟩

/-- Where every pair gives a result, every pair has components, and the results are theirs. -/
theorem results_eq {pairs : List (Scenario Float × Backend Float)}
    (h : List.Forall₂ (fun pair result => pair.1.run pair.2 tolerance = .ok result) pairs results) :
    (∀ pair ∈ pairs, pair.1.compared pair.2 = .ok (componentsOf pair)) ∧
      results = pairs.map fun pair => pair.1.resultOf pair.2 tolerance (componentsOf pair) := by
  induction h with
  | nil => exact ⟨fun _ hpair => absurd hpair List.not_mem_nil, rfl⟩
  | cons hfirst _ ih =>
    obtain ⟨hcomponents, hresult⟩ := eq_resultOf hfirst
    obtain ⟨hrest, heq⟩ := ih
    refine ⟨List.forall_mem_cons.mpr ⟨hcomponents, hrest⟩, ?_⟩
    rw [List.map_cons, hresult, ← heq]

end Run

/-- What is compared at a place of a run: the value that the advanced simulation has there, and the
value of its reference. -/
def Place.Compares [Machine] (scenarios : List (Scenario Float)) (backends : List (Backend Float))
    (place : Place) (scenario : Scenario Float) (actual expected : Float) : Prop :=
  scenarios[place.scenario]? = some scenario ∧
  ∃ backend, backends[place.backend]? = some backend ∧
  ∃ start, scenario.simulation = .ok start ∧
  ∃ last, (backend.advance (.whole scenario.steps) start).toExcept = .ok last ∧
  ∃ reference, Reference.ofSimulation last (.whole scenario.steps) = .ok reference ∧
  ∃ a e, (place.quantity.ofSimulation last)[place.atom]? = some a ∧
    (place.quantity.ofReference reference)[place.atom]? = some e ∧
    actual = a.get place.axis ∧ expected = e.get place.axis

namespace Place

variable {scenarios : List (Scenario Float)} {backends : List (Backend Float)}

/-- What is compared at a place is a component of the pair of the place. -/
theorem compares_iff [Machine]
    (hcompared : ∀ pair ∈ scenarios ×ˢ backends, pair.1.compared pair.2 = .ok (Run.componentsOf pair))
    {place : Place} {scenario : Scenario Float} {actual expected : Float} :
    place.Compares scenarios backends scenario actual expected ↔
      scenarios[place.scenario]? = some scenario ∧
      ∃ backend, backends[place.backend]? = some backend ∧
        ⟨place.quantity, place.atom, place.axis, actual, expected⟩ ∈
          Run.componentsOf (scenario, backend) := by
  have hpair {backend : Backend Float} (hscenario : scenarios[place.scenario]? = some scenario)
      (hbackend : backends[place.backend]? = some backend) :
      scenario.compared backend = .ok (Run.componentsOf (scenario, backend)) :=
    hcompared (scenario, backend) (List.pair_mem_product.mpr
      ⟨List.mem_of_getElem? hscenario, List.mem_of_getElem? hbackend⟩)
  constructor
  · intro h
    obtain ⟨hscenario, backend, hbackend, start, hstart, last, hlast, reference, hreference,
      hvalues⟩ := h
    refine ⟨hscenario, backend, hbackend, ?_⟩
    have heq := Scenario.compared_eq_ok_iff.mpr
      ⟨start, hstart, last, hlast, reference, hreference, rfl⟩
    rw [← Except.ok.inj (heq.symm.trans (hpair hscenario hbackend))]
    exact Simulation.mem_components.mpr hvalues
  · intro h
    obtain ⟨hscenario, backend, hbackend, hmem⟩ := h
    obtain ⟨start, hstart, last, hlast, reference, hreference, heq⟩ :=
      Scenario.compared_eq_ok_iff.mp (hpair hscenario hbackend)
    rw [← heq] at hmem
    exact ⟨hscenario, backend, hbackend, start, hstart, last, hlast, reference, hreference,
      Simulation.mem_components.mp hmem⟩

/-- The places of some components of all pairs. -/
theorem mem_ofBlocks_product {of : Scenario Float × Backend Float → List (Component Float)}
    {place : Place} :
    place ∈ ofBlocks backends.length ((scenarios ×ˢ backends).map of) ↔
      ∃ scenario actual expected, scenarios[place.scenario]? = some scenario ∧
      ∃ backend, backends[place.backend]? = some backend ∧
        ⟨place.quantity, place.atom, place.axis, actual, expected⟩ ∈ of (scenario, backend) := by
  rw [mem_ofBlocks]
  constructor
  · intro h
    obtain ⟨p, block, c, hblock, hc, rfl⟩ := h
    rw [List.getElem?_map] at hblock
    obtain ⟨⟨scenario, backend⟩, hpair, rfl⟩ := Option.map_eq_some_iff.mp hblock
    obtain ⟨hscenario, hbackend⟩ := getElem?_of_product hpair
    exact ⟨scenario, c.actual, c.expected, hscenario, backend, hbackend, hc⟩
  · intro h
    obtain ⟨scenario, actual, expected, hscenario, backend, hbackend, hc⟩ := h
    obtain ⟨hpair, hdiv, hmod⟩ := getElem?_product_of_getElem? hscenario hbackend
    refine ⟨place.scenario * backends.length + place.backend, _, _, ?_, hc, ?_⟩
    · rw [List.getElem?_map, hpair]
      rfl
    · rw [hdiv, hmod]
      rfl

end Place

/-- A failure is the one at a place: it names the scenario and the backend of the place, and its
mismatch says which component is meant and what its values are. -/
def Failure.StandsAt [Machine] (scenarios : List (Scenario Float)) (backends : List (Backend Float))
    (f : Failure Float) (place : Place) : Prop :=
  (backends[place.backend]?).map Backend.name = some f.backend ∧
  f.mismatch.quantity = place.quantity ∧ f.mismatch.atom = place.atom ∧
  f.mismatch.dimension = place.axis.index ∧
  place.Compares scenarios backends f.scenario f.mismatch.actual f.mismatch.expected

namespace Run

variable {scenarios : List (Scenario Float)} {backends : List (Backend Float)}
variable {tolerance : Tolerance Float}

/-- A component is too far from its reference unless the distance is within the bound. -/
theorem misses_iff {bound : Float} {c : Component Float} :
    c.misses bound = true ↔ ¬ (c.actual - c.expected).abs ≤ bound := by
  have hwithin : isWithin c.actual c.expected bound =
      decide ((c.actual - c.expected).abs ≤ bound) := rfl
  simp [Component.misses, hwithin]

variable [Machine]

/-- The places of all components of a run. -/
def comparedPlaces (scenarios : List (Scenario Float)) (backends : List (Backend Float)) :
    List Place :=
  Place.ofBlocks backends.length ((scenarios ×ˢ backends).map componentsOf)

/-- The places of the components that are too far apart. -/
def failingPlaces (scenarios : List (Scenario Float)) (backends : List (Backend Float))
    (tolerance : Tolerance Float) : List Place :=
  Place.ofBlocks backends.length ((scenarios ×ˢ backends).map (missedOf tolerance))

section

variable (hcompared : ∀ pair ∈ scenarios ×ˢ backends,
  pair.1.compared pair.2 = .ok (componentsOf pair))

include hcompared

/-- A place is one of a run if something is compared there. -/
theorem mem_comparedPlaces {place : Place} :
    place ∈ comparedPlaces scenarios backends ↔
      ∃ scenario actual expected, place.Compares scenarios backends scenario actual expected := by
  rw [comparedPlaces, Place.mem_ofBlocks_product]
  simp only [Place.compares_iff hcompared]

/-- A place fails if what is compared there is not within the tolerance. -/
theorem mem_failingPlaces {place : Place} :
    place ∈ failingPlaces scenarios backends tolerance ↔
      ∃ scenario actual expected, place.Compares scenarios backends scenario actual expected ∧
        ¬ (actual - expected).abs ≤ Scalar.ofInt scenario.steps * tolerance.epsilon := by
  rw [failingPlaces, Place.mem_ofBlocks_product]
  simp only [Place.compares_iff hcompared, missedOf, List.mem_filter, misses_iff]
  constructor
  · intro h
    obtain ⟨scenario, actual, expected, hscenario, backend, hbackend, hmem, hmiss⟩ := h
    exact ⟨scenario, actual, expected, ⟨hscenario, backend, hbackend, hmem⟩, hmiss⟩
  · intro h
    obtain ⟨scenario, actual, expected, ⟨hscenario, backend, hbackend, hmem⟩, hmiss⟩ := h
    exact ⟨scenario, actual, expected, hscenario, backend, hbackend, hmem, hmiss⟩

/-- The components of each pair are listed in order. -/
theorem pairwise_componentsOf {pair : Scenario Float × Backend Float}
    (hpair : pair ∈ scenarios ×ˢ backends) :
    (componentsOf pair).Pairwise fun c d => c.key < d.key :=
  Scenario.pairwise_compared (hcompared pair hpair)

/-- The places of a run are listed in order. -/
theorem pairwise_comparedPlaces : (comparedPlaces scenarios backends).Pairwise (· < ·) := by
  refine Place.pairwise_ofBlocks fun block hblock => ?_
  obtain ⟨pair, hpair, rfl⟩ := List.mem_map.mp hblock
  exact pairwise_componentsOf hcompared hpair

/-- The places that fail are listed in order. -/
theorem pairwise_failingPlaces :
    (failingPlaces scenarios backends tolerance).Pairwise (· < ·) := by
  refine Place.pairwise_ofBlocks fun block hblock => ?_
  obtain ⟨pair, hpair, rfl⟩ := List.mem_map.mp hblock
  exact (pairwise_componentsOf hcompared hpair).filter _

/-- The failures of a completed run, one after the other, stand at the places that fail. -/
theorem forall₂_standsAt {results : List (Result Float)}
    (hresults : results = (scenarios ×ˢ backends).map fun pair =>
      pair.1.resultOf pair.2 tolerance (componentsOf pair)) :
    List.Forall₂ (Failure.StandsAt scenarios backends) (results.flatMap Result.failures)
      (failingPlaces scenarios backends tolerance) := by
  have hfailures : results.flatMap Result.failures =
      (scenarios ×ˢ backends).zipIdx.flatMap fun (pair, _) =>
        (missedOf tolerance pair).map fun c => ⟨pair.2.name, pair.1,
          c.mismatch (Scalar.ofInt pair.1.steps * tolerance.epsilon)⟩ := by
    rw [hresults, List.flatMap_map, flatMap_eq_zipIdx]
    simp only [Result.failures, Scenario.resultOf, List.map_map]
    rfl
  have hplaces : failingPlaces scenarios backends tolerance =
      (scenarios ×ˢ backends).zipIdx.flatMap fun (pair, p) =>
        (missedOf tolerance pair).map
          (Place.ofComponent (p / backends.length) (p % backends.length)) := by
    rw [failingPlaces, Place.ofBlocks, List.zipIdx_map, List.flatMap_map]
    rfl
  rw [hfailures, hplaces]
  refine forall₂_flatMap ?_
  intro entry hp
  obtain ⟨⟨scenario, backend⟩, p⟩ := entry
  have hpair := List.mk_mem_zipIdx_iff_getElem?.mp hp
  obtain ⟨hscenario, hbackend⟩ := getElem?_of_product hpair
  rw [List.forall₂_map_left_iff, List.forall₂_map_right_iff, List.forall₂_same]
  intro c hc
  have hcompares : (Place.ofComponent (p / backends.length) (p % backends.length) c).Compares
      scenarios backends scenario c.actual c.expected :=
    (Place.compares_iff hcompared).mpr
      ⟨hscenario, backend, hbackend, List.mem_of_mem_filter hc⟩
  exact ⟨by rw [Place.ofComponent, hbackend]; rfl, rfl, rfl, rfl, hcompares⟩

end

/-- Every result counts its own components. -/
theorem checks_eq_length {report : Report Float}
    (hresults : report.results = (scenarios ×ˢ backends).map fun pair =>
      pair.1.resultOf pair.2 tolerance (componentsOf pair)) :
    report.checks = (comparedPlaces scenarios backends).length := by
  rw [checks_eq_sum, comparedPlaces, Place.length_ofBlocks, hresults, List.map_map, List.map_map,
    Nat.cast_list_sum, List.map_map]
  rfl

/-- Every backend has one result for each scenario. -/
theorem map_backend_eq {results : List (Result Float)}
    (hresults : results = (scenarios ×ˢ backends).map fun pair =>
      pair.1.resultOf pair.2 tolerance (componentsOf pair)) :
    results.map Result.backend = scenarios.flatMap fun _ => backends.map Backend.name := by
  rw [hresults, List.map_map, product_eq_flatMap, List.map_flatMap]
  simp only [List.map_map]
  rfl

/-- A completed run names its backends in the order of the registry, and each of them has one result
for each scenario. -/
theorem backends_eq {registry : Registry Float} {report : Report Float}
    (hresults : report.results = (scenarios ×ˢ registry.backends).map fun pair =>
      pair.1.resultOf pair.2 tolerance (componentsOf pair)) (hscenarios : scenarios ≠ []) :
    report.backends = registry.names ∧
      ∀ name ∈ registry.names, (report.resultsFor name).length = scenarios.length := by
  have hbackends := map_backend_eq hresults
  constructor
  · rw [Report.backends, hbackends]
    exact eraseDups_flatMap_const registry.unique hscenarios
  · intro name hname
    have hcount : (report.resultsFor name).length = (report.results.map Result.backend).count name := by
      rw [Report.resultsFor, ← List.countP_eq_length_filter, List.count, List.countP_map]
      rfl
    have hone : (registry.backends.map Backend.name).count name = 1 :=
      List.count_eq_one_of_mem registry.unique hname
    have hconst : (List.count name ∘ fun _ : Scenario Float =>
        registry.backends.map Backend.name) = fun _ => 1 := funext fun _ => hone
    rw [hcount, hbackends, List.count_flatMap, hconst]
    simp

/-- Backends that keep their atoms are checked six times for each of them. -/
theorem six_mul_le_checks {report : Report Float}
    (hcompared : ∀ pair ∈ scenarios ×ˢ backends,
      pair.1.compared pair.2 = .ok (componentsOf pair))
    (hresults : report.results = (scenarios ×ˢ backends).map fun pair =>
      pair.1.resultOf pair.2 tolerance (componentsOf pair))
    (hkeeps : ∀ pair ∈ scenarios ×ˢ backends, pair.2.KeepsAtoms) :
    (∀ result ∈ report.results, result.checks = 6 * result.scenario.atoms) ∧
      6 * scenarios.length * backends.length ≤ report.checks := by
  have hsix : ∀ result ∈ report.results, result.checks = 6 * result.scenario.atoms := by
    intro result hresult
    rw [hresults] at hresult
    obtain ⟨pair, hpair, rfl⟩ := List.mem_map.mp hresult
    have hlength := Scenario.length_compared (hkeeps pair hpair) (hcompared pair hpair)
    change ((componentsOf pair).length : Int) = 6 * pair.1.atoms
    omega
  refine ⟨hsix, ?_⟩
  have hleast : ∀ checks ∈ report.results.map Result.checks, 6 ≤ checks := by
    intro checks hchecks
    obtain ⟨result, hresult, rfl⟩ := List.mem_map.mp hchecks
    have hatoms := result.scenario.atoms_pos
    have := hsix result hresult
    omega
  have hlength : report.results.length = scenarios.length * backends.length := by
    rw [hresults, List.length_map, List.length_product]
  calc (6 * scenarios.length * backends.length : Int)
      = (report.results.map Result.checks).length • (6 : Int) := by
        rw [List.length_map, hlength, nsmul_eq_mul]
        push_cast
        ring
    _ ≤ (report.results.map Result.checks).sum := List.card_nsmul_le_sum _ _ hleast
    _ = report.checks := (checks_eq_sum report).symm

end Run

/-- A completed run is an exact and complete account of its grid.

Its results are those that the pairs give on their own, in the order of the pairs. Its failures
stand, in strictly increasing order, at the places where the distance from the reference is not
within the tolerance; a distance that is not a number never is. Its checks are the places at which
something is compared, six for each atom as long as backends keep their atoms. -/
theorem run_verdict [Machine] {grid : Grid Float} {registry : Registry Float}
    {tolerance : Tolerance Float} {verbose : Bool} {run : Run}
    (hrun : Run.ofGrid grid registry tolerance verbose = .ok run) :
    ∃ scenarios, grid.scenarios = (scenarios, none) ∧ scenarios.length = grid.size ∧
      (run.report.results.length = grid.size * registry.backends.length ∧
        ∀ k j scenario backend, scenarios[k]? = some scenario →
          registry.backends[j]? = some backend →
          ∃ result, run.report.results[k * registry.backends.length + j]? = some result ∧
            scenario.run backend tolerance = .ok result) ∧
      (run.report.backends = registry.names ∧
        ∀ name ∈ registry.names, (run.report.resultsFor name).length = grid.size) ∧
      (∃ failing : List Place,
        List.Forall₂ (Failure.StandsAt scenarios registry.backends) run.report.failures failing ∧
        failing.Pairwise (· < ·) ∧
        ∀ place, place ∈ failing ↔ ∃ scenario actual expected,
          place.Compares scenarios registry.backends scenario actual expected ∧
            ¬ (actual - expected).abs ≤ Scalar.ofInt scenario.steps * tolerance.epsilon) ∧
      (∀ actual expected bound : Float, (actual - expected).isNaN = true →
        ¬ (actual - expected).abs ≤ bound) ∧
      ∃ compared : List Place, compared.Pairwise (· < ·) ∧
        (∀ place, place ∈ compared ↔ ∃ scenario actual expected,
          place.Compares scenarios registry.backends scenario actual expected) ∧
        run.report.checks = compared.length ∧
        ((∀ backend ∈ registry.backends, backend.KeepsAtoms) →
          (∀ result ∈ run.report.results, result.checks = 6 * result.scenario.atoms) ∧
          6 * grid.size * registry.backends.length ≤ run.report.checks) := by
  obtain ⟨scenarios, hscenarios, hlength, hpairs⟩ := Run.exists_scenarios hrun
  obtain ⟨hcompared, hresults⟩ := Run.results_eq hpairs
  have hne : scenarios ≠ [] := by
    have hpos := grid.size_pos
    intro hnil
    rw [hnil, List.length_nil] at hlength
    omega
  obtain ⟨hbackends, hfor⟩ := Run.backends_eq hresults hne
  refine ⟨scenarios, hscenarios, hlength, ⟨?_, ?_⟩, ⟨hbackends, ?_⟩,
    ⟨_, Run.forall₂_standsAt hcompared hresults, Run.pairwise_failingPlaces hcompared, fun place =>
      Run.mem_failingPlaces hcompared⟩, ?_,
    Run.comparedPlaces scenarios registry.backends, Run.pairwise_comparedPlaces hcompared,
    fun place => Run.mem_comparedPlaces hcompared, Run.checks_eq_length hresults, ?_⟩
  · rw [← hpairs.length_eq, List.length_product, hlength]
  · intro k j scenario backend hk hj
    exact Run.exists_result hpairs hk hj
  · rw [← hlength]
    exact hfor
  · intro actual expected bound hnan
    exact not_abs_le_of_isNaN hnan bound
  · intro hkeeps
    rw [← hlength]
    exact Run.six_mul_le_checks hcompared hresults fun pair hpair =>
      hkeeps pair.2 (List.mem_product.mp hpair).2

open Workstation

/-- Four results account for two scenarios of two atoms on both backends. -/
theorem run_verdict_small :
    ∃ run, Run.ofGrid .small .both .tight false = .ok run ∧
      run.report.results.length = 4 ∧ run.report.backends = ["host", "warp-cpu"] ∧
      (∀ result ∈ run.report.results, result.checks = 6 * result.scenario.atoms) ∧
      24 ≤ run.report.checks := by
  obtain ⟨run, hrun⟩ := Run.exists_ofGrid_small
  obtain ⟨scenarios, -, -, ⟨hlength, -⟩, ⟨hbackends, -⟩, -, -, compared, -, -, -, hchecks⟩ :=
    run_verdict hrun
  have hkeeps : ∀ backend ∈ Registry.both.backends, backend.KeepsAtoms := by
    intro backend hbackend
    rcases List.mem_cons.mp hbackend with rfl | hbackend
    · exact Backend.keepsAtoms_host
    · rw [List.mem_singleton.mp hbackend]
      exact Backend.keepsAtoms_device _
  obtain ⟨hsix, hleast⟩ := hchecks hkeeps
  exact ⟨run, hrun, hlength, hbackends, hsix, hleast⟩

end Leapfrog
