import Leapfrog.Proofs.ArrayLimits
import Leapfrog.Proofs.ReportViews
import Leapfrog.Proofs.RunCompletion
import Leapfrog.Proofs.RunVerdict

/-!
# The numbers of a run

A run that completes has room for the atoms of each of its scenarios and converts their numbers of
steps. If the axes of its grid and its backends can be counted, its report therefore holds no whole
number that would be too long to be written: neither in its failures nor in the number of its
checks.
-/

namespace Leapfrog

/-- A grid each of whose axes can be counted, as the axes of every grid that is held in memory can. -/
def Grid.HasCountableAxes {α : Type} (g : Grid α) : Prop :=
  ∀ axis ∈ g.lengths, axis.2 < Limits.bound

/-- A product of lengths that are below a bound is no more than a power of the bound. -/
theorem foldl_length_le {axes : List (String × Nat)} {bound : Nat}
    (h : ∀ axis ∈ axes, axis.2 < bound) (n : Nat) :
    axes.foldl (fun n axis => n * axis.2) n ≤ n * bound ^ axes.length := by
  induction axes generalizing n with
  | nil => simp
  | cons axis rest ih =>
    obtain ⟨haxis, hrest⟩ := List.forall_mem_cons.mp h
    calc rest.foldl (fun n axis => n * axis.2) (n * axis.2)
        ≤ n * axis.2 * bound ^ rest.length := ih hrest _
      _ ≤ n * bound * bound ^ rest.length :=
          Nat.mul_le_mul_right _ (Nat.mul_le_mul_left n haxis.le)
      _ = n * bound ^ (axis :: rest).length := by rw [List.length_cons, Nat.pow_succ']; ring

/-- Nine axes that can be counted have no more combinations than this. -/
theorem Grid.HasCountableAxes.size_le {α : Type} {g : Grid α} (h : g.HasCountableAxes) :
    g.size ≤ Limits.bound ^ 9 := by
  have hle := foldl_length_le h 1
  rw [Nat.one_mul] at hle
  exact hle

/-- A component that is compared is one of an atom of its scenario. -/
theorem Scenario.atom_lt_of_compared [Machine] {scenario : Scenario Float} {b : Backend Float}
    (hb : b.KeepsAtoms) {components : List (Component Float)}
    (h : scenario.compared b = .ok components) {c : Component Float} (hc : c ∈ components) :
    c.atom < scenario.atoms := by
  obtain ⟨start, hstart, last, hlast, reference, -, rfl⟩ := Scenario.compared_eq_ok_iff.mp h
  obtain ⟨a, -, ha, -⟩ := Simulation.mem_components.mp hc
  have hlt := (List.getElem?_eq_some_iff.mp ha).1
  have hsize : last.atoms.size = scenario.atoms := by
    rw [hb.size_advance hlast, Scenario.eq_of_simulation hstart]
    simp [Synthetic.simulation]
  have hlength : (c.quantity.ofSimulation last).length = last.atoms.size := by
    cases c.quantity <;> simp [Quantity.ofSimulation, Simulation.positions, Simulation.velocities]
  omega

namespace Run

variable [Machine] {grid : Grid Float} {registry : Registry Float} {tolerance : Tolerance Float}
variable {verbose : Bool} {run : Run}

/-- There are no more results in a run than pairs of a combination and a backend. -/
theorem length_results_le (hgrid : grid.HasCountableAxes)
    (hrun : ofGrid grid registry tolerance verbose = .ok run) :
    run.report.results.length ≤ Limits.bound ^ 9 * registry.backends.length := by
  obtain ⟨scenarios, -, hlength, hpairs⟩ := exists_scenarios hrun
  rw [← hpairs.length_eq, List.length_product, hlength]
  exact Nat.mul_le_mul_right _ hgrid.size_le

/-- The checks of a run on backends that keep their atoms can be written. -/
theorem isShort_checks (hgrid : grid.HasCountableAxes)
    (hkeeps : ∀ b ∈ registry.backends, b.KeepsAtoms)
    (hbackends : registry.backends.length < Limits.bound)
    (hrun : ofGrid grid registry tolerance verbose = .ok run) :
    Limits.IsShort run.report.checks := by
  obtain ⟨scenarios, -, -, hpairs⟩ := exists_scenarios hrun
  obtain ⟨hcompared, hresults⟩ := results_eq hpairs
  obtain ⟨hsix, -⟩ := six_mul_le_checks hcompared hresults fun pair hpair =>
    hkeeps pair.2 (List.mem_product.mp hpair).2
  have hchecks : ∀ result ∈ run.report.results,
      0 ≤ result.checks ∧ result.checks ≤ (Machine.memory : Int) := by
    intro result hresult
    obtain ⟨pair, -, hpair⟩ := exists_answer_mem hpairs.flip hresult
    have hatoms := Scenario.atoms_le_of_run hpair
    rw [hsix result hresult]
    obtain ⟨components, -, rfl⟩ := Scenario.exists_components hpair
    change 0 ≤ 6 * (pair.1.atoms : Int) ∧ 6 * (pair.1.atoms : Int) ≤ (Machine.memory : Int)
    omega
  have hlow : 0 ≤ run.report.checks := by
    rw [checks_eq_sum]
    refine List.sum_nonneg fun n hn => ?_
    obtain ⟨result, hresult, rfl⟩ := List.mem_map.mp hn
    exact (hchecks result hresult).1
  have hhigh : run.report.checks ≤ run.report.results.length * (Machine.memory : Int) := by
    rw [checks_eq_sum, ← nsmul_eq_mul, ← List.length_map (f := Result.checks)]
    refine List.sum_le_card_nsmul _ _ fun n hn => ?_
    obtain ⟨result, hresult, rfl⟩ := List.mem_map.mp hn
    exact (hchecks result hresult).2
  have htotal : run.report.results.length * Machine.memory ≤
      Limits.bound ^ 9 * Limits.bound * Machine.memory :=
    Nat.mul_le_mul_right _
      ((length_results_le hgrid hrun).trans (Nat.mul_le_mul_left _ hbackends.le))
  have hshort : Limits.bound ^ 9 * Limits.bound * Machine.memory < Nat.pow 10 Decimal.maxDigits :=
    (Nat.mul_le_mul_left _ Machine.memory_lt.le).trans_lt (by decide +kernel)
  have hcast : run.report.checks ≤ ((run.report.results.length * Machine.memory : Nat) : Int) := by
    rw [Nat.cast_mul]
    exact hhigh
  unfold Limits.IsShort
  omega

/-- The numbers of a failure of a run on backends that keep their atoms can be written. -/
theorem hasShortNumbers_failures (hkeeps : ∀ b ∈ registry.backends, b.KeepsAtoms)
    (hrun : ofGrid grid registry tolerance verbose = .ok run) :
    ∀ f ∈ run.report.failures, f.HasShortNumbers := by
  obtain ⟨scenarios, -, -, hpairs⟩ := exists_scenarios hrun
  simp only [Report.failures, Result.failures, List.forall_mem_flatMap, List.forall_mem_map]
  intro result hresult m hm
  obtain ⟨pair, hpair, hanswer⟩ := exists_answer_mem hpairs.flip hresult
  have hatoms := Scenario.atoms_le_of_run hanswer
  obtain ⟨hshortAtoms, hshortSteps⟩ := Scenario.hasShortCounts_of_run hanswer
  obtain ⟨components, hcomponents, rfl⟩ := Scenario.exists_components hanswer
  obtain ⟨c, hc, rfl⟩ := List.mem_map.mp hm
  have hatom := Scenario.atom_lt_of_compared (hkeeps pair.2 (List.mem_product.mp hpair).2)
    hcomponents (List.mem_of_mem_filter hc)
  have hdimension := c.axis.index_lt
  have hmemory := Machine.memory_lt_pow
  refine ⟨hshortAtoms, hshortSteps, ?_, ?_⟩ <;> unfold Limits.IsShort
  · change (c.atom : Int).natAbs < _
    omega
  · change (c.axis.index : Int).natAbs < _
    omega

/-- Everything in the report of a run can be written. -/
theorem hasShortNumbers (hgrid : grid.HasCountableAxes)
    (hkeeps : ∀ b ∈ registry.backends, b.KeepsAtoms)
    (hbackends : registry.backends.length < Limits.bound)
    (hrun : ofGrid grid registry tolerance verbose = .ok run) : run.report.HasShortNumbers :=
  ⟨isShort_checks hgrid hkeeps hbackends hrun, hasShortNumbers_failures hkeeps hrun⟩

end Run

end Leapfrog
