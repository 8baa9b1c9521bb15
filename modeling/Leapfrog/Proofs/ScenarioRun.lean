import Leapfrog.Proofs.Advance
import Leapfrog.Scenario

/-!
# A scenario on a backend

A scenario is run from a fresh synthetic simulation, whose groups can be looked up and whose matrix
is the identity. What the run returns is determined by the simulation that the backend leaves
behind, so two backends with the same steps return the same result but for their names.
-/

namespace Leapfrog

namespace Synthetic

variable {α : Type} [Sub α] [Div α] [Scalar α]
variable (n : Nat) (timestep : α) (velocity force : Vec3 α)

/-- The atoms of a synthetic simulation, each at its position. -/
theorem getElem?_atoms (i : Nat) :
    (simulation n timestep velocity force).atoms[i]? =
      if i < n then some (atom velocity force i) else none := by
  unfold simulation
  rw [Array.getElem?_ofFn]
  split <;> rfl

/-- All atoms of a synthetic simulation are in its one group, which leaves velocities alone. -/
theorem hasScaling_simulation :
    (simulation n timestep velocity force).HasScaling (Array.replicate n (Scalar.ofInt 1)) where
  lookup := by
    rw [Simulation.groupScaling_eq_ok_iff, List.forall₂_iff_get]
    refine ⟨by simp [simulation], fun i hi hi' => ?_⟩
    have hgroup : (simulation n timestep velocity force).groups.toList.get ⟨i, hi⟩ = 0 := by
      simp [simulation]
    have hfactor : (Array.replicate n (Scalar.ofInt 1 : α)).toList.get ⟨i, hi'⟩ =
        Scalar.ofInt 1 := by
      simp
    rw [hgroup, hfactor]
    rfl
  covers := by simp [simulation]

end Synthetic

variable [Machine] {α : Type} [Sub α] [Div α] [Scalar α]

/-- A fresh simulation is the synthetic one. -/
theorem Scenario.eq_of_simulation {scenario : Scenario α} {start : Simulation α}
    (h : scenario.simulation = .ok start) :
    start = Synthetic.simulation scenario.atoms scenario.timestep scenario.velocity
      scenario.force := by
  obtain ⟨_, -, h⟩ := bind_eq_ok_iff.mp h
  exact (Except.ok.inj h).symm

variable [Add α] [Mul α]

/-- A run of a scenario advances a fresh simulation and checks it. -/
theorem Scenario.run_eq_ok_iff {scenario : Scenario α} {b : Backend α}
    {tolerance : Tolerance α}
    {result : Result α} :
    scenario.run b tolerance = .ok result ↔
      ∃ start, scenario.simulation = .ok start ∧
      ∃ last, (b.advance (.whole scenario.steps) start).toExcept = .ok last ∧
      ∃ mismatches, last.check (.whole scenario.steps) tolerance = .ok mismatches ∧
        ⟨b.name, scenario, 2 * 3 * last.atoms.size, mismatches⟩ = result := by
  unfold Scenario.run
  simp only [bind_eq_ok_iff, pure, Except.pure, Except.ok.injEq]

/-- Genuine backends return the same result, each under its own name. -/
theorem Backend.IsGenuine.run_eq {b : Backend α} (hb : b.IsGenuine)
    (scenario : Scenario α)
    (tolerance : Tolerance α) :
    scenario.run b tolerance =
      (scenario.run .host tolerance).map fun result => { result with backend := b.name } := by
  unfold Scenario.run
  cases hstart : scenario.simulation with
  | error fault => rfl
  | ok start =>
    have hadvance : b.advance (.whole scenario.steps) start =
        Backend.host.advance (.whole scenario.steps) start := by
      rw [Scenario.eq_of_simulation hstart]
      exact Backend.advance_congr
        (hb.integrate_eq rfl (Synthetic.hasScaling_simulation _ _ _ _).covers) _
    change ((b.advance (.whole scenario.steps) start).toExcept >>= _) = _
    rw [hadvance]
    change _ = Except.map _ ((Backend.host.advance (.whole scenario.steps) start).toExcept >>= _)
    cases (Backend.host.advance (.whole scenario.steps) start).toExcept with
    | error fault => rfl
    | ok last =>
      change (last.check (.whole scenario.steps) tolerance >>= _) =
        Except.map _ (last.check (.whole scenario.steps) tolerance >>= _)
      cases last.check (.whole scenario.steps) tolerance <;> rfl

end Leapfrog
