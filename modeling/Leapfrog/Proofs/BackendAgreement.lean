import Leapfrog.Proofs.RunResults
import Leapfrog.Proofs.ScenarioRun

/-!
# Agreement of the two backends

The loop on the host and the launches on a device end with the same simulation, whatever the
operations are and in whatever order the threads of each launch run. In a run with both backends
they therefore return the same result for every scenario.
-/

namespace Leapfrog

section

variable {α : Type} [Add α] [Sub α] [Mul α]

/-- The loop computes in place what launches compute on a device, each launch with its threads in
an order of its own. -/
theorem Host.integrate_eq_launches {s : Simulation α} {m : Mat3 α} {scaling : Array α}
    (hmatrix : s.velocityScaling = .ofMat3 m) (hscaling : s.HasScaling scaling)
    {orders : List (List Nat)} (hperm : ∀ order ∈ orders, order.Perm (List.range s.atoms.size)) :
    Host.integrate s orders.length =
      ⟨{ s with atoms := Device.download (Device.launches orders
          (Device.upload s scaling (Device.activeMatrix? s.barostat m))) s.atoms }, none⟩ := by
  rw [Host.integrate_eq_stepped hscaling (Simulation.activeScaling?_of_matrix hmatrix),
    Device.launches_upload s scaling _ orders hperm, Device.download_upload_iterate]
  rfl

end

/-- Two genuine backends of a run have the same result for every scenario but for their names. -/
theorem Run.exists_results_alike [Machine] {grid : Grid Float} {registry : Registry Float}
    {tolerance : Tolerance Float} {verbose : Bool} {run : Run}
    (hrun : Run.ofGrid grid registry tolerance verbose = .ok run) {j j' : Nat}
    {b b' : Backend Float} (hb : b.IsGenuine) (hb' : b'.IsGenuine)
    (hj : registry.backends[j]? = some b) (hj' : registry.backends[j']? = some b') {k : Nat}
    (hk : k < grid.size) :
    ∃ r r', run.report.results[k * registry.backends.length + j]? = some r ∧
      run.report.results[k * registry.backends.length + j']? = some r' ∧
      r.backend = b.name ∧ r' = { r with backend := b'.name } := by
  obtain ⟨scenarios, -, hlength, hresults⟩ := Run.exists_scenarios hrun
  have hscenario : scenarios[k]? = some scenarios[k] := List.getElem?_eq_getElem (by omega)
  obtain ⟨r, hr, hrb⟩ := Run.exists_result hresults hscenario hj
  obtain ⟨r', hr', hrb'⟩ := Run.exists_result hresults hscenario hj'
  rw [hb.run_eq] at hrb
  rw [hb'.run_eq] at hrb'
  cases hhost : (scenarios[k]).run .host tolerance with
  | error fault =>
    rw [hhost] at hrb
    cases hrb
  | ok result =>
    rw [hhost] at hrb hrb'
    obtain rfl := Except.ok.inj hrb
    obtain rfl := Except.ok.inj hrb'
    exact ⟨_, _, hr, hr', rfl, rfl⟩

/-- The loop on the host and the kernel on the processor agree: launch by launch for any operations
and any order of the threads, and in every run result by result. -/
theorem loop_and_launches_agree [Machine] :
    (∀ (α : Type) [Add α] [Sub α] [Mul α] [Scalar α] (s : Simulation α) (m : Mat3 α)
        (scaling : Array α), s.velocityScaling = .ofMat3 m → s.HasScaling scaling →
      (∀ orders : List (List Nat), (∀ order ∈ orders, order.Perm (List.range s.atoms.size)) →
        Host.integrate s orders.length =
          ⟨{ s with atoms := Device.download (Device.launches orders
              (Device.upload s scaling (Device.activeMatrix? s.barostat m))) s.atoms }, none⟩) ∧
      (∀ n, Device.integrate Device.processor s n = Host.integrate s n) ∧
      ∀ count, (Backend.device Device.processor).advance count s = Backend.host.advance count s) ∧
    ∀ (grid : Grid Float) (registry : Registry Float) (tolerance : Tolerance Float)
        (verbose : Bool) (run : Run), Run.ofGrid grid registry tolerance verbose = .ok run →
      ∀ j j', registry.backends[j]? = some .host →
        registry.backends[j']? = some (.device Device.processor) →
      ∀ k < grid.size, ∃ r r',
        run.report.results[k * registry.backends.length + j]? = some r ∧
        run.report.results[k * registry.backends.length + j']? = some r' ∧
        r'.scenario = r.scenario ∧ r'.checks = r.checks ∧ r'.mismatches = r.mismatches := by
  constructor
  · intro α _ _ _ _ s m scaling hmatrix hscaling
    refine ⟨?_, ?_, ?_⟩
    · intro orders hperm
      exact Host.integrate_eq_launches hmatrix hscaling hperm
    · intro n
      exact Device.integrate_processor_eq_host hmatrix hscaling.covers n
    · intro count
      exact Backend.advance_congr (Device.integrate_processor_eq_host hmatrix hscaling.covers) count
  · intro grid registry tolerance verbose run hrun j j' hj hj' k hk
    obtain ⟨r, r', hr, hr', -, halike⟩ :=
      Run.exists_results_alike hrun (.inl rfl) (.inr rfl) hj hj' hk
    subst halike
    exact ⟨r, _, hr, hr', rfl, rfl, rfl⟩

open Workstation

/-- The threads of the first launch run backwards, and both backends agree on the small grid. -/
theorem loop_and_launches_agree_sheared :
    Host.integrate Simulation.sheared 2 =
      ⟨{ Simulation.sheared with
        atoms := Device.download (Device.launches [[1, 0], [0, 1]]
          (Device.upload .sheared #[1 / 2, 1 / 2] (some .shear))) Simulation.sheared.atoms },
        none⟩ ∧
    ∃ run, Run.ofGrid .small .both .tight false = .ok run ∧
      ∃ r r', run.report.results[2]? = some r ∧ run.report.results[3]? = some r' ∧
        r'.scenario = r.scenario ∧ r'.checks = r.checks ∧ r'.mismatches = r.mismatches := by
  constructor
  · have hperm : ∀ order ∈ [[1, 0], [0, 1]],
        order.Perm (List.range Simulation.sheared.atoms.size) := by
      change ∀ order ∈ [[1, 0], [0, 1]], order.Perm [0, 1]
      decide
    exact (loop_and_launches_agree.1 Rat .sheared .shear _ rfl
      Simulation.hasScaling_sheared).1 _ hperm
  · obtain ⟨run, hrun⟩ := Run.exists_ofGrid_small
    obtain ⟨r, r', halike⟩ :=
      loop_and_launches_agree.2 _ _ _ _ run hrun 0 1 rfl rfl 1 (by decide)
    exact ⟨run, hrun, r, r', halike⟩

end Leapfrog
