import Leapfrog.Proofs.AdvanceOutcome
import Leapfrog.Proofs.ArrayLimits
import Leapfrog.Proofs.BuiltSimulations
import Leapfrog.Proofs.Comparison
import Leapfrog.Proofs.RunCompletion
import Leapfrog.Proofs.ScenarioRun
import Leapfrog.Proofs.UnsignedDoubles

/-!
# The validators agree

Numbers are looked at when a scenario is made of them, when a simulation is built from them, when the
arrays of a simulation are accepted, and when it is advanced. A scenario is made exactly if its
simulation is built, and what is built is accepted everywhere else. Afterwards the clock of the
simulation, the scenario and the reference show one and the same time. A count of negative zero is
the one exception: the reference multiplies it as it is given.
-/

namespace Leapfrog

/-- A number is accepted as a count of atoms exactly if its exact value is a positive natural
number. -/
theorem Number.atoms_eq_ok_iff {count : Number Float} {k : { n : Nat // 0 < n }} :
    count.atoms = .ok k ↔ count.value? = some ((k : Nat) : ℚ) := by
  have hwhole : count.toInt? = .ok (some ((k : Nat) : Int)) ↔ count.value? = some ((k : Nat) : ℚ) := by
    rw [toInt?_eq_ok_iff, Int.cast_natCast]
  rw [← hwhole, Number.atoms, bind_eq_ok_iff]
  constructor
  · intro h
    obtain ⟨answer, hanswer, h⟩ := h
    cases answer with
    | none => cases h
    | some j =>
      dsimp only at h
      split at h
      · next hj =>
        obtain rfl := Except.ok.inj h
        rw [hanswer, Int.toNat_of_nonneg (by omega)]
      · cases h
  · intro h
    refine ⟨some (k : Nat), h, ?_⟩
    simp [k.2, pure, Except.pure]

/-- A list has three entries or makes no vector. -/
theorem Vec3.ofList?_eq_some_iff {α : Type} {entries : List α} {v : Vec3 α} :
    ofList? entries = some v ↔ v.toList = entries := by
  constructor
  · intro h
    match entries with
    | [x, y, z] =>
      obtain rfl := Option.some.inj h
      rfl
  · rintro rfl
    exact ofList?_toList v

/-- A row makes a vector exactly if the list of its entries does. -/
theorem Synthetic.vector_row {α : Type} (name : String) (entries : List α) :
    vector name (.row entries) =
      match Vec3.ofList? entries with
      | some v => .ok v
      | none => .error (.componentShape name [entries.length]) := by
  have haxes : Limits.checkedAxes (α := α) (Tensor.row entries) = .ok (.row entries) := rfl
  have hvector : (Tensor.row entries).vector? = Vec3.ofList? entries := by
    unfold Tensor.vector? Tensor.row
    dsimp only
    split
    · rfl
    · next hlength =>
      cases hv : Vec3.ofList? entries with
      | none => rfl
      | some v =>
        rw [← Vec3.ofList?_eq_some_iff.mp hv] at hlength
        exact absurd rfl hlength
  unfold vector
  rw [haxes]
  change (match (Tensor.row entries).vector? with | some v => _ | none => _) = _
  rw [hvector]
  cases Vec3.ofList? entries <;> rfl

namespace Scenario

/-- A scenario is made exactly if there are a number of atoms, a timestep and a number of steps, and
both vectors have three components. -/
theorem make_of_steps {count timestep steps : Number Float} {v0 f0 : List Float} {n : Nat}
    (hsteps : steps.steps = .ok n) :
    make count timestep v0 f0 steps = do
      let ⟨k, positive⟩ ← count.atoms
      let ⟨timestep, htimestep⟩ ← timestep.timestep
      let velocity ← vector "v0" v0
      let force ← vector "f0" f0
      return ⟨k, timestep, velocity, force, n, positive, htimestep⟩ := by
  unfold make
  rw [hsteps]
  rfl

/-- A scenario comes back when it is made once more from what it holds. -/
theorem make_fields (p : Scenario Float) :
    make (.whole p.atoms) (.scalar p.timestep) p.velocity.toList p.force.toList (.whole p.steps) =
      .ok p := by
  obtain ⟨k, timestep, velocity, force, n, hk, htimestep⟩ := p
  have hatoms : (Number.whole (α := Float) k).atoms = .ok ⟨k, hk⟩ :=
    Number.atoms_eq_ok_iff.mpr rfl
  have hsteps : (Number.whole (α := Float) n).steps = .ok n := Number.steps_eq_ok_iff.mpr rfl
  have haccepted : (Number.scalar timestep).timestep = .ok ⟨timestep, htimestep⟩ :=
    Number.timestep_eq_ok_iff.mpr ⟨trivial, rfl⟩
  rw [make_of_steps hsteps, hatoms, haccepted]
  rfl

/-- A simulation before the first step of a scenario. -/
structure Fits (p : Scenario Float) (s : Simulation Float) : Prop where
  size : s.atoms.size = p.atoms
  timestep : s.timestep = p.timestep
  position : ∀ a ∈ s.atoms, a.position = a.startPosition
  velocity : ∀ a ∈ s.atoms, a.velocity = p.velocity ∧ a.startVelocity = p.velocity
  force : ∀ a ∈ s.atoms, a.force = p.force
  inverseMass : ∀ a ∈ s.atoms, a.inverseMassPerAxis = .replicate a.inverseMass
  step : s.step = 0
  time : s.time = Scalar.ofInt 0

/-- The clocks of a scenario, of a simulation and of the reference show the same time after an advance
by a genuine backend. The number of steps of the reference is the one that was given. -/
def ClocksAgree [Machine] (p : Scenario Float) (steps : Number Float) (s : Simulation Float) :
    Prop :=
  ∀ b : Backend Float, b.IsGenuine → ∃ after, b.advance (.whole p.steps) s = ⟨after, none⟩ ∧
    p.totalTime = .ok after.time ∧
    (∀ r, Reference.ofSimulation after (.whole p.steps) = .ok r → r.time = after.time) ∧
    ∀ r, Reference.ofSimulation after steps = .ok r →
      r.time = after.time ∨ steps = .scalar (-0.0) ∧ r.time = -0.0

/-- The synthetic simulation of a scenario fits it. -/
theorem fits_simulation (p : Scenario Float) :
    p.Fits (Synthetic.simulation p.atoms p.timestep p.velocity p.force) where
  size := by simp [Synthetic.simulation]
  timestep := rfl
  position := Synthetic.forall_atoms fun _ => rfl
  velocity := Synthetic.forall_atoms fun _ => ⟨rfl, rfl⟩
  force := Synthetic.forall_atoms fun _ => rfl
  inverseMass := Synthetic.forall_atoms fun _ => rfl
  step := rfl
  time := rfl

/-- A clock that starts at zero shows the time of the scenario, whether or not there are steps to
take. -/
theorem time_eq (p : Scenario Float) (hn : (Scalar.ofInt p.steps : Float).isFinite = true) :
    (if p.steps = 0 then Scalar.ofInt 0 else Scalar.ofInt 0 + Scalar.ofInt p.steps * p.timestep) =
      p.time := by
  split
  · next hzero =>
    rw [time, hzero]
    exact (zero_mul_of_isPositive p.timestep_positive).1.symm
  · exact zero_add_of_isUnsigned (isUnsigned_time hn p.timestep_positive)

/-- The time of the reference is that of the scenario, unless the count is the negative zero. -/
theorem time_of_reference (p : Scenario Float) {steps : Number Float}
    (hsteps : steps.value? = some (p.steps : ℚ)) {s : Simulation Float} (hs : s.timestep = p.timestep)
    (hn : (Scalar.ofInt p.steps : Float).isFinite = true) {r : Reference Float}
    (hr : Reference.ofSimulation s steps = .ok r) :
    r.time = p.time ∨ steps = .scalar (-0.0) ∧ r.time = -0.0 := by
  obtain ⟨-, time, htime, squared, -, rfl⟩ := Reference.ofSimulation_eq_ok_iff.mp hr
  rw [hs] at htime
  cases steps with
  | whole k =>
    have hk : (k : ℚ) = (p.steps : Int) := Option.some.inj hsteps
    obtain rfl := Rat.intCast_inj.mp hk
    left
    exact Except.ok.inj (htime.symm.trans (Number.times_whole hn p.timestep))
  | scalar x =>
    have hproduct : time = x * p.timestep := (Except.ok.inj htime).symm
    rcases eq_ofInt_of_value? hsteps with rfl | ⟨rfl, -⟩
    · exact .inl hproduct
    · exact .inr ⟨rfl, hproduct.trans (zero_mul_of_isPositive p.timestep_positive).2⟩

/-- The clocks agree on the synthetic simulation of a scenario. -/
theorem clocksAgree [Machine] (p : Scenario Float) {steps : Number Float}
    (hsteps : steps.value? = some (p.steps : ℚ))
    (hn : (Scalar.ofInt p.steps : Float).isFinite = true) :
    p.ClocksAgree steps (Synthetic.simulation p.atoms p.timestep p.velocity p.force) := by
  intro b hb
  have hadvance := hb.advance_of_finite rfl
    (Synthetic.hasScaling_simulation p.atoms p.timestep p.velocity p.force) hn
  have htotal : p.totalTime = .ok p.time := Number.times_whole hn p.timestep
  have hclock := p.time_eq hn
  refine ⟨_, hadvance, ?_, fun r hr => ?_, fun r hr => ?_⟩
  · exact htotal.trans (congrArg Except.ok hclock.symm)
  · rcases p.time_of_reference rfl rfl hn hr with htime | ⟨hscalar, -⟩
    · exact htime.trans hclock.symm
    · cases hscalar
  · rcases p.time_of_reference hsteps rfl hn hr with htime | hzero
    · exact .inl (htime.trans hclock.symm)
    · exact .inr hzero

end Scenario

/-- A scenario holds the numbers that it was made of. -/
structure Scenario.Holds (p : Scenario Float) (count timestep : Number Float)
    (v0 f0 : List Float) (n : Nat) : Prop where
  atoms : count.value? = some (p.atoms : ℚ)
  timestep : p.timestep = timestep.nearest
  velocity : p.velocity.toList = v0
  force : p.force.toList = f0
  steps : p.steps = n

/-- A scenario is made and its simulation is built, or both are refused with a fault of the same
kind. -/
theorem Scenario.make_and_build [Machine] {count steps : Number Float} {n : Nat}
    (hsteps : steps.value? = some (n : ℚ))
    (hsize : ∀ k : Nat, count.value? = some (k : ℚ) → Synthetic.checkSize (α := Float) k = .ok ())
    (timestep : Number Float) (v0 f0 : List Float) :
    (∃ p : Scenario Float, make count timestep v0 f0 steps = .ok p ∧
      Synthetic.build count timestep (.row v0) (.row f0) =
        .ok (Synthetic.simulation p.atoms p.timestep p.velocity p.force) ∧
      p.Holds count timestep v0 f0 n) ∨
    ∃ fault fault', make count timestep v0 f0 steps = .error fault ∧
      Synthetic.build count timestep (.row v0) (.row f0) = .error fault' ∧
      fault.kind = fault'.kind := by
  rw [make_of_steps (Number.steps_eq_ok_iff.mpr hsteps)]
  unfold Synthetic.build
  rw [Synthetic.vector_row, Synthetic.vector_row, vector, vector]
  -- Both look at the same things in the same order; a vector is refused in words that differ.
  cases hcount : count.atoms with
  | error fault => exact .inr ⟨fault, fault, rfl, rfl, rfl⟩
  | ok k =>
    have hk := Number.atoms_eq_ok_iff.mp hcount
    cases htimestep : timestep.timestep with
    | error fault => exact .inr ⟨fault, fault, rfl, rfl, rfl⟩
    | ok t =>
      obtain ⟨-, ht⟩ := Number.timestep_eq_ok_iff.mp htimestep
      cases hv : Vec3.ofList? v0 with
      | none => exact .inr ⟨_, _, rfl, rfl, rfl⟩
      | some velocity =>
        cases hf : Vec3.ofList? f0 with
        | none => exact .inr ⟨_, _, rfl, rfl, rfl⟩
        | some force =>
          left
          refine ⟨⟨k, t, velocity, force, n, k.2, t.2⟩, rfl, ?_, hk, ht, ?_, ?_, rfl⟩
          · change Synthetic.fresh (k : Nat) (t : Float) velocity force = _
            rw [Synthetic.fresh, hsize k hk]
            rfl
          · exact Vec3.ofList?_eq_some_iff.mp hv
          · exact Vec3.ofList?_eq_some_iff.mp hf

/-- For every count of steps that is a natural number, whatever the other numbers are, a scenario is
made and its simulation is built, or both are refused with a fault of the same kind. What is built
meets all conditions on arrays, comes back from them and fits the scenario. An advance by the steps of
the scenario is accepted, and then all clocks agree. A scenario can be made again from what it holds.
The limits of arrays are left aside. -/
theorem validators_agree [Machine] {count steps : Number Float} {n : Nat}
    (hsteps : steps.value? = some (n : ℚ))
    (hsize : ∀ k : Nat, count.value? = some (k : ℚ) → Synthetic.checkSize (α := Float) k = .ok ())
    (timestep : Number Float) (v0 f0 : List Float) :
    (∃ p s, Scenario.make count timestep v0 f0 steps = .ok p ∧
      Synthetic.build count timestep (.row v0) (.row f0) = .ok s ∧
      p.Holds count timestep v0 f0 n ∧ p.Fits s ∧
      (∀ c : Arrays.Condition, c.Holds s.arrays) ∧ Simulation.ofArrays s.arrays = .ok s ∧
      ((Scalar.ofInt n : Float).isFinite = true → p.ClocksAgree steps s) ∧
      Scenario.make (.whole p.atoms) (.scalar p.timestep) p.velocity.toList p.force.toList
        (.whole p.steps) = .ok p) ∨
    ∃ fault fault', Scenario.make count timestep v0 f0 steps = .error fault ∧
      Synthetic.build count timestep (.row v0) (.row f0) = .error fault' ∧
      fault.kind = fault'.kind := by
  refine (Scenario.make_and_build hsteps hsize timestep v0 f0).imp_left fun h => ?_
  obtain ⟨p, hmake, hbuild, hholds⟩ := h
  have hvalid : (Synthetic.simulation p.atoms p.timestep p.velocity p.force).IsValid :=
    Synthetic.isValid_simulation p.atoms_pos p.timestep_positive
  refine ⟨p, _, hmake, hbuild, hholds, p.fits_simulation, Simulation.isValid_iff.mp hvalid,
    Synthetic.ofArrays_arrays p.atoms_pos p.timestep_positive, fun hn => ?_, p.make_fields⟩
  obtain rfl := hholds.steps
  exact p.clocksAgree hsteps hn

open Workstation

/-- Two atoms are within the limits, which are not asked for an infinite number of them. -/
theorem Synthetic.checkSize_of_two {k : Nat} (h : (Number.scalar (2 : Float)).value? = some (k : ℚ)) :
    checkSize (α := Float) k = .ok () := by
  have hk : ((2 : Nat) : ℚ) = k := Option.some.inj (Number.value?_two.symm.trans h)
  obtain rfl : 2 = k := by exact_mod_cast hk
  exact checkSize_eq_ok_iff.mpr (by decide)

/-- Counts that are given as doubles make a scenario and build its simulation, whose clocks agree
after two steps. An infinite number of atoms is refused on both sides. -/
theorem validators_agree_doubles :
    ((Number.scalar (2 : Float)).value? = some ((2 : Nat) : ℚ) ∧
      (∀ k : Nat, (Number.scalar (2 : Float)).value? = some (k : ℚ) →
        Synthetic.checkSize (α := Float) k = .ok ()) ∧
      ∃ p s, Scenario.make (.scalar 2) (.scalar 0.5) [1, 0, 0] [2, 0, -1] (.scalar 2) = .ok p ∧
        Synthetic.build (.scalar 2) (.scalar 0.5) (.row [1, 0, 0]) (.row [2, 0, -1]) = .ok s ∧
        p.Fits s ∧ p.ClocksAgree (.scalar 2) s) ∧
    ∃ fault fault',
      Scenario.make (.scalar (1 / 0)) (.scalar 0.5) [1, 0, 0] [2, 0, -1] (.scalar 2) = .error fault ∧
      Synthetic.build (.scalar (1 / 0)) (.scalar 0.5) (.row [1, 0, 0]) (.row [2, 0, -1]) = .error fault' ∧
      fault.kind = fault'.kind := by
  have hsize (k : Nat) := Synthetic.checkSize_of_two (k := k)
  have htwo : (Scalar.ofInt 2 : Float).isFinite = true := by decide +kernel
  refine ⟨⟨Number.value?_two, hsize, ?_⟩, ?_⟩
  · obtain ⟨p, hp⟩ : ∃ p, Scenario.make (.scalar (2 : Float)) (.scalar 0.5) [1, 0, 0] [2, 0, -1] (.scalar 2) =
        .ok p := exists_ok_of_toBool (by decide +kernel)
    rcases validators_agree Number.value?_two hsize (.scalar 0.5) [1, 0, 0] [2, 0, -1] with hagree | hrefused
    · obtain ⟨p, s, hmake, hbuild, -, hfits, -, -, hclocks, -⟩ := hagree
      exact ⟨p, s, hmake, hbuild, hfits, hclocks htwo⟩
    · obtain ⟨fault, -, hfault, -⟩ := hrefused
      cases hp.symm.trans hfault
  · have hnone (k : Nat) : (Number.scalar (1 / 0 : Float)).value? ≠ some (k : ℚ) := by
      have hinfinite : Decimal.Binary64.ofFloat (1 / 0) = .infinite false := by decide +kernel
      change (Decimal.Binary64.ofFloat (1 / 0)).value? ≠ _
      rw [hinfinite]
      exact nofun
    rcases validators_agree Number.value?_two (fun k hk => absurd hk (hnone k)) (.scalar 0.5) [1, 0, 0]
      [2, 0, -1] with hagree | hrefused
    · obtain ⟨p, s, -, -, hholds, -⟩ := hagree
      exact absurd hholds.atoms (hnone p.atoms)
    · exact hrefused

/-- One atom and no steps, the count of which is given as the negative zero: the scenario and the
clock of the simulation show zero, and the reference shows the negative zero. -/
theorem reference_time_of_negative_zero :
    (Number.scalar (-0.0 : Float)).value? = some ((0 : Nat) : ℚ) ∧
    ∃ p s r, Scenario.make (.whole 1) (.scalar 0.5) [1, 0, 0] [2, 0, -1] (.scalar (-0.0)) = .ok p ∧
      Synthetic.build (.whole 1) (.scalar 0.5) (.row [1, 0, 0]) (.row [2, 0, -1]) = .ok s ∧
      Backend.host.advance (.whole p.steps) s = ⟨s, none⟩ ∧ p.totalTime = .ok s.time ∧
      Reference.ofSimulation s (.scalar (-0.0)) = .ok r ∧ r.time = -0.0 ∧ s.time ≠ -0.0 := by
  have hzero : (Number.scalar (-0.0 : Float)).value? = some ((0 : Nat) : ℚ) := by
    have hexact : Decimal.Binary64.toInt? (-0.0) = some 0 := by decide +kernel
    exact Decimal.Binary64.toInt?_eq_some_iff.mp hexact
  obtain ⟨r, hr⟩ : ∃ r, Reference.ofSimulation
      (Synthetic.simulation 1 (0.5 : Float) ⟨1, 0, 0⟩ ⟨2, 0, -1⟩) (.scalar (-0.0)) = .ok r :=
    exists_ok_of_toBool (by decide +kernel)
  obtain ⟨-, time, htime, squared, -, hparts⟩ := Reference.ofSimulation_eq_ok_iff.mp hr
  have hproduct : time = -0.0 * 0.5 := (Except.ok.inj htime).symm
  refine ⟨hzero, ⟨1, 0.5, ⟨1, 0, 0⟩, ⟨2, 0, -1⟩, 0, Nat.one_pos, by decide +kernel⟩, _, r,
    ?_, ?_, Backend.advance_of_zero rfl, by decide +kernel, hr, ?_, by decide +kernel⟩
  · decide +kernel
  · exact Synthetic.build_eq_ok_iff.mpr ⟨⟨1, Nat.one_pos⟩, _, _, by decide, trivial,
      by decide +kernel, rfl, rfl, Synthetic.checkSize_eq_ok_iff.mpr (by decide), rfl⟩
  · rw [← hparts]
    exact hproduct.trans (by decide +kernel)

end Leapfrog
