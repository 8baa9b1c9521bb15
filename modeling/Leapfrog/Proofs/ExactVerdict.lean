import Leapfrog.Proofs.Comparison
import Leapfrog.Proofs.DiscreteTrajectory
import Leapfrog.Proofs.ReferenceFlow
import Mathlib.Algebra.Order.Field.Basic
import Mathlib.Algebra.Order.Field.Rat
import Mathlib.Data.Nat.Cast.Field
import Mathlib.Tactic.NormNum

/-!
# The verdict in exact arithmetic

Where nothing is rounded, the velocities of a scenario are those of the reference and its positions
are ahead of the parabola by half a step's share for every step. The tolerance grows with the number
of steps in the same way, so what a run decides does not depend on how many steps it takes.
-/

namespace Leapfrog

/-- The absolute value of an exact number. -/
theorem Scalar.abs_eq (a : ℚ) : Scalar.abs a = |a| := by
  change (if a < 0 then -a else a) = |a|
  split
  · next ha => exact (abs_of_neg ha).symm
  · next ha => exact (abs_of_nonneg (not_lt.mp ha)).symm

/-- An exact component is too far from its reference if the distance exceeds the bound. -/
theorem Component.misses_iff {bound : ℚ} {c : Component ℚ} :
    c.misses bound = true ↔ bound < |c.actual - c.expected| := by
  have hwithin : isWithin c.actual c.expected bound = decide (|c.actual - c.expected| ≤ bound) := by
    rw [isWithin, Scalar.abs_eq]
    rfl
  simp [misses, hwithin]

namespace Scenario

variable (scenario : Scenario ℚ)

/-- An exact simulation is never too large. -/
theorem simulation_eq_ok [Machine] :
    scenario.simulation = .ok (Synthetic.simulation scenario.atoms scenario.timestep
      scenario.velocity scenario.force) := by
  have hnegative : ([(scenario.atoms : ℤ), 3].any fun n => decide (n < 0)) = false := by
    simp
  simp only [simulation, Synthetic.fresh, Synthetic.checkSize, Limits.array, hnegative]
  rfl

/-- An atom of a scenario before the first step. -/
def atomBefore (i : ℕ) : Atom ℚ := Synthetic.atom scenario.velocity scenario.force i

/-- An atom of a scenario after the last step. -/
def atomAfter (i : ℕ) : Atom ℚ :=
  (scenario.atomBefore i).after ⟨scenario.timestep, none⟩ 1 scenario.steps

/-- The time after all steps, without rounding. -/
def exactTime : ℚ := scenario.steps * scenario.timestep

/-- The position that the reference has for an atom. -/
def expectedPosition (i : ℕ) : Vec3 ℚ :=
  (Reference.Start.ofAtom (scenario.atomBefore i)).positionAt scenario.exactTime
    (scenario.exactTime * scenario.exactTime)

/-- The velocity that the reference has for an atom. -/
def expectedVelocity (i : ℕ) : Vec3 ℚ :=
  (Reference.Start.ofAtom (scenario.atomBefore i)).velocityAt scenario.exactTime

/-- Along each axis the kernel divides the force by the same mass as the reference does. -/
theorem acceleration_atomBefore (i : ℕ) (axis : Axis) :
    (scenario.atomBefore i).acceleration axis =
      scenario.force.get axis * Synthetic.inverseMass i := by
  rw [Atom.acceleration, Vec3.get_mul]
  cases axis <;> rfl

/-- The reference velocity along an axis. -/
theorem get_expectedVelocity (i : ℕ) (axis : Axis) :
    (scenario.expectedVelocity i).get axis = scenario.velocity.get axis +
      scenario.force.get axis * scenario.exactTime * Synthetic.inverseMass i := by
  cases axis <;> rfl

/-- The reference position along an axis. -/
theorem get_expectedPosition (i : ℕ) (axis : Axis) :
    (scenario.expectedPosition i).get axis = (Synthetic.position i : Vec3 ℚ).get axis +
      scenario.velocity.get axis * scenario.exactTime +
        1 / 2 * scenario.force.get axis * (scenario.exactTime * scenario.exactTime) *
          Synthetic.inverseMass i := by
  cases axis <;> rfl

/-- The velocities are those of the reference. -/
theorem velocity_atomAfter (i : ℕ) :
    (scenario.atomAfter i).velocity = scenario.expectedVelocity i := by
  apply Vec3.ext_get
  intro axis
  have hafter : (scenario.atomAfter i).velocity.get axis = _ :=
    congrFun (Atom.velocity_after_of_uncoupled Barostat.none (.replicate 0) scenario.timestep
      (scenario.atomBefore i) rfl scenario.steps) axis
  have hstart : (scenario.atomBefore i).velocity = scenario.velocity := rfl
  rw [hafter, get_expectedVelocity, exactTime]
  simp only [Pi.add_apply, Pi.smul_apply, smul_eq_mul, acceleration_atomBefore, hstart]
  ring

/-- The positions are ahead of the reference by half a step's share for every step. -/
theorem position_atomAfter_sub (i : ℕ) (axis : Axis) :
    (scenario.atomAfter i).position.get axis - (scenario.expectedPosition i).get axis =
      scenario.steps / 2 * scenario.timestep ^ 2 * scenario.force.get axis /
        (1 + i % 100 : ℕ) := by
  have hafter : (scenario.atomAfter i).position.get axis = _ :=
    congrFun (Atom.position_after_of_uncoupled Barostat.none (.replicate 0) scenario.timestep
      (scenario.atomBefore i) rfl scenario.steps) axis
  have hstart : (scenario.atomBefore i).velocity = scenario.velocity := rfl
  have hplace : (scenario.atomBefore i).position = Synthetic.position i := rfl
  have hsum : ((scenario.steps * (scenario.steps + 1) / 2 : ℕ) : ℚ) =
      scenario.steps * (scenario.steps + 1) / 2 := by
    rw [Nat.cast_div_charZero (Nat.even_mul_succ_self scenario.steps).two_dvd]
    push_cast
    ring
  have hmass : (Synthetic.inverseMass i : ℚ) = 1 / (1 + i % 100 : ℕ) := by
    change ((1 : ℤ) : ℚ) / (((1 + i % 100 : ℕ) : ℤ) : ℚ) = _
    rw [Int.cast_one, Int.cast_natCast]
  rw [hafter, get_expectedPosition, exactTime, hmass]
  simp only [Pi.add_apply, Pi.smul_apply, smul_eq_mul, acceleration_atomBefore, hstart, hplace,
    hsum, hmass]
  ring

/-- What the reference of a scenario should be. -/
def exactReference : Reference ℚ where
  positions := (List.range scenario.atoms).map scenario.expectedPosition
  velocities := (List.range scenario.atoms).map scenario.expectedVelocity
  time := scenario.exactTime

/-- The reference of a simulation whose atoms have started like those of a scenario. -/
theorem ofSimulation_eq_ok {last : Simulation ℚ} (htimestep : last.timestep = scenario.timestep)
    (hatoms : last.atoms.toList = (List.range scenario.atoms).map scenario.atomAfter) :
    Reference.ofSimulation last (.whole scenario.steps) = .ok scenario.exactReference := by
  have hstart : last.starts =
      (List.range scenario.atoms).map fun i => Reference.Start.ofAtom (scenario.atomBefore i) := by
    rw [Simulation.starts, hatoms, List.map_map]
    refine List.map_congr_left fun i _ => ?_
    have hmoved : (scenario.atomBefore i).Moved (scenario.atomAfter i) := Atom.moved_after _ _ _ _
    rw [Function.comp_apply, hmoved]
    rfl
  rw [Reference.ofSimulation_whole, Reference.motion_eq_ok, hstart, htimestep, List.map_map,
    List.map_map]
  rfl

/-- A genuine backend leaves behind the atoms after the last step, and time goes on as it should. -/
theorem exists_last [Machine] {b : Backend ℚ} (hb : b.IsGenuine) :
    ∃ start last, scenario.simulation = .ok start ∧
      (b.advance (.whole scenario.steps) start).toExcept = .ok last ∧
      last.atoms.toList = (List.range scenario.atoms).map scenario.atomAfter ∧
      Reference.ofSimulation last (.whole scenario.steps) = .ok scenario.exactReference := by
  obtain ⟨step, time, hadvance⟩ := hb.exists_advance rfl
    (Synthetic.hasScaling_simulation scenario.atoms scenario.timestep scenario.velocity
      scenario.force) (n := scenario.steps) rfl
  refine ⟨_, _, scenario.simulation_eq_ok, by rw [hadvance]; rfl, ?_⟩
  have hatoms : ((stepAll ⟨scenario.timestep, none⟩ (Array.replicate scenario.atoms (1 : ℚ)))^[
      scenario.steps] (Synthetic.simulation scenario.atoms scenario.timestep scenario.velocity
        scenario.force).atoms).toList = (List.range scenario.atoms).map scenario.atomAfter := by
    apply List.ext_getElem?
    intro i
    rw [Array.getElem?_toList, getElem?_iterate_stepAll, Synthetic.getElem?_atoms]
    by_cases hi : i < scenario.atoms
    · have hfactor : (Array.replicate scenario.atoms (1 : ℚ))[i]? = some 1 := by
        simp [hi]
      rw [if_pos hi, stepAt_of_some hfactor, List.getElem?_map, List.getElem?_range hi]
      rfl
    · simp [hi]
  exact ⟨hatoms, scenario.ofSimulation_eq_ok rfl hatoms⟩

/-- The positions that a simulation has after the last step. -/
theorem positions_eq {last : Simulation ℚ}
    (hatoms : last.atoms.toList = (List.range scenario.atoms).map scenario.atomAfter) :
    last.positions = (List.range scenario.atoms).map fun i => (scenario.atomAfter i).position := by
  rw [Simulation.positions, hatoms, List.map_map]
  rfl

/-- The velocities that a simulation has after the last step. -/
theorem velocities_eq {last : Simulation ℚ}
    (hatoms : last.atoms.toList = (List.range scenario.atoms).map scenario.atomAfter) :
    last.velocities = scenario.exactReference.velocities := by
  rw [Simulation.velocities, hatoms, List.map_map]
  exact List.map_congr_left fun i _ => scenario.velocity_atomAfter i

/-- The position of every atom along every axis is compared, atom by atom. -/
theorem components_position {last : Simulation ℚ}
    (hatoms : last.atoms.toList = (List.range scenario.atoms).map scenario.atomAfter) :
    Component.ofVectors .position last.positions scenario.exactReference.positions =
      ((List.range scenario.atoms) ×ˢ Axis.all).map fun place =>
        ⟨.position, place.1, place.2, (scenario.atomAfter place.1).position.get place.2,
          (scenario.expectedPosition place.1).get place.2⟩ := by
  rw [scenario.positions_eq hatoms, exactReference, Component.ofVectors_map_range,
    product_eq_flatMap, List.map_flatMap]
  simp only [List.map_map]
  rfl

/-- No velocity is found to be wrong. -/
theorem components_velocity {last : Simulation ℚ}
    (hatoms : last.atoms.toList = (List.range scenario.atoms).map scenario.atomAfter)
    {bound : ℚ} (hbound : 0 ≤ bound) :
    (Component.ofVectors .velocity last.velocities scenario.exactReference.velocities).filter
      (Component.misses bound) = [] := by
  rw [List.filter_eq_nil_iff]
  intro c hc
  obtain ⟨-, a, e, ha, he, hactual, hexpected⟩ := Component.mem_ofVectors.mp hc
  rw [scenario.velocities_eq hatoms] at ha
  obtain rfl := Option.some.inj (ha.symm.trans he)
  rw [Component.misses_iff, hactual, hexpected, sub_self, abs_zero]
  exact not_lt.mpr hbound

end Scenario

/-- A share of every step exceeds a bound for every step if there is a step at all and its share
exceeds its bound. -/
theorem exceeds_iff (n : ℕ) (epsilon timestep force mass : ℚ) (hmass : 0 < mass) :
    n * epsilon < |n / 2 * timestep ^ 2 * force / mass| ↔
      1 ≤ n ∧ epsilon < 1 / 2 * timestep ^ 2 * |force| / mass := by
  have habs : |n / 2 * timestep ^ 2 * force / mass| =
      n * (1 / 2 * timestep ^ 2 * |force| / mass) := by
    rw [abs_div, abs_mul, abs_mul, abs_div, Nat.abs_cast, abs_two, abs_of_pos hmass,
      abs_of_nonneg (sq_nonneg timestep)]
    ring
  rw [habs]
  rcases Nat.eq_zero_or_pos n with rfl | hn
  · simp
  · have hcast : (0 : ℚ) < n := Nat.cast_pos.mpr hn
    rw [mul_lt_mul_iff_right₀ hcast]
    exact (and_iff_right hn).symm

/-- The largest share belongs to the lightest atom, which is the first one. -/
theorem forall_le_iff (atoms : ℕ) (hatoms : 0 < atoms) (force : Vec3 ℚ) (timestep epsilon : ℚ) :
    (∀ i < atoms, ∀ axis, 1 / 2 * timestep ^ 2 * |force.get axis| / (1 + i % 100 : ℕ) ≤ epsilon) ↔
      1 / 2 * timestep ^ 2 * max |force.x| (max |force.y| |force.z|) ≤ epsilon := by
  have hshare : 0 ≤ 1 / 2 * timestep ^ 2 := mul_nonneg one_half_pos.le (sq_nonneg timestep)
  constructor
  · intro h
    have hfirst (axis : Axis) : 1 / 2 * timestep ^ 2 * |force.get axis| ≤ epsilon := by
      have haxis := h 0 hatoms axis
      rwa [Nat.zero_mod, Nat.add_zero, Nat.cast_one, div_one] at haxis
    rw [mul_max_of_nonneg _ _ hshare, mul_max_of_nonneg _ _ hshare]
    exact max_le (hfirst .x) (max_le (hfirst .y) (hfirst .z))
  · intro h i _ axis
    have hget : |force.get axis| ≤ max |force.x| (max |force.y| |force.z|) := by
      cases axis with
      | x => exact le_max_left _ _
      | y => exact (le_max_left _ _).trans (le_max_right _ _)
      | z => exact (le_max_right _ _).trans (le_max_right _ _)
    have hmass : (1 : ℚ) ≤ (1 + i % 100 : ℕ) := by
      exact_mod_cast Nat.le_add_right 1 (i % 100)
    calc 1 / 2 * timestep ^ 2 * |force.get axis| / (1 + i % 100 : ℕ)
        ≤ 1 / 2 * timestep ^ 2 * |force.get axis| :=
          div_le_self (mul_nonneg hshare (abs_nonneg _)) hmass
      _ ≤ 1 / 2 * timestep ^ 2 * max |force.x| (max |force.y| |force.z|) :=
          mul_le_mul_of_nonneg_left hget hshare
      _ ≤ epsilon := h

/-- The bound of a tolerance after a number of steps is one, and not negative. -/
theorem Tolerance.bound_eq_ok (t : Tolerance ℚ) (n : ℕ) :
    t.bound (.whole n) = .ok (n * t.epsilon) ∧ 0 ≤ n * t.epsilon := by
  have hepsilon : 0 ≤ t.epsilon := by
    have h := t.epsilon_nonnegative
    change (true && !(decide (t.epsilon ≤ ((0 : ℤ) : ℚ)) && !decide (((0 : ℤ) : ℚ) ≤ t.epsilon))) =
      true at h
    by_contra hlt
    simp [hlt, (not_le.mp hlt).le] at h
  refine ⟨?_, mul_nonneg n.cast_nonneg hepsilon⟩
  rw [Tolerance.bound, Number.isNegative_whole]
  rfl

namespace Scenario

variable (scenario : Scenario ℚ) (tolerance : Tolerance ℚ)

/-- Whether the share of a step at an atom along an axis exceeds what is admitted for one step. -/
def exceeds (place : ℕ × Axis) : Bool :=
  1 ≤ scenario.steps ∧
    tolerance.epsilon < 1 / 2 * scenario.timestep ^ 2 * |scenario.force.get place.2| /
      (1 + place.1 % 100 : ℕ)

/-- The mismatch of a position. -/
def positionMismatch (place : ℕ × Axis) : Mismatch ℚ :=
  ⟨place.1, place.2.index, .position, (scenario.atomAfter place.1).position.get place.2,
    (scenario.expectedPosition place.1).get place.2, scenario.steps * tolerance.epsilon⟩

/-- The components that are too far apart are those positions whose shares are too large. -/
theorem mismatches_eq {last : Simulation ℚ}
    (hatoms : last.atoms.toList = (List.range scenario.atoms).map scenario.atomAfter) :
    ((last.components scenario.exactReference).filter
      (Component.misses (scenario.steps * tolerance.epsilon))).map
        (Component.mismatch (scenario.steps * tolerance.epsilon)) =
      (((List.range scenario.atoms) ×ˢ Axis.all).filter (scenario.exceeds tolerance)).map
        (scenario.positionMismatch tolerance) := by
  rw [Simulation.components, List.filter_append,
    scenario.components_velocity hatoms (tolerance.bound_eq_ok scenario.steps).2, List.append_nil,
    scenario.components_position hatoms, List.filter_map, List.map_map]
  congr 1
  refine List.filter_congr fun place _ => ?_
  have hmass : (0 : ℚ) < (1 + place.1 % 100 : ℕ) := Nat.cast_pos.mpr (by omega)
  rw [Bool.eq_iff_iff, Function.comp_apply, Component.misses_iff]
  dsimp only
  rw [scenario.position_atomAfter_sub, exceeds_iff _ _ _ _ _ hmass]
  exact decide_eq_true_iff.symm

/-- No share is too large if there is no step or the largest share is not. -/
theorem filter_exceeds_eq_nil_iff :
    ((List.range scenario.atoms) ×ˢ Axis.all).filter (scenario.exceeds tolerance) = [] ↔
      scenario.steps = 0 ∨ 1 / 2 * scenario.timestep ^ 2 *
        max |scenario.force.x| (max |scenario.force.y| |scenario.force.z|) ≤
          tolerance.epsilon := by
  rw [← forall_le_iff scenario.atoms scenario.atoms_pos, List.filter_eq_nil_iff]
  constructor
  · intro h
    rcases Nat.eq_zero_or_pos scenario.steps with hzero | hpos
    · exact .inl hzero
    · refine .inr fun i hi axis => ?_
      have hplace := h (i, axis)
        (List.pair_mem_product.mpr ⟨List.mem_range.mpr hi, Axis.mem_all axis⟩)
      exact not_lt.mp fun hlt => hplace (decide_eq_true ⟨hpos, hlt⟩)
  · intro hall place hplace hexceeds
    obtain ⟨i, axis⟩ := place
    obtain ⟨hsteps, hlt⟩ := of_decide_eq_true hexceeds
    obtain ⟨hi, -⟩ := List.pair_mem_product.mp hplace
    rcases hall with hzero | hle
    · omega
    · exact absurd hlt (not_lt.mpr (hle i (List.mem_range.mp hi) axis))

end Scenario

/-- What a run decides in exact arithmetic: velocities are right, positions are ahead by half a
step's share for every step, and the mismatches are those shares that exceed what is admitted for
one step. -/
theorem exact_verdict [Machine] {b : Backend ℚ} (hb : b.IsGenuine) (scenario : Scenario ℚ)
    (tolerance : Tolerance ℚ) :
    ∃ start last reference result, ∃ x e : ℕ → Vec3 ℚ,
      scenario.simulation = .ok start ∧
      (b.advance (.whole scenario.steps) start).toExcept = .ok last ∧
      Reference.ofSimulation last (.whole scenario.steps) = .ok reference ∧
      scenario.run b tolerance = .ok result ∧
      last.velocities = reference.velocities ∧
      last.positions = (List.range scenario.atoms).map x ∧
      reference.positions = (List.range scenario.atoms).map e ∧
      (∀ i axis, (x i).get axis - (e i).get axis =
        scenario.steps / 2 * scenario.timestep ^ 2 * scenario.force.get axis /
          (1 + i % 100 : ℕ)) ∧
      result = ⟨b.name, scenario, 2 * 3 * scenario.atoms,
        (((List.range scenario.atoms) ×ˢ Axis.all).filter fun place => 1 ≤ scenario.steps ∧
          tolerance.epsilon < 1 / 2 * scenario.timestep ^ 2 * |scenario.force.get place.2| /
            (1 + place.1 % 100 : ℕ)).map fun place =>
          ⟨place.1, place.2.index, .position, (x place.1).get place.2, (e place.1).get place.2,
            scenario.steps * tolerance.epsilon⟩⟩ ∧
      (result.passed = true ↔ scenario.steps = 0 ∨
        1 / 2 * scenario.timestep ^ 2 *
          max |scenario.force.x| (max |scenario.force.y| |scenario.force.z|) ≤
            tolerance.epsilon) := by
  obtain ⟨start, last, hstart, hlast, hatoms, hreference⟩ := scenario.exists_last hb
  obtain ⟨hbound, -⟩ := tolerance.bound_eq_ok scenario.steps
  have hsize : last.atoms.size = scenario.atoms := by
    rw [← Array.length_toList, hatoms, List.length_map, List.length_range]
  have hrun : scenario.run b tolerance = .ok ⟨b.name, scenario, 2 * 3 * scenario.atoms,
      (((List.range scenario.atoms) ×ˢ Axis.all).filter (scenario.exceeds tolerance)).map
        (scenario.positionMismatch tolerance)⟩ :=
    Scenario.run_eq_ok_iff.mpr ⟨start, hstart, last, hlast, _,
      Simulation.check_eq_ok_iff.mpr ⟨_, hreference, _, hbound,
        scenario.mismatches_eq tolerance hatoms⟩, by rw [hsize]⟩
  refine ⟨start, last, scenario.exactReference, _, _, _, hstart, hlast, hreference, hrun,
    scenario.velocities_eq hatoms, scenario.positions_eq hatoms, rfl,
    scenario.position_atomAfter_sub, rfl, ?_⟩
  rw [Result.passed, List.isEmpty_iff, List.map_eq_nil_iff]
  exact scenario.filter_exceeds_eq_nil_iff tolerance

/-- Three atoms under a force that is too large for the first of them along one axis. -/
def Scenario.pushed : Scenario ℚ where
  atoms := 3
  timestep := 1 / 2
  velocity := ⟨5, 0, 0⟩
  force := ⟨2, -4, 0⟩
  steps := 7
  atoms_pos := by decide
  timestep_positive := by decide +kernel

/-- One quarter is admitted for every step. -/
def Tolerance.quarter : Tolerance ℚ := ⟨1 / 4, by decide +kernel⟩

open Workstation

/-- The pushed atoms fail a check on the device, at one component out of eighteen. -/
theorem exact_verdict_pushed :
    ∃ result, Scenario.pushed.run (.device Device.processor) .quarter = .ok result ∧
      result.passed = false ∧
      result.mismatches.map (fun m => (m.atom, m.dimension)) = [(0, 1)] := by
  obtain ⟨start, last, reference, result, x, e, -, -, -, hrun, -, -, -, -, hresult, hpassed⟩ :=
    exact_verdict (.inr rfl) Scenario.pushed .quarter
  have hmax : max (2 : ℚ) 4 = 4 := max_eq_right (by norm_num)
  refine ⟨result, hrun, ?_, ?_⟩
  · rw [← Bool.not_eq_true, hpassed]
    norm_num [Scenario.pushed, Tolerance.quarter, hmax]
  · rw [hresult, List.map_map]
    change ((List.range 3 ×ˢ Axis.all).filter (Scenario.pushed.exceeds .quarter)).map
      (fun place => ((place.1 : ℤ), (place.2.index : ℤ))) = [(0, 1)]
    decide +kernel

end Leapfrog
