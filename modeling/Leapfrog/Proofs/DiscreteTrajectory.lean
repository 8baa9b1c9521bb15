import Leapfrog.Proofs.Advance
import Mathlib.Algebra.BigOperators.Intervals
import Mathlib.LinearAlgebra.Matrix.Notation
import Mathlib.Tactic.Ring

/-!
# The discrete trajectory

In exact arithmetic a step is an affine map of the velocity: it multiplies by `A = λ I - Δt M` and
adds `Δt a`, where `λ` is the factor of the atom's group, `a` its acceleration and `M` the matrix of
a Parrinello-Rahman barostat, or zero. Iterating the map gives the velocity after any number of
steps in powers of `A`, and the position adds up the velocities after each step. Without coupling
the sums are those of an arithmetic progression.

A step divides nothing, so exact arithmetic is that of any commutative ring, such as a field.
-/

namespace Leapfrog

open Host (Drive)
open scoped Matrix

instance : Fintype Axis := ⟨⟨Axis.all, Axis.nodup_all⟩, Axis.mem_all⟩

variable {K : Type} [CommRing K]

/-- The entries of a matrix, by row and column. -/
def Mat3.toMatrix (m : Mat3 K) : Matrix Axis Axis K := Matrix.of fun i j => (m.row i).get j

/-- The sum from left to right is the sum over the axes. -/
theorem Vec3.dot_eq_sum (v w : Vec3 K) : v.dot w = ∑ axis, v.get axis * w.get axis := by
  change v.x * w.x + v.y * w.y + v.z * w.z =
    ([Axis.x, Axis.y, Axis.z].map fun axis => v.get axis * w.get axis).sum
  simp [Vec3.get, add_assoc]

/-- A matrix acts on a vector as the matrix of its entries does. -/
theorem Mat3.get_mulVec_eq (m : Mat3 K) (v : Vec3 K) : (m.mulVec v).get = m.toMatrix *ᵥ v.get := by
  funext axis
  rw [Mat3.get_mulVec, Vec3.dot_eq_sum]
  rfl

/-- The matrix that couples velocities: zero unless a Parrinello-Rahman barostat is on. -/
def Barostat.couplingMatrix (barostat : Barostat) (m : Mat3 K) : Matrix Axis Axis K :=
  if barostat = .parrinelloRahman then m.toMatrix else 0

/-- The acceleration of an atom: along each axis the force times the inverse mass of that axis. -/
def Atom.acceleration (a : Atom K) : Axis → K := (a.force.mul a.inverseMassPerAxis).get

/-- What a step multiplies velocities by. -/
def propagator (factor timestep : K) (coupling : Matrix Axis Axis K) : Matrix Axis Axis K :=
  factor • (1 : Matrix Axis Axis K) - timestep • coupling

/-- Where an atom moves does not change its acceleration. -/
theorem Atom.Moved.acceleration_eq {a b : Atom K} (h : a.Moved b) :
    b.acceleration = a.acceleration := by
  rw [h]
  rfl

/-- A step is an affine map of the velocity. -/
theorem Atom.velocity_next (barostat : Barostat) (m : Mat3 K) (timestep factor : K) (a : Atom K) :
    (a.next ⟨timestep, Device.activeMatrix? barostat m⟩ factor).velocity.get =
      propagator factor timestep (barostat.couplingMatrix m) *ᵥ a.velocity.get +
        timestep • a.acceleration := by
  have hfree : propagator factor timestep (barostat.couplingMatrix m) *ᵥ a.velocity.get =
      factor • a.velocity.get - timestep • (barostat.couplingMatrix m *ᵥ a.velocity.get) := by
    rw [propagator, Matrix.sub_mulVec, Matrix.smul_mulVec, Matrix.smul_mulVec, Matrix.one_mulVec]
  rw [hfree]
  by_cases hbarostat : barostat = .parrinelloRahman
  · subst hbarostat
    funext axis
    have hcoupling := congrFun (Mat3.get_mulVec_eq m a.velocity) axis
    simp only [Atom.next, Atom.nextVelocity, Device.activeMatrix?, if_true, Barostat.couplingMatrix,
      Vec3.get_sub, Vec3.get_add, Vec3.get_scale, Vec3.get_times, hcoupling, Atom.acceleration,
      Pi.add_apply, Pi.sub_apply, Pi.smul_apply, smul_eq_mul]
    ring
  · funext axis
    simp only [Atom.next, Atom.nextVelocity, Device.activeMatrix?, hbarostat, if_false,
      Barostat.couplingMatrix, Vec3.get_add, Vec3.get_scale, Vec3.get_times, Atom.acceleration,
      Matrix.zero_mulVec, Pi.add_apply, Pi.sub_apply, Pi.smul_apply, smul_eq_mul, Pi.zero_apply]
    ring

/-- A step moves the position by the new velocity. -/
theorem Atom.position_next (d : Drive K) (factor : K) (a : Atom K) :
    (a.next d factor).position.get =
      a.position.get + d.timestep • (a.next d factor).velocity.get := by
  funext axis
  simp only [Atom.next, Vec3.get_add, Vec3.get_times, Pi.add_apply, Pi.smul_apply, smul_eq_mul]
  ring

/-- An affine map iterated. -/
theorem iterate_affine (A : Matrix Axis Axis K) (b : Axis → K) (v : ℕ → Axis → K)
    (hstep : ∀ n, v (n + 1) = A *ᵥ v n + b) (n : ℕ) :
    v n = A ^ n *ᵥ v 0 + ∑ k ∈ Finset.range n, A ^ k *ᵥ b := by
  induction n with
  | zero => simp
  | succ n ih =>
    have hhead : A *ᵥ (A ^ n *ᵥ v 0) = A ^ (n + 1) *ᵥ v 0 := by
      rw [Matrix.mulVec_mulVec, ← pow_succ']
    have htail : A *ᵥ ∑ k ∈ Finset.range n, A ^ k *ᵥ b =
        ∑ k ∈ Finset.range n, A ^ (k + 1) *ᵥ b := by
      rw [Matrix.mulVec_sum]
      refine Finset.sum_congr rfl fun k _ => ?_
      rw [Matrix.mulVec_mulVec, ← pow_succ']
    rw [hstep, ih, Matrix.mulVec_add, hhead, htail, Finset.sum_range_succ', pow_zero,
      Matrix.one_mulVec, add_assoc]

/-- A sum of increments. -/
theorem iterate_sum (h : K) (x v : ℕ → Axis → K) (hstep : ∀ n, x (n + 1) = x n + h • v (n + 1))
    (n : ℕ) : x n = x 0 + h • ∑ j ∈ Finset.Icc 1 n, v j := by
  induction n with
  | zero => simp
  | succ n ih => rw [hstep, ih, Finset.sum_Icc_succ_top (by omega), smul_add, add_assoc]

/-- The numbers up to the next one add up to so much more. -/
theorem triangle_succ (n : ℕ) : (n + 1) * (n + 2) / 2 = n * (n + 1) / 2 + (n + 1) := by
  have hsplit : (n + 1) * (n + 2) = n * (n + 1) + (n + 1) * 2 := by ring
  rw [hsplit, Nat.add_mul_div_right _ _ (by decide)]

section

variable (barostat : Barostat) (m : Mat3 K) (timestep factor : K) (a : Atom K)

/-- One atom after a number of steps. -/
def Atom.after (d : Drive K) (factor : K) (n : ℕ) (a : Atom K) : Atom K := (Atom.next d factor)^[n] a

/-- Steps move an atom and change nothing else about it. -/
theorem Atom.moved_after (d : Drive K) (factor : K) (n : ℕ) (a : Atom K) :
    a.Moved (a.after d factor n) := by
  induction n generalizing a with
  | zero => rfl
  | succ n ih => exact (a.moved_next d factor).trans (ih _)

/-- The last step comes after all the others. -/
theorem Atom.after_succ (d : Drive K) (factor : K) (n : ℕ) (a : Atom K) :
    a.after d factor (n + 1) = (a.after d factor n).next d factor :=
  Function.iterate_succ_apply' _ _ _

/-- The velocity after a number of steps, in powers of what a step multiplies by. -/
theorem Atom.velocity_after (n : ℕ) :
    (a.after ⟨timestep, Device.activeMatrix? barostat m⟩ factor n).velocity.get =
      propagator factor timestep (barostat.couplingMatrix m) ^ n *ᵥ a.velocity.get +
        timestep • ∑ k ∈ Finset.range n,
          propagator factor timestep (barostat.couplingMatrix m) ^ k *ᵥ a.acceleration := by
  have hstep (n : ℕ) :
      (a.after ⟨timestep, Device.activeMatrix? barostat m⟩ factor (n + 1)).velocity.get =
        propagator factor timestep (barostat.couplingMatrix m) *ᵥ
          (a.after ⟨timestep, Device.activeMatrix? barostat m⟩ factor n).velocity.get +
            timestep • a.acceleration := by
    rw [Atom.after_succ, Atom.velocity_next, (a.moved_after _ _ _).acceleration_eq]
  rw [iterate_affine _ _ (fun n =>
    (a.after ⟨timestep, Device.activeMatrix? barostat m⟩ factor n).velocity.get) hstep n,
    Finset.smul_sum]
  refine congrArg₂ (· + ·) rfl (Finset.sum_congr rfl fun k _ => ?_)
  rw [Matrix.mulVec_smul]

/-- The position after a number of steps adds up the velocities after each of them. -/
theorem Atom.position_after (d : Drive K) (n : ℕ) :
    (a.after d factor n).position.get =
      a.position.get + d.timestep • ∑ j ∈ Finset.Icc 1 n, (a.after d factor j).velocity.get := by
  refine iterate_sum d.timestep (fun n => (a.after d factor n).position.get)
    (fun n => (a.after d factor n).velocity.get) (fun n => ?_) n
  rw [Atom.after_succ, Atom.position_next]

/-- Without coupling the velocity grows by the same amount in every step. -/
theorem Atom.velocity_after_of_uncoupled (hcoupling : barostat.couplingMatrix m = 0) (n : ℕ) :
    (a.after ⟨timestep, Device.activeMatrix? barostat m⟩ 1 n).velocity.get =
      a.velocity.get + (n * timestep) • a.acceleration := by
  have hone : propagator 1 timestep (barostat.couplingMatrix m) = 1 := by
    rw [propagator, hcoupling, one_smul, smul_zero, sub_zero]
  rw [Atom.velocity_after, hone]
  simp only [one_pow, Matrix.one_mulVec, Finset.sum_const, Finset.card_range]
  rw [← Nat.cast_smul_eq_nsmul K, smul_smul, mul_comm timestep]

/-- Without coupling the position grows as the sum of the first whole numbers does. -/
theorem Atom.position_after_of_uncoupled (hcoupling : barostat.couplingMatrix m = 0) (n : ℕ) :
    (a.after ⟨timestep, Device.activeMatrix? barostat m⟩ 1 n).position.get =
      a.position.get + (n * timestep) • a.velocity.get +
        ((n * (n + 1) / 2 : ℕ) * timestep ^ 2) • a.acceleration := by
  induction n with
  | zero => simp [Atom.after]
  | succ n ih =>
    rw [Atom.after_succ, Atom.position_next, ← Atom.after_succ, ih,
      Atom.velocity_after_of_uncoupled _ _ _ _ hcoupling, triangle_succ]
    funext axis
    simp only [Pi.add_apply, Pi.smul_apply, smul_eq_mul]
    push_cast
    ring

end

section

variable [Scalar K] {b : Backend K} {s : Simulation K} {m : Mat3 K} {scaling : Array K}

/-- A genuine backend takes each atom through its own steps. -/
theorem Backend.IsGenuine.getElem?_advance [Machine] (hb : b.IsGenuine)
    (hmatrix : s.velocityScaling = .ofMat3 m) (hscaling : s.HasScaling scaling) {i : ℕ} {a : Atom K}
    {factor : K} (ha : s.atoms[i]? = some a) (hfactor : scaling[i]? = some factor) (n : ℕ) :
    (b.advance (.whole n) s).simulation.atoms[i]? =
      some (a.after ⟨s.timestep, Device.activeMatrix? s.barostat m⟩ factor n) := by
  rw [hb.atoms_advance hmatrix hscaling, getElem?_iterate_stepAll, ha, stepAt_of_some hfactor]
  rfl

/-- The trajectory of every atom in closed form, on the host as on the device. The factor of an atom is
the entry of the coupling table at the index of its group, counted from the front or from the end.

The clock is a matter of its own: it needs the count of steps as a scalar. -/
theorem advance_closed_form [Machine] (hb : b.IsGenuine) (hmatrix : s.velocityScaling = .ofMat3 m)
    (hscaling : s.HasScaling scaling) {i : ℕ} {a : Atom K} (ha : s.atoms[i]? = some a) :
    ∃ (group : ℤ) (k : ℕ) (factor : K), s.groups[i]? = some group ∧
      (group = k ∨ group + s.couplings.length = k) ∧ s.couplings[k]? = some factor ∧
    ∃ x v : ℕ → Vec3 K,
      (∀ n : ℕ, (b.advance (.whole n) s).simulation.atoms[i]? =
        some { a with position := x n, velocity := v n }) ∧
      (∀ n : ℕ, Scalar.isFinite (Scalar.ofInt n : K) = true →
        (b.advance (.whole n) s).fault? = none) ∧
      (∀ n : ℕ, (v n).get =
        (factor • 1 - s.timestep • s.barostat.couplingMatrix m) ^ n *ᵥ a.velocity.get +
          s.timestep • ∑ k ∈ Finset.range n,
            (factor • 1 - s.timestep • s.barostat.couplingMatrix m) ^ k *ᵥ a.acceleration) ∧
      (∀ n : ℕ, (x n).get = a.position.get + s.timestep • ∑ j ∈ Finset.Icc 1 n, (v j).get) ∧
      (factor = 1 → s.barostat.couplingMatrix m = 0 → ∀ n : ℕ,
        (v n).get = a.velocity.get + (n * s.timestep) • a.acceleration ∧
        (x n).get = a.position.get + (n * s.timestep) • a.velocity.get +
          ((n * (n + 1) / 2 : ℕ) * s.timestep ^ 2) • a.acceleration) := by
  obtain ⟨group, factor, hgroup, hfactor, hfound⟩ := hscaling.exists_factor ha
  obtain ⟨k, hentry, hposition⟩ := Simulation.exists_entry_of_scalingOf hfound
  let d : Drive K := ⟨s.timestep, Device.activeMatrix? s.barostat m⟩
  refine ⟨group, k, factor, hgroup, hposition, hentry, fun n => (a.after d factor n).position,
    fun n => (a.after d factor n).velocity, ?_, ?_, ?_, ?_, ?_⟩
  · intro n
    rw [hb.getElem?_advance hmatrix hscaling ha hfactor]
    exact congrArg some (a.moved_after d factor n)
  · intro n hn
    rw [hb.advance_eq hmatrix hscaling, Backend.clock_of_finite hn]
    split <;> rfl
  · exact a.velocity_after s.barostat m s.timestep factor
  · exact a.position_after factor d
  · intro hfactor hcoupling n
    subst hfactor
    exact ⟨a.velocity_after_of_uncoupled s.barostat m s.timestep hcoupling n,
      a.position_after_of_uncoupled s.barostat m s.timestep hcoupling n⟩

end

open Workstation

/-- Atoms that are sheared and slowed down, so that the propagator is no multiple of the identity. -/
theorem advance_closed_form_sheared :
    ∃ x v : ℕ → Vec3 ℚ,
      (∀ n : ℕ, ((Backend.device Device.processor).advance (.whole n)
          Simulation.sheared).simulation.atoms[1]? =
        some { Synthetic.atom ⟨4, 2, 0⟩ ⟨0, 0, 6⟩ 1 with position := x n, velocity := v n }) ∧
      ∀ n : ℕ, (v n).get =
        ((1 / 2 : ℚ) • 1 - (1 / 2 : ℚ) • Mat3.shear.toMatrix) ^ n *ᵥ Vec3.get ⟨4, 2, 0⟩ +
          (1 / 2 : ℚ) • ∑ k ∈ Finset.range n,
            ((1 / 2 : ℚ) • 1 - (1 / 2 : ℚ) • Mat3.shear.toMatrix) ^ k *ᵥ Vec3.get ⟨0, 0, 3⟩ := by
  have hatom : Simulation.sheared.atoms[1]? = some (Synthetic.atom ⟨4, 2, 0⟩ ⟨0, 0, 6⟩ 1) := rfl
  obtain ⟨group, k, factor, hgroup, hposition, hfactor, x, v, hatoms, -, hv, -⟩ :=
    advance_closed_form (.inr rfl) rfl Simulation.hasScaling_sheared hatom
  have hzero : group = 0 := (Option.some.inj hgroup).symm
  have hone : Simulation.sheared.couplings.length = 1 := rfl
  have hlt : k < 1 := hone ▸ (List.getElem?_eq_some_iff.mp hfactor).1
  obtain rfl : k = 0 := by omega
  obtain rfl : 1 / 2 = factor := Option.some.inj hfactor
  have hacceleration : (Synthetic.atom ⟨4, 2, 0⟩ ⟨0, 0, 6⟩ 1 : Atom ℚ).acceleration =
      Vec3.get ⟨0, 0, 3⟩ := by
    funext axis
    cases axis <;>
      norm_num [Atom.acceleration, Synthetic.atom, Synthetic.inverseMass, Synthetic.masses,
        Vec3.get, Vec3.mul, Vec3.replicate, Scalar.ofInt]
  rw [hacceleration] at hv
  exact ⟨x, v, hatoms, hv⟩

end Leapfrog
