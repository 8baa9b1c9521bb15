import Leapfrog.Proofs.Columns
import Leapfrog.Proofs.Doubles
import Leapfrog.Simulation.Synthetic

/-!
# Simulations that are built

A synthetic simulation of at least one atom meets all conditions on arrays, so that what is built is
never refused afterwards: it comes back, unchanged, from its own arrays. The inverse masses of its
atoms are the same along all axes, and positive.
-/

namespace Leapfrog

namespace Synthetic

section

variable {α : Type} [Sub α] [Div α] [Scalar α] {n : Nat} {timestep : α} {velocity force : Vec3 α}

/-- All atoms of a synthetic simulation have the form of one. -/
theorem forall_atoms {p : Atom α → Prop} (h : ∀ i, p (atom velocity force i)) :
    ∀ a ∈ (simulation n timestep velocity force).atoms, p a := by
  intro a ha
  obtain ⟨i, rfl⟩ := Array.mem_ofFn.mp ha
  exact h i

/-- All atoms of a synthetic simulation are in the first group. -/
theorem eq_zero_of_mem_groups {group : Int}
    (h : group ∈ (simulation n timestep velocity force).groups) : group = 0 :=
  Array.eq_of_mem_replicate h

/-- The groups of a synthetic simulation fit into 32 bits. -/
theorem hasShortGroups_arrays : (simulation n timestep velocity force).arrays.HasShortGroups := by
  intro given hgiven
  obtain ⟨group, hgroup, rfl⟩ := List.mem_map.mp hgiven
  have hzero : group = 0 := eq_zero_of_mem_groups (Array.mem_toList_iff.mp hgroup)
  exact ⟨0, congrArg some hzero, by decide⟩

/-- Something is built exactly if there are a number of atoms and a timestep, both vectors have three
components, and the arrays are within their limits. -/
theorem build_eq_ok_iff [Machine] {count t : Number α} {v0 f0 : Tensor α} {s : Simulation α} :
    build count t v0 f0 = .ok s ↔
      ∃ n velocity force, count.atoms = .ok n ∧ t.FitsWord ∧ Scalar.isPositive t.nearest = true ∧
        vector "v0" v0 = .ok velocity ∧ vector "f0" f0 = .ok force ∧
        checkSize (α := α) n = .ok () ∧ s = simulation n t.nearest velocity force := by
  unfold build fresh
  simp only [bind_eq_ok_iff, Number.timestep_eq_ok_iff]
  constructor
  · intro h
    obtain ⟨n, hn, t, ⟨hword, ht⟩, velocity, hvelocity, force, hforce, _, hsize, hs⟩ := h
    refine ⟨n, velocity, force, hn, hword, ht ▸ t.2, hvelocity, hforce, hsize, ?_⟩
    rw [← ht]
    exact (Except.ok.inj hs).symm
  · intro h
    obtain ⟨n, velocity, force, hn, hword, hpositive, hvelocity, hforce, hsize, rfl⟩ := h
    exact ⟨n, hn, ⟨_, hpositive⟩, ⟨hword, rfl⟩, velocity, hvelocity, force, hforce, (), hsize, rfl⟩

end

/-- The inverse mass of an atom is positive. -/
theorem isPositive_inverseMass (i : Nat) : Scalar.isPositive (inverseMass i : Float) = true := by
  have hall : ∀ k < masses,
      Scalar.isPositive (Scalar.ofInt 1 / Scalar.ofInt (1 + k : Nat) : Float) = true := by
    decide +kernel
  exact hall (i % masses) (Nat.mod_lt i (by decide))

variable {n : Nat} {timestep : Float} {velocity force : Vec3 Float}

/-- A synthetic simulation of at least one atom is valid. -/
theorem isValid_simulation (hn : 0 < n) (htimestep : Scalar.isPositive timestep = true) :
    (simulation n timestep velocity force).IsValid where
  atoms_pos := by simpa [simulation] using hn
  timestep_positive := htimestep
  mass_positive := forall_atoms isPositive_inverseMass
  matrix_shape := rfl
  group_count := by simp [simulation]
  group_present group hgroup := by
    rw [eq_zero_of_mem_groups hgroup]
    exact ⟨Int.le_refl 0, Int.zero_lt_one⟩

/-- A synthetic simulation of at least one atom is accepted as it is. -/
theorem ofArrays_arrays (hn : 0 < n) (htimestep : Scalar.isPositive timestep = true) :
    Simulation.ofArrays (simulation n timestep velocity force).arrays =
      .ok (simulation n timestep velocity force) := by
  refine hasShortGroups_arrays.ofArrays_eq_ok_iff.mpr ⟨?_, ?_⟩
  · exact Simulation.isValid_iff.mp (isValid_simulation hn htimestep)
  · rw [Simulation.simulation_arrays]
    rfl

end Synthetic

end Leapfrog
