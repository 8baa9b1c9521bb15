import Leapfrog.Proofs.BuiltSimulations
import Leapfrog.Reference

/-!
# Inverse masses along the axes

An atom has two sorts of inverse masses: a scalar one, which the reference reads, and one for each
axis, which a step reads. Only the scalar ones are checked. What is given for the axes is taken as it
is, whatever it is, and neither the verdict on the arrays nor the reference depends on it. In what is
built both sorts are the same.
-/

namespace Leapfrog

namespace Arrays

variable {α : Type} [Scalar α] {a : Arrays α}

/-- Arrays with other inverse masses along the axes. -/
def withPerAxis (a : Arrays α) (perAxis : Tensor α) : Arrays α :=
  { a with inverseMassesPerAxis := perAxis }

/-- No condition looks at the inverse masses along the axes, but for their shape. -/
theorem holds_withPerAxis {perAxis : Tensor α} (hshape : perAxis.shape = a.inverseMassesPerAxis.shape)
    (hall : ∀ c : Condition, c.Holds a) (c : Condition) : c.Holds (a.withPerAxis perAxis) := by
  have hc := hall c
  cases c with
  | vectors c =>
    cases c with
    | inverseMassesPerAxis => exact hshape.trans hc
    | _ => exact hc
  | _ => exact hc

end Arrays

/-- How atoms started stands in four of their columns. -/
theorem Reference.Start.map_ofAtom {α : Type} (atoms : List (Atom α)) :
    atoms.map ofAtom =
      List.zipWith (fun xv fm => ⟨xv.1, xv.2, fm.1, fm.2⟩)
        ((atoms.map fun a => a.column .startPositions).zip
          (atoms.map fun a => a.column .startVelocities))
        ((atoms.map fun a => a.column .forces).zip (atoms.map Atom.inverseMass)) := by
  induction atoms with
  | nil => rfl
  | cons a rest ih => exact congrArg (_ :: ·) ih

/-- Simulations that differ in their inverse masses along the axes have the same reference. -/
theorem Simulation.reference_congr {s s' : Simulation Float} {perAxis : Tensor Float}
    (h : s'.arrays = s.arrays.withPerAxis perAxis) (steps : Number Float) :
    Reference.ofSimulation s' steps = Reference.ofSimulation s steps := by
  have hcolumn {c : Arrays.Column} (hc : s'.column c = s.column c) :
      (s'.atoms.toList.map fun a => a.column c) = s.atoms.toList.map fun a => a.column c := by
    simpa [column, Tensor.table] using congrArg (fun t => Tensor.triples t.entries) hc
  have hposition := hcolumn (c := .startPositions) (congrArg Arrays.startPositions h)
  have hvelocity := hcolumn (c := .startVelocities) (congrArg Arrays.startVelocities h)
  have hforce := hcolumn (c := .forces) (congrArg Arrays.forces h)
  have hmasses : s'.atoms.toList.map Atom.inverseMass = s.atoms.toList.map Atom.inverseMass :=
    congrArg (fun arrays => arrays.inverseMasses.entries) h
  have htimestep : s'.timestep = s.timestep :=
    congrArg (fun arrays => arrays.timestep.nearest) h
  unfold Reference.ofSimulation
  rw [Reference.Start.map_ofAtom, Reference.Start.map_ofAtom, hposition, hvelocity, hforce, hmasses,
    htimestep]

/-- A simulation that is made from arrays has positive scalar masses, and its masses along the axes
are kept as they are given: all of them are positive exactly if those that are given are. Any others of
the same shape are accepted as well, and lead to the same simulation but for themselves, with the same
reference. A simulation that is built has the same positive mass along all axes of an atom. -/
theorem masses_of_accepted [Machine] (s : Simulation Float) :
    (∀ a : Arrays Float, Simulation.ofArrays a = .ok s →
      (∀ b ∈ s.atoms, Scalar.isPositive b.inverseMass = true) ∧
      s.column .inverseMassesPerAxis = a.inverseMassesPerAxis ∧
      ((∀ b ∈ s.atoms, ∀ axis, Scalar.isPositive (b.inverseMassPerAxis.get axis) = true) ↔
        ∀ m ∈ a.inverseMassesPerAxis.entries, Scalar.isPositive m = true) ∧
      ∀ perAxis : Tensor Float, perAxis.shape = a.inverseMassesPerAxis.shape →
        ∃ s', Simulation.ofArrays (a.withPerAxis perAxis) = .ok s' ∧
          s'.arrays = s.arrays.withPerAxis perAxis ∧
          ∀ steps, Reference.ofSimulation s' steps = Reference.ofSimulation s steps) ∧
    ∀ (count timestep : Number Float) (v0 f0 : Tensor Float),
      Synthetic.build count timestep v0 f0 = .ok s →
      ∀ b ∈ s.atoms, Scalar.isPositive b.inverseMass = true ∧
        b.inverseMassPerAxis = .replicate b.inverseMass := by
  constructor
  · intro a hs
    have hshort := Arrays.hasShortGroups_of_ofArrays hs
    obtain ⟨hall, rfl⟩ := hshort.ofArrays_eq_ok_iff.mp hs
    have hkept := Arrays.arrays_simulation hall
    have hcolumn : a.simulation.column .inverseMassesPerAxis = a.inverseMassesPerAxis :=
      congrArg Arrays.inverseMassesPerAxis hkept
    refine ⟨(Simulation.isValid_of_holds hshort hall).mass_positive, hcolumn, ?_,
      fun perAxis hshape => ?_⟩
    · rw [← hcolumn, Simulation.forall_column]
      rfl
    · have hshort' : (a.withPerAxis perAxis).HasShortGroups := hshort
      have hall' := Arrays.holds_withPerAxis hshape hall
      have harrays : (a.withPerAxis perAxis).simulation.arrays =
          a.simulation.arrays.withPerAxis perAxis := by
        rw [Arrays.arrays_simulation hall', hkept]
        rfl
      exact ⟨_, hshort'.ofArrays_eq_ok_iff.mpr ⟨hall', rfl⟩, harrays,
        Simulation.reference_congr harrays⟩
  · intro count timestep v0 f0 hs
    obtain ⟨n, velocity, force, -, -, -, -, -, -, rfl⟩ := Synthetic.build_eq_ok_iff.mp hs
    exact Synthetic.forall_atoms fun i => ⟨Synthetic.isPositive_inverseMass i, rfl⟩

/-- The arrays of a single synthetic atom. -/
def Arrays.lone : Arrays Float := (Synthetic.simulation 1 0.5 ⟨1, 0, 0⟩ ⟨2, 0, -1⟩).arrays

/-- The arrays of a single atom are accepted. -/
theorem Arrays.exists_ofArrays_lone : ∃ s, Simulation.ofArrays lone = .ok s :=
  ⟨_, Synthetic.ofArrays_arrays Nat.one_pos (by decide +kernel)⟩

/-- Inverse masses along the axes of which none is positive: the last one is not a number. -/
def Tensor.weightless : Tensor Float := .table [⟨0, -1, 0 / 0⟩]

section

open Workstation

/-- A single atom is accepted with and without weight, and what the reference says of it is the same.
Two atoms that are built have weight along all axes. -/
theorem masses_of_accepted_lone :
    (∃ s s', Simulation.ofArrays .lone = .ok s ∧
      Simulation.ofArrays (Arrays.lone.withPerAxis .weightless) = .ok s' ∧
      s'.column .inverseMassesPerAxis = .weightless ∧
      (∀ b ∈ s'.atoms, Scalar.isPositive b.inverseMass = true) ∧
      Reference.ofSimulation s' (.whole 2) = Reference.ofSimulation s (.whole 2)) ∧
    ∃ s, Synthetic.build (.scalar 2) (.scalar 0.5) (.row [1, 0, 0]) (.row [2, 0, -1]) = .ok s ∧
      ∀ b ∈ s.atoms, Scalar.isPositive b.inverseMass = true ∧
        b.inverseMassPerAxis = .replicate b.inverseMass := by
  constructor
  · obtain ⟨s, hs⟩ := Arrays.exists_ofArrays_lone
    obtain ⟨-, -, -, hother⟩ := (masses_of_accepted s).1 _ hs
    obtain ⟨s', hs', -, hreference⟩ := hother .weightless rfl
    obtain ⟨hpositive, hkept, -⟩ := (masses_of_accepted s').1 _ hs'
    exact ⟨s, s', hs, hs', hkept, hpositive, hreference (.whole 2)⟩
  · obtain ⟨s, hs⟩ : ∃ s, Synthetic.build (.scalar (2 : Float)) (.scalar 0.5)
        (.row [1, 0, 0]) (.row [2, 0, -1]) = .ok s := exists_ok_of_toBool (by decide +kernel)
    exact ⟨s, hs, (masses_of_accepted s).2 _ _ _ _ hs⟩

end

/-- An atom is accepted although none of its inverse masses along the axes is positive. -/
theorem exists_ofArrays_of_weightless :
    ∃ s, Simulation.ofArrays (Arrays.lone.withPerAxis .weightless) = .ok s ∧
      ∃ b ∈ s.atoms, ∀ axis, Scalar.isPositive (b.inverseMassPerAxis.get axis) = false := by
  have hshort : (Arrays.lone.withPerAxis .weightless).HasShortGroups :=
    Synthetic.hasShortGroups_arrays
  have hall : ∀ c ∈ Arrays.Condition.all, c.Holds (Arrays.lone.withPerAxis .weightless) := by
    decide +kernel
  refine ⟨_, hshort.ofArrays_eq_ok_iff.mpr ⟨fun c => hall c (Arrays.Condition.mem_all c), rfl⟩, ?_⟩
  refine ⟨_, Array.mem_of_getElem? (i := 0) rfl, fun axis => ?_⟩
  cases axis <;> decide +kernel

end Leapfrog
