import Leapfrog.Proofs.Comparison

/-!
# Backends keep their atoms

Neither the loop nor the kernel creates or removes atoms. So a run on them always compares six
components of every atom of its scenario.
-/

namespace Leapfrog

variable {α : Type}

/-- A result that is kept in an outcome is what it was. -/
theorem Outcome.toExcept_ofExcept (s : Simulation α) (result : Except (Fault α) (Simulation α)) :
    (Outcome.ofExcept s result).toExcept = result := by
  cases result <;> rfl

/-- A second change starts from what the first one has left. -/
theorem Outcome.toExcept_andThen (o : Outcome α) (next : Simulation α → Outcome α) :
    (o.andThen next).toExcept = o.toExcept >>= fun s => (next s).toExcept := by
  obtain ⟨s, fault?⟩ := o
  cases fault? <;> rfl

/-- An outcome without a fault is its simulation. -/
theorem Outcome.eq_of_toExcept {o : Outcome α} {s : Simulation α} (h : o.toExcept = .ok s) :
    s = o.simulation := by
  obtain ⟨_, fault?⟩ := o
  cases fault? with
  | none => exact (Except.ok.inj h).symm
  | some fault => cases h

/-- A backend that leaves as many atoms as it has found, unless it stops with a fault. Backends are
to change positions, velocities and the clock only, so all of them should. -/
def Backend.KeepsAtoms (b : Backend α) : Prop :=
  ∀ s n last, (b.integrate s n).toExcept = .ok last → last.atoms.size = s.atoms.size

section

variable [Add α] [Mul α] [Scalar α]

/-- Advancing keeps atoms if taking steps does. -/
theorem Backend.KeepsAtoms.size_advance {b : Backend α} (hb : b.KeepsAtoms) {n : Nat}
    {s last : Simulation α} (h : (b.advance (.whole n) s).toExcept = .ok last) :
    last.atoms.size = s.atoms.size := by
  rw [Backend.advance_whole] at h
  split at h
  · obtain rfl := Except.ok.inj h
    rfl
  · rw [Outcome.toExcept_andThen] at h
    obtain ⟨middle, hmiddle, hclock⟩ := bind_eq_ok_iff.mp h
    rw [Outcome.eq_of_toExcept hclock, Backend.atoms_clock, hb s n middle hmiddle]

end

variable [Add α] [Sub α] [Mul α]

/-- The loop writes over the components of the atoms it has found. -/
theorem Backend.keepsAtoms_host : (Backend.host : Backend α).KeepsAtoms := by
  intro s n last h
  change (Outcome.ofExcept s _).toExcept = .ok last at h
  rw [Outcome.toExcept_ofExcept] at h
  obtain ⟨scaling, -, h⟩ := bind_eq_ok_iff.mp h
  obtain ⟨matrix?, -, h⟩ := bind_eq_ok_iff.mp h
  obtain ⟨atoms, hatoms, h⟩ := bind_eq_ok_iff.mp h
  obtain rfl := Except.ok.inj h
  exact Host.size_of_sweeps hatoms

variable [Scalar α]

/-- Positions and velocities are copied back into the atoms that were there. -/
theorem Backend.keepsAtoms_device [Machine] (name : String) :
    (Backend.device name : Backend α).KeepsAtoms := by
  intro s n last h
  change (Outcome.ofExcept s _).toExcept = .ok last at h
  rw [Outcome.toExcept_ofExcept] at h
  obtain ⟨_, -, h⟩ := bind_eq_ok_iff.mp h
  obtain ⟨scaling, -, h⟩ := bind_eq_ok_iff.mp h
  obtain ⟨matrix, -, h⟩ := bind_eq_ok_iff.mp h
  dsimp only at h
  split at h
  · cases h
  · obtain rfl := Except.ok.inj h
    exact Array.size_mapIdx

variable [Div α]

/-- There are six components for every atom of a scenario. -/
theorem Scenario.length_compared [Machine] {scenario : Scenario α} {b : Backend α}
    (hb : b.KeepsAtoms) {components : List (Component α)}
    (h : scenario.compared b = .ok components) :
    components.length = 6 * scenario.atoms := by
  obtain ⟨start, hstart, last, hlast, reference, hreference, rfl⟩ :=
    Scenario.compared_eq_ok_iff.mp h
  rw [Simulation.length_components hreference, hb.size_advance hlast,
    Scenario.eq_of_simulation hstart]
  simp [Synthetic.simulation]

end Leapfrog
