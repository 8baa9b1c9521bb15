import Leapfrog.Proofs.StateAdvance

/-!
# Validity lasts

What a genuine backend does to a simulation, with or without a fault, is to move its atoms and to put
its clock on. Validity does not speak of either, so a state that was accepted and owns its motion stays
valid through everything that is done to it and to its copies. A valid simulation has the groups that a
step looks up, and therefore every count that converts to a double is taken.

A state that shares its motion may be accepted all the same. It stops at an array that it must not
write, or loses its validity where its inverse masses are among its positions.
-/

namespace Leapfrog

namespace Simulation

variable {α : Type} [Scalar α] {s after : Simulation α}

/-- A valid simulation is valid wherever its atoms are moved. -/
theorem IsValid.of_moved (hs : s.IsValid) (h : s.Moved after) : after.IsValid := by
  have hatoms {p : Atom α → Prop} (hp : ∀ a b, a.Moved b → (p a ↔ p b))
      (hall : ∀ a ∈ s.atoms, p a) : ∀ a ∈ after.atoms, p a := by
    simp only [← Array.mem_toList_iff] at hall ⊢
    exact (forall_mem_iff_of_forall₂ h.atoms hp).mp hall
  constructor
  · rw [← Array.length_toList, ← h.atoms.length_eq]
    exact hs.atoms_pos
  · rw [h.frame]
    exact hs.timestep_positive
  · refine hatoms (fun a b hmoved => ?_) hs.mass_positive
    unfold Atom.Moved at hmoved
    rw [hmoved]
  · rw [h.frame]
    exact hs.matrix_shape
  · rw [h.size_eq, h.groupScaling_eq.2]
    exact hs.group_count
  · rw [h.frame]
    exact hs.group_present

end Simulation

namespace Backend

variable {α : Type} [Add α] [Mul α] [Scalar α] {b : Backend α} {s : Simulation α}

/-- The clock leaves everything else alone, also where the time stands still. -/
theorem moved_clock {after : Simulation α} (h : s.Moved after) (n : Nat) :
    s.Moved (clock n after).simulation := by
  obtain ⟨hatoms, hframe⟩ := h
  unfold clock
  dsimp only
  cases (Number.whole (n : Int)).times after.timestep with
  | error fault =>
    exact ⟨hatoms, congrArg (fun t : Simulation α => { t with step := after.step + n }) hframe⟩
  | ok elapsed =>
    exact ⟨hatoms, congrArg (fun t : Simulation α =>
      { t with step := after.step + n, time := after.time + elapsed }) hframe⟩

/-- Whatever comes of an advance by a genuine backend, the atoms have been moved and the clock has
been put on, and nothing else has changed. -/
theorem IsGenuine.moved_advance [Machine] [Sub α] (hb : b.IsGenuine)
    (hmatrix : s.velocityScaling.shape = [3, 3]) (count : Number α) :
    s.Moved (b.advance count s).simulation := by
  obtain ⟨m, hm⟩ := Tensor.exists_eq_ofMat3 hmatrix
  cases hsteps : count.steps with
  | error fault =>
    rw [advance_of_refused hsteps]
    exact .refl s
  | ok n =>
    rw [advance_of_steps hsteps]
    by_cases hscaling : ∃ scaling, s.HasScaling scaling
    · obtain ⟨scaling, hscaling⟩ := hscaling
      rw [hb.advance_eq hm hscaling]
      split
      · exact .refl s
      · exact moved_clock ⟨moved_iterate_stepAll _ scaling n s.atoms, rfl⟩ n
    · obtain ⟨fault, hfault⟩ := hb.exists_advance_eq hm (not_exists.mp hscaling) n
      rw [hfault]
      exact .refl s

end Backend

namespace State

variable {α : Type} [Scalar α] {s : State α}

/-- A state that owns its motion and from which a valid simulation is read. -/
structure IsSound (s : State α) : Prop where
  owns : s.OwnsMotion
  valid : s.load.IsValid

/-- A copy of a sound state is sound. -/
theorem IsSound.copy (hs : s.IsSound) : s.copy.IsSound :=
  ⟨hs.owns.copy, s.load_copy ▸ hs.valid⟩

variable [Add α] [Sub α] [Mul α] {b : Backend α}

/-- A sound state is advanced like the simulation that is read from it. -/
theorem IsSound.follows [Machine] (hs : s.IsSound) (hb : b.IsGenuine) (count : Number α) :
    Outcome.Follows s (s.advance b count) (b.advance count s.load) := by
  obtain ⟨m, hm⟩ := Tensor.exists_eq_ofMat3 hs.valid.matrix_shape
  exact hs.owns.follows hb hm count

/-- Whatever comes of an advance, it leaves a sound state sound. -/
theorem IsSound.advance [Machine] (hs : s.IsSound) (hb : b.IsGenuine) (count : Number α) :
    (s.advance b count).state.IsSound where
  owns := hs.owns.of_kept (hs.follows hb count).kept
  valid := by
    rw [(hs.follows hb count).load]
    exact hs.valid.of_moved (hb.moved_advance hs.valid.matrix_shape count)

end State

/-- What is done with one of the states that are kept side by side. -/
inductive Action (α : Type) where
  /-- It is advanced by a backend. -/
  | advance (slot : Nat) (backend : Backend α) (count : Number α)
  /-- A copy of it is kept after all others. -/
  | copy (slot : Nat)

namespace Action

variable {α : Type} [Add α] [Mul α] [Scalar α]

/-- The states that an action leaves behind. An advance that stops with a fault leaves behind what it
has got to, and in a slot without a state nothing is done. -/
def perform (slots : List (State α)) : Action α → List (State α)
  | advance slot backend count => slots.modify slot fun s => (s.advance backend count).state
  | copy slot => slots ++ (slots[slot]?.map State.copy).toList

/-- The states that actions leave behind, one action after the other. -/
def performAll (actions : List (Action α)) (slots : List (State α)) : List (State α) :=
  actions.foldl perform slots

/-- The backend of an action, if it has one, is a genuine one. -/
def IsGenuine [Machine] [Sub α] : Action α → Prop
  | advance _ backend _ => backend.IsGenuine
  | copy _ => True

variable [Sub α] {slots : List (State α)}

end Action

section

open Workstation

end

/-- One atom at rest in the one group that there is, which is given as a number and not as a row. -/
def Arrays.resting : Arrays Float :=
  { (Synthetic.simulation 1 0.5 (.replicate 0) (.replicate 0)).arrays with
    groups? := some (.single (.whole 0)) }

end Leapfrog
