import Leapfrog.Proofs.AtomStep
import Leapfrog.Proofs.Traversal
import Mathlib.Logic.Function.Iterate

/-!
# Steps of all atoms

One step of a simulation is one simultaneous step of all atoms, `stepAll`. The loop reaches it in
the order of the atoms, and a launch in whatever order its threads have: each thread reads and
writes its own atom only. Repeated steps iterate it, so an atom is taken through a number of steps
without regard to the others.
-/

namespace Leapfrog

open Host (Drive)

variable {α : Type} [Add α] [Sub α] [Mul α]

/-- One step of the atom at a position, by the factor that belongs to the position. -/
def stepAt (d : Drive α) (scaling : Array α) (i : Nat) (a : Atom α) : Atom α :=
  match scaling[i]? with
  | some factor => a.next d factor
  | none => a

theorem stepAt_of_some {d : Drive α} {scaling : Array α} {i : Nat} {factor : α}
    (h : scaling[i]? = some factor) : stepAt d scaling i = Atom.next d factor := by
  funext a
  simp only [stepAt, h]

theorem stepAt_of_none {d : Drive α} {scaling : Array α} {i : Nat} (h : scaling[i]? = none) :
    stepAt d scaling i = id := by
  funext a
  simp only [stepAt, h, id_eq]

/-- One step of all atoms at once. -/
def stepAll (d : Drive α) (scaling : Array α) (atoms : Array (Atom α)) : Array (Atom α) :=
  atoms.mapIdx (stepAt d scaling)

theorem moved_stepAt (d : Drive α) (scaling : Array α) (i : Nat) (a : Atom α) :
    a.Moved (stepAt d scaling i a) := by
  unfold stepAt
  split
  · exact a.moved_next d _
  · rfl

/-- Any number of steps moves an atom and changes nothing else about it. -/
theorem moved_iterate_stepAt (d : Drive α) (scaling : Array α) (i n : Nat) (a : Atom α) :
    a.Moved ((stepAt d scaling i)^[n] a) := by
  induction n generalizing a with
  | zero => rfl
  | succ n ih => exact (moved_stepAt d scaling i a).trans (ih _)

/-- Atoms are stepped without regard to each other. -/
theorem getElem?_iterate_stepAll (d : Drive α) (scaling : Array α) (n : Nat)
    (atoms : Array (Atom α)) (i : Nat) :
    ((stepAll d scaling)^[n] atoms)[i]? = atoms[i]?.map (stepAt d scaling i)^[n] := by
  induction n generalizing atoms with
  | zero => simp
  | succ n ih =>
    rw [Function.iterate_succ_apply, ih, stepAll, Array.getElem?_mapIdx, Option.map_map,
      Function.iterate_succ]

@[simp] theorem size_iterate_stepAll (d : Drive α) (scaling : Array α) (n : Nat)
    (atoms : Array (Atom α)) : ((stepAll d scaling)^[n] atoms).size = atoms.size := by
  induction n generalizing atoms with
  | zero => rfl
  | succ n ih => rw [Function.iterate_succ_apply, ih, stepAll, Array.size_mapIdx]

/-- What the steps of every single atom keep is kept by the steps of all atoms. -/
theorem forall₂_iterate_stepAll {R : Atom α → Atom α → Prop} {d : Drive α} {scaling : Array α}
    {n : Nat} {atoms : Array (Atom α)}
    (h : ∀ (i : Nat) (a : Atom α), atoms[i]? = some a → R a ((stepAt d scaling i)^[n] a)) :
    List.Forall₂ R atoms.toList ((stepAll d scaling)^[n] atoms).toList := by
  rw [List.forall₂_iff_get]
  refine ⟨by simp, fun i hi hi' => ?_⟩
  have hget := getElem?_iterate_stepAll d scaling n atoms i
  rw [Array.length_toList] at hi hi'
  rw [Array.getElem?_eq_getElem hi, Array.getElem?_eq_getElem hi', Option.map_some,
    Option.some_inj] at hget
  simp only [List.get_eq_getElem, Array.getElem_toList, hget]
  exact h i _ (Array.getElem?_eq_getElem hi)

namespace Host

variable {d : Drive α} {scaling : Array α}

/-- Positions with a factor are visited as in a simultaneous step. -/
theorem foldlM_visit (positions : List Nat) (hpositions : ∀ i ∈ positions, i < scaling.size)
    (atoms : Array (Atom α)) :
    positions.foldlM (visit d scaling) atoms =
      .ok (positions.foldl (fun atoms i => atoms.modify i (stepAt d scaling i)) atoms) := by
  induction positions generalizing atoms with
  | nil => rfl
  | cons i rest ih =>
    obtain ⟨hi, hrest⟩ := List.forall_mem_cons.mp hpositions
    have hfactor : scaling[i]? = some scaling[i] := Array.getElem?_eq_getElem hi
    have hvisit : visit d scaling atoms i = .ok (atoms.modify i (stepAt d scaling i)) := by
      rw [visit, hfactor, stepAt_of_some hfactor, ← funext (visitAtom_eq_next d scaling[i])]
    rw [List.foldlM_cons, hvisit, List.foldl_cons]
    exact ih hrest _

/-- The loop over the atoms is a simultaneous step, if there is a factor for each of them. -/
theorem sweep_eq_stepAll {atoms : Array (Atom α)} (h : atoms.size ≤ scaling.size) :
    sweep d scaling atoms = .ok (stepAll d scaling atoms) := by
  have hpositions : ∀ i ∈ List.range atoms.size, i < scaling.size := fun i hi =>
    Nat.lt_of_lt_of_le (List.mem_range.mp hi) h
  rw [sweep, foldlM_visit _ hpositions]
  exact congrArg Except.ok (foldl_modify_of_perm (stepAt d scaling) atoms _ (List.Perm.refl _))

/-- Sweeps iterate the simultaneous step. -/
theorem sweeps_eq_iterate (n : Nat) {atoms : Array (Atom α)} (h : atoms.size ≤ scaling.size) :
    sweeps d scaling n atoms = .ok ((stepAll d scaling)^[n] atoms) := by
  induction n generalizing atoms with
  | zero => rfl
  | succ n ih =>
    have hsize : (stepAll d scaling atoms).size ≤ scaling.size := by
      rwa [stepAll, Array.size_mapIdx]
    rw [sweeps, sweep_eq_stepAll h, Function.iterate_succ_apply]
    exact ih hsize

/-- The loop stops at the first atom without a factor. -/
theorem sweep_of_lt {atoms : Array (Atom α)} (h : scaling.size < atoms.size) :
    sweep d scaling atoms = .error .unknownSlot := by
  obtain ⟨others, hothers⟩ := Nat.exists_eq_add_of_lt h
  have hrange : List.range atoms.size = List.range scaling.size ++ scaling.size ::
      (List.range others).map (scaling.size + 1 + ·) := by
    rw [hothers, Nat.add_right_comm, List.range_add, List.range_succ, List.append_assoc]
    rfl
  have hbefore : ∀ i ∈ List.range scaling.size, i < scaling.size := fun i hi => List.mem_range.mp hi
  have hnone : scaling[scaling.size]? = none := Array.getElem?_eq_none (Nat.le_refl _)
  have hvisit (atoms : Array (Atom α)) :
      visit d scaling atoms scaling.size = .error .unknownSlot := by
    rw [visit, hnone]
  rw [sweep, hrange, List.foldlM_append, foldlM_visit _ hbefore]
  refine bind_eq_error_iff.mpr (.inr ⟨_, rfl, ?_⟩)
  rw [List.foldlM_cons, hvisit]
  rfl

/-- Where an atom is without a factor, no number of sweeps is completed. -/
theorem sweeps_of_lt {n : Nat} (hn : 0 < n) {atoms : Array (Atom α)} (h : scaling.size < atoms.size) :
    sweeps d scaling n atoms = .error .unknownSlot := by
  cases n with
  | zero => exact absurd hn (Nat.lt_irrefl 0)
  | succ n =>
    rw [sweeps, sweep_of_lt h]
    rfl

/-- Sweeps that are completed keep the number of atoms. -/
theorem size_of_sweeps {n : Nat} {atoms last : Array (Atom α)}
    (h : sweeps d scaling n atoms = .ok last) : last.size = atoms.size := by
  rcases Nat.lt_or_ge scaling.size atoms.size with hmisses | hcovers
  · cases n with
    | zero =>
      obtain rfl := Except.ok.inj h
      rfl
    | succ n =>
      rw [sweeps_of_lt n.succ_pos hmisses] at h
      cases h
  · rw [sweeps_eq_iterate n hcovers] at h
    obtain rfl := Except.ok.inj h
    exact size_iterate_stepAll d scaling n atoms

end Host

end Leapfrog
