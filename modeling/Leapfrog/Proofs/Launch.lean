import Leapfrog.Proofs.StepLoop

/-!
# Launches of the kernel

The buffers of a device hold the columns of the atoms. A thread that reads and writes the entries of
its atom steps that atom, so a launch whose threads run in any order is one step of all atoms, and
what is copied back after any number of launches is what the loop computes in place.
-/

namespace Leapfrog.Device

variable {α : Type} [Add α] [Sub α] [Mul α]

/-- What the loop would be driven by. -/
def driveOf (s : Simulation α) (matrix? : Option (Mat3 α)) : Host.Drive α := ⟨s.timestep, matrix?⟩

/-- One thread steps its own atom. -/
theorem kernel_upload (s : Simulation α) (scaling : Array α) (matrix? : Option (Mat3 α))
    (thread : Nat) :
    kernel (upload s scaling matrix?) thread =
      upload { s with
        atoms := s.atoms.modify thread (stepAt (driveOf s matrix?) scaling thread) }
        scaling matrix? := by
  cases hatom : s.atoms[thread]? with
  | none =>
    have hkeep : s.atoms.modify thread (stepAt (driveOf s matrix?) scaling thread) = s.atoms := by
      apply Array.ext_getElem?
      intro k
      rw [Array.getElem?_modify]
      split
      · next hk => rw [← hk, hatom, Option.map_none]
      · rfl
    rw [hkeep]
    simp [kernel, upload, hatom]
  | some a =>
    cases hfactor : scaling[thread]? with
    | none =>
      rw [stepAt_of_none hfactor, modify_id]
      simp [kernel, upload, hatom, hfactor]
    | some factor =>
      rw [stepAt_of_some hfactor]
      have hview {β : Type} (view : Atom α → β) (seen : β → β)
          (h : view (a.next (driveOf s matrix?) factor) = seen (view a)) :
          (s.atoms.modify thread (Atom.next (driveOf s matrix?) factor)).map view =
            (s.atoms.map view).modify thread seen :=
        map_modify_of_eq fun b hb => by
          rw [hatom] at hb
          rw [← Option.some.inj hb]
          exact h
      have hvelocity := hview Atom.velocity
        (fun _ => a.nextVelocity (driveOf s matrix?) factor) rfl
      have hposition := hview Atom.position
        (fun x => x + (a.nextVelocity (driveOf s matrix?) factor).times s.timestep) rfl
      have hforce := hview Atom.force id rfl
      have hmass := hview Atom.inverseMassPerAxis id rfl
      rw [modify_id] at hforce hmass
      simp only [kernel, upload, Array.getElem?_map, hatom, hfactor, Option.map_some, hvelocity,
        hposition, hforce, hmass]
      rfl

/-- One launch steps all atoms, in whatever order its threads run. -/
theorem launch_upload (s : Simulation α) (scaling : Array α) (matrix? : Option (Mat3 α))
    (order : List Nat) (hperm : order.Perm (List.range s.atoms.size)) :
    launch order (upload s scaling matrix?) =
      upload { s with atoms := stepAll (driveOf s matrix?) scaling s.atoms } scaling matrix? := by
  have hfold (order : List Nat) (atoms : Array (Atom α)) :
      launch order (upload { s with atoms := atoms } scaling matrix?) =
        upload { s with
          atoms := order.foldl
            (fun atoms i => atoms.modify i (stepAt (driveOf s matrix?) scaling i)) atoms }
          scaling matrix? := by
    induction order generalizing atoms with
    | nil => rfl
    | cons thread rest ih =>
      have hthread := kernel_upload { s with atoms := atoms } scaling matrix? thread
      rw [launch, List.foldl_cons, hthread]
      exact ih _
  rw [stepAll, ← foldl_modify_of_perm _ s.atoms order hperm]
  exact hfold order s.atoms

/-- Launches iterate the step, each with an order of its own. -/
theorem launches_upload (s : Simulation α) (scaling : Array α) (matrix? : Option (Mat3 α))
    (orders : List (List Nat)) (hperm : ∀ order ∈ orders, order.Perm (List.range s.atoms.size)) :
    launches orders (upload s scaling matrix?) =
      upload { s with
        atoms := (stepAll (driveOf s matrix?) scaling)^[orders.length] s.atoms }
        scaling matrix? := by
  induction orders generalizing s with
  | nil => rfl
  | cons order rest ih =>
    have hrest : ∀ order ∈ rest, order.Perm
        (List.range (stepAll (driveOf s matrix?) scaling s.atoms).size) := by
      intro order horder
      rw [stepAll, Array.size_mapIdx]
      exact hperm order (List.mem_cons_of_mem _ horder)
    rw [launches, List.foldl_cons, launch_upload s scaling matrix? order (hperm order List.mem_cons_self)]
    exact ih { s with atoms := stepAll (driveOf s matrix?) scaling s.atoms } hrest

/-- Launches in the order of the atoms are launches. -/
theorem launchTimes_eq_launches (threads n : Nat) (b : Buffers α) :
    launchTimes threads n b = launches (List.replicate n (List.range threads)) b := by
  induction n generalizing b with
  | zero => rfl
  | succ n ih => rw [launchTimes, ih, List.replicate_succ, launches, launches, List.foldl_cons]

/-- Copying back what was copied to the device and stepped there. -/
theorem download_upload_iterate (s : Simulation α) (scaling : Array α)
    (matrix? : Option (Mat3 α)) (n : Nat) :
    download (upload { s with atoms := (stepAll (driveOf s matrix?) scaling)^[n] s.atoms }
      scaling matrix?) s.atoms = (stepAll (driveOf s matrix?) scaling)^[n] s.atoms := by
  apply Array.ext_getElem?
  intro i
  simp only [download, upload, Array.getElem?_mapIdx, Array.getElem?_map, getElem?_iterate_stepAll]
  cases s.atoms[i]? with
  | none => rfl
  | some a =>
    have hmoved := moved_iterate_stepAt (driveOf s matrix?) scaling i n a
    simp only [Option.map_some, Option.getD_some]
    exact congrArg some hmoved.symm

end Leapfrog.Device
