import Leapfrog.Proofs.Launch
import Leapfrog.Simulation.Synthetic

/-!
# Advancing a simulation

What a step has to look up is looked up before the first step: the factors of all groups and the
matrix. Where both are found and there is a group for every atom, the loop on the host and the kernel
on the processor leave the same simulation behind, and `Backend.advance` adds nothing but the clock.
Otherwise nothing is left behind but a fault.
-/

namespace Leapfrog

section

variable {α : Type}

/-- A simulation with its clock set to some step and some time. -/
def Simulation.withClock (s : Simulation α) (step : Nat) (time : α) : Simulation α :=
  { s with step := step, time := time }

/-- The factors of all groups are found exactly if the factor of every single one is. -/
theorem Simulation.groupScaling_eq_ok_iff {s : Simulation α} {scaling : Array α} :
    s.groupScaling = .ok scaling ↔
      List.Forall₂ (fun group factor => s.scalingOf group = .ok factor)
        s.groups.toList scaling.toList := by
  unfold Simulation.groupScaling
  rw [Array.mapM_eq_mapM_toList, map_eq_pure_bind, bind_eq_ok_iff, ← mapM_eq_ok_iff]
  constructor
  · intro h
    obtain ⟨factors, hfactors, h⟩ := h
    rw [← Except.ok.inj h]
    exact hfactors
  · intro h
    exact ⟨scaling.toList, h, by simp [pure, Except.pure]⟩

/-- The factor of a group is the entry of the table at its index, counted from the front or from the
end. -/
theorem Simulation.exists_entry_of_scalingOf {s : Simulation α} {group : Int} {factor : α}
    (h : s.scalingOf group = .ok factor) :
    ∃ k : Nat, s.couplings[k]? = some factor ∧ (group = k ∨ group + s.couplings.length = k) := by
  unfold scalingOf at h
  obtain ⟨k, hk, h⟩ := bind_eq_ok_iff.mp h
  have hentry : s.couplings[k]? = some factor := by
    cases hentry : s.couplings[k]? with
    | none =>
      rw [hentry] at h
      cases h
    | some entry =>
      rw [hentry] at h
      exact congrArg some (Except.ok.inj h)
  refine ⟨k, hentry, ?_⟩
  unfold wrapIndex at hk
  split at hk
  · next i hi =>
    obtain rfl := Except.ok.inj hk
    unfold wrapIndex? at hi
    split at hi
    · have := Option.some.inj hi
      omega
    · split at hi
      · have := Option.some.inj hi
        omega
      · cases hi
  · cases hk

/-- There is a factor for each group. -/
theorem Simulation.size_of_groupScaling {s : Simulation α} {scaling : Array α}
    (hlookup : s.groupScaling = .ok scaling) : scaling.size = s.groups.size := by
  have hlength := (groupScaling_eq_ok_iff.mp hlookup).length_eq
  rw [Array.length_toList, Array.length_toList] at hlength
  exact hlength.symm

/-- The factors of all groups have been found, and there is a group for every atom. -/
structure Simulation.HasScaling (s : Simulation α) (scaling : Array α) : Prop where
  lookup : s.groupScaling = .ok scaling
  covers : s.atoms.size ≤ s.groups.size

/-- There is a factor for every atom. -/
theorem Simulation.HasScaling.size_le {s : Simulation α} {scaling : Array α}
    (h : s.HasScaling scaling) : s.atoms.size ≤ scaling.size := by
  rw [size_of_groupScaling h.lookup]
  exact h.covers

/-- The factor at a position: that of the group at the position. -/
def Simulation.factorAt (s : Simulation α) (i : Nat) : Except (Fault α) α :=
  match s.groups[i]? with
  | some group => s.scalingOf group
  | none => .error .unknownSlot

/-- Each atom has its factor at its own position. -/
theorem Simulation.HasScaling.exists_factor {s : Simulation α} {scaling : Array α}
    (h : s.HasScaling scaling) {i : Nat} {a : Atom α} (ha : s.atoms[i]? = some a) :
    ∃ group factor, s.groups[i]? = some group ∧ scaling[i]? = some factor ∧
      s.scalingOf group = .ok factor := by
  have hi : i < s.groups.size := Nat.lt_of_lt_of_le (Array.getElem?_eq_some_iff.mp ha).1 h.covers
  have hgroup : s.groups.toList[i]? = some s.groups[i] := by
    rw [Array.getElem?_toList, Array.getElem?_eq_getElem hi]
  obtain ⟨factor, hfactor, hfound⟩ := exists_answer (groupScaling_eq_ok_iff.mp h.lookup) hgroup
  rw [Array.getElem?_toList] at hfactor
  exact ⟨_, factor, Array.getElem?_eq_getElem hi, hfactor, hfound⟩

/-- The factor of an atom is the one at its position. -/
theorem Simulation.HasScaling.exists_factorAt {s : Simulation α} {scaling : Array α}
    (h : s.HasScaling scaling) {i : Nat} {a : Atom α} (ha : s.atoms[i]? = some a) :
    ∃ factor, scaling[i]? = some factor ∧ s.factorAt i = .ok factor := by
  obtain ⟨group, factor, hgroup, hfactor, hfound⟩ := h.exists_factor ha
  refine ⟨factor, hfactor, ?_⟩
  rw [factorAt, hgroup]
  exact hfound

/-- An array of three by three entries holds a matrix. -/
theorem Tensor.exists_eq_ofMat3 {t : Tensor α} (h : t.shape = [3, 3]) : ∃ m, t = .ofMat3 m := by
  obtain ⟨shape, entries, hlength⟩ := t
  subst h
  match entries, hlength with
  | [xx, xy, xz, yx, yy, yz, zx, zy, zz], _ =>
    exact ⟨⟨⟨xx, xy, xz⟩, ⟨yx, yy, yz⟩, ⟨zx, zy, zz⟩⟩, rfl⟩

/-- The matrix that a step applies is the one that a device applies. -/
theorem Simulation.activeScaling?_of_matrix {s : Simulation α} {m : Mat3 α}
    (hmatrix : s.velocityScaling = .ofMat3 m) :
    s.activeScaling? = .ok (Device.activeMatrix? s.barostat m) := by
  unfold Simulation.activeScaling?
  rw [hmatrix, Simulation.leadingMatrix_ofMat3]
  cases s.barostat <;> rfl

end

/-- A count that is converted to a scalar multiplies it. -/
theorem Number.times_whole {α : Type} [Mul α] [Scalar α] {n : Nat}
    (hn : Scalar.isFinite (Scalar.ofInt n : α) = true) (a : α) :
    (Number.whole n).times a = .ok (Scalar.ofInt n * a) := by
  simp [times, toScalar, hn, bind, Except.bind, pure, Except.pure]

/-- A natural number is not negative. -/
theorem Number.isNegative_whole {α : Type} [Scalar α] (n : Nat) :
    (Number.whole (α := α) n).isNegative = false := by
  simp [isNegative]

namespace Backend

variable {α : Type} [Add α] [Mul α] [Scalar α]

/-- What a backend does to a simulation depends on its steps only. -/
theorem advance_congr {b b' : Backend α} {s : Simulation α}
    (h : ∀ n, b.integrate s n = b'.integrate s n) (count : Number α) :
    b.advance count s = b'.advance count s := by
  unfold advance
  simp only [h]

/-- A count that is given as a natural number is taken as it is. -/
theorem advance_whole (b : Backend α) (n : Nat) (s : Simulation α) :
    b.advance (.whole n) s = if n = 0 then ⟨s, none⟩ else (b.integrate s n).andThen (clock n) := by
  have hsteps : (Number.whole (α := α) n).steps = .ok n := by
    simp [Number.steps, Number.toInt?, bind, Except.bind, pure, Except.pure]
  unfold advance
  rw [hsteps]
  cases n <;> rfl

/-- The clock leaves the atoms alone. -/
theorem atoms_clock (n : Nat) (s : Simulation α) : (clock n s).simulation.atoms = s.atoms := by
  unfold clock
  dsimp only
  cases (Number.whole (n : Int)).times s.timestep <;> rfl

/-- The clock runs as long as the count is a scalar. -/
theorem clock_of_finite {n : Nat} (hn : Scalar.isFinite (Scalar.ofInt n : α) = true)
    (s : Simulation α) :
    clock n s = ⟨{ s with
      step := s.step + n
      time := s.time + Scalar.ofInt n * s.timestep }, none⟩ := by
  rw [clock, Number.times_whole hn]
  rfl

end Backend

variable {α : Type} [Add α] [Sub α] [Mul α]

/-- The atoms of a simulation after a number of steps with everything looked up. -/
def Simulation.stepped (s : Simulation α) (scaling : Array α) (matrix? : Option (Mat3 α)) (n : Nat) :
    Simulation α :=
  { s with atoms := (stepAll ⟨s.timestep, matrix?⟩ scaling)^[n] s.atoms }

/-- A simulation that has taken `n` steps, and what time it is then. -/
def Simulation.steppedTo (s : Simulation α) (scaling : Array α) (matrix? : Option (Mat3 α)) (n : Nat)
    (time : α) : Simulation α :=
  (s.stepped scaling matrix? n).withClock (s.step + n) time

/-- The loop on the host, once everything has been looked up. -/
theorem Host.integrate_eq_stepped {s : Simulation α} {scaling : Array α} {matrix? : Option (Mat3 α)}
    (hscaling : s.HasScaling scaling) (hmatrix : s.activeScaling? = .ok matrix?) (n : Nat) :
    Host.integrate s n = ⟨s.stepped scaling matrix? n, none⟩ := by
  unfold Host.integrate
  rw [hscaling.lookup, hmatrix]
  change Outcome.ofExcept s (Host.sweeps ⟨s.timestep, matrix?⟩ scaling n s.atoms >>= fun atoms =>
    .ok { s with atoms }) = _
  rw [Host.sweeps_eq_iterate n hscaling.size_le]
  rfl

/-- The kernel on the processor, once everything has been looked up. -/
theorem Device.integrate_eq_stepped [Machine] [Scalar α] {s : Simulation α} {scaling : Array α}
    {m : Mat3 α} (hscaling : s.HasScaling scaling) (hmatrix : matrixOf s.velocityScaling = .ok m)
    (n : Nat) :
    Device.integrate Device.processor s n =
      ⟨s.stepped scaling (activeMatrix? s.barostat m) n, none⟩ := by
  unfold Device.integrate
  rw [Device.find_processor, hscaling.lookup, hmatrix]
  change Outcome.ofExcept s (if scaling.size < s.atoms.size then .error .strayRead else .ok { s with
    atoms := Device.download (Device.launchTimes s.atoms.size n
      (Device.upload s scaling (Device.activeMatrix? s.barostat m))) s.atoms }) = _
  rw [if_neg (Nat.not_lt.mpr hscaling.size_le)]
  have horders : ∀ order ∈ List.replicate n (List.range s.atoms.size),
      order.Perm (List.range s.atoms.size) := by
    intro order horder
    rw [List.eq_of_mem_replicate horder]
  rw [Device.launchTimes_eq_launches, Device.launches_upload _ _ _ _ horders,
    List.length_replicate, Device.download_upload_iterate]
  rfl

/-- Where there is a group for every atom, the kernel on the processor and the loop on the host end in
the same way, with the same simulation. -/
theorem Device.integrate_processor_eq_host [Machine] [Scalar α] {s : Simulation α} {m : Mat3 α}
    (hmatrix : s.velocityScaling = .ofMat3 m) (hcovers : s.atoms.size ≤ s.groups.size) (n : Nat) :
    Device.integrate Device.processor s n = Host.integrate s n := by
  cases hlookup : s.groupScaling with
  | error fault =>
    unfold Device.integrate Host.integrate
    rw [Device.find_processor, hlookup]
    rfl
  | ok scaling =>
    have hmatrixOf : Device.matrixOf s.velocityScaling = .ok m := by
      rw [hmatrix, Device.matrixOf_ofMat3]
    rw [Host.integrate_eq_stepped ⟨hlookup, hcovers⟩ (Simulation.activeScaling?_of_matrix hmatrix),
      Device.integrate_eq_stepped ⟨hlookup, hcovers⟩ hmatrixOf]

/-- Where an atom is without a group, the loop stops. -/
theorem Host.integrate_of_lt {s : Simulation α} {scaling : Array α} {matrix? : Option (Mat3 α)}
    (hlookup : s.groupScaling = .ok scaling) (hmatrix : s.activeScaling? = .ok matrix?)
    (hmisses : s.groups.size < s.atoms.size) {n : Nat} (hn : 0 < n) :
    Host.integrate s n = ⟨s, some .unknownSlot⟩ := by
  have hsize : scaling.size < s.atoms.size := by
    rwa [Simulation.size_of_groupScaling hlookup]
  unfold Host.integrate
  rw [hlookup, hmatrix]
  change Outcome.ofExcept s (Host.sweeps ⟨s.timestep, matrix?⟩ scaling n s.atoms >>= fun atoms =>
    .ok { s with atoms }) = _
  rw [Host.sweeps_of_lt hn hsize]
  rfl

/-- Where an atom is without a group, the kernel is not described. -/
theorem Device.integrate_of_lt [Machine] [Scalar α] {s : Simulation α} {scaling : Array α}
    {m : Mat3 α} (hlookup : s.groupScaling = .ok scaling)
    (hmatrix : matrixOf s.velocityScaling = .ok m) (hmisses : s.groups.size < s.atoms.size)
    (n : Nat) :
    Device.integrate Device.processor s n = ⟨s, some .strayRead⟩ := by
  have hsize : scaling.size < s.atoms.size := by
    rwa [Simulation.size_of_groupScaling hlookup]
  unfold Device.integrate
  rw [Device.find_processor, hlookup, hmatrix]
  change Outcome.ofExcept s (if scaling.size < s.atoms.size then .error .strayRead else .ok { s with
    atoms := Device.download (Device.launchTimes s.atoms.size n
      (Device.upload s scaling (Device.activeMatrix? s.barostat m))) s.atoms }) = _
  rw [if_pos hsize]
  rfl

namespace Backend

variable [Machine] [Scalar α]

/-- The backends that take the steps: the loop, and the kernel on the processor. -/
def IsGenuine (b : Backend α) : Prop := b = .host ∨ b = .device Device.processor

/-- Genuine backends differ in name only, where there is a group for every atom. -/
theorem IsGenuine.integrate_eq {b : Backend α} (hb : b.IsGenuine) {s : Simulation α} {m : Mat3 α}
    (hmatrix : s.velocityScaling = .ofMat3 m) (hcovers : s.atoms.size ≤ s.groups.size) (n : Nat) :
    b.integrate s n = Host.integrate s n := by
  rcases hb with rfl | rfl
  · rfl
  · exact Device.integrate_processor_eq_host hmatrix hcovers n

/-- Where a group is missing, a genuine backend takes no step. -/
theorem IsGenuine.advance_of_missing {b : Backend α} (hb : b.IsGenuine) {s : Simulation α}
    {m : Mat3 α} (hmatrix : s.velocityScaling = .ofMat3 m)
    (hcovers : s.atoms.size ≤ s.groups.size) {fault : Fault α}
    (hlookup : s.groupScaling = .error fault) (n : Nat) :
    b.advance (.whole n) s = ⟨s, if n = 0 then none else some fault⟩ := by
  rw [advance_whole, hb.integrate_eq hmatrix hcovers, Host.integrate, hlookup]
  split <;> rfl

/-- A genuine backend that does not find a factor for every atom takes no step. -/
theorem IsGenuine.exists_integrate_eq {b : Backend α} (hb : b.IsGenuine) {s : Simulation α}
    {m : Mat3 α} (hmatrix : s.velocityScaling = .ofMat3 m)
    (hnone : ∀ scaling, ¬ s.HasScaling scaling) {n : Nat} (hn : 0 < n) :
    ∃ fault, b.integrate s n = ⟨s, some fault⟩ := by
  have hactive := Simulation.activeScaling?_of_matrix hmatrix
  have hmatrixOf : Device.matrixOf s.velocityScaling = .ok m := by
    rw [hmatrix, Device.matrixOf_ofMat3]
  cases hlookup : s.groupScaling with
  | error fault =>
    have hhost : Host.integrate s n = ⟨s, some fault⟩ := by
      rw [Host.integrate, hlookup]
      rfl
    have hdevice : Device.integrate Device.processor s n = ⟨s, some fault⟩ := by
      rw [Device.integrate, Device.find_processor, hlookup]
      rfl
    rcases hb with rfl | rfl
    · exact ⟨fault, hhost⟩
    · exact ⟨fault, hdevice⟩
  | ok scaling =>
    have hmisses : s.groups.size < s.atoms.size :=
      Nat.lt_of_not_le fun hcovers => hnone scaling ⟨hlookup, hcovers⟩
    rcases hb with rfl | rfl
    · exact ⟨_, Host.integrate_of_lt hlookup hactive hmisses hn⟩
    · exact ⟨_, Device.integrate_of_lt hlookup hmatrixOf hmisses n⟩

/-- A genuine backend takes all atoms through all steps. -/
theorem IsGenuine.advance_eq {b : Backend α} (hb : b.IsGenuine) {s : Simulation α} {m : Mat3 α}
    {scaling : Array α} (hmatrix : s.velocityScaling = .ofMat3 m)
    (hscaling : s.HasScaling scaling) (n : Nat) :
    b.advance (.whole n) s =
      if n = 0 then ⟨s, none⟩
      else clock n (s.stepped scaling (Device.activeMatrix? s.barostat m) n) := by
  rw [advance_whole, hb.integrate_eq hmatrix hscaling.covers,
    Host.integrate_eq_stepped hscaling (Simulation.activeScaling?_of_matrix hmatrix)]
  rfl

/-- A genuine backend that does not find a factor for every atom leaves the simulation as it is. -/
theorem IsGenuine.exists_advance_eq {b : Backend α} (hb : b.IsGenuine) {s : Simulation α} {m : Mat3 α}
    (hmatrix : s.velocityScaling = .ofMat3 m) (hnone : ∀ scaling, ¬ s.HasScaling scaling) (n : Nat) :
    ∃ fault, b.advance (.whole n) s = ⟨s, if n = 0 then none else some fault⟩ := by
  rcases Nat.eq_zero_or_pos n with rfl | hn
  · exact ⟨.unknownSlot, advance_whole b 0 s⟩
  · obtain ⟨fault, hfault⟩ := hb.exists_integrate_eq hmatrix hnone hn
    refine ⟨fault, ?_⟩
    rw [advance_whole, if_neg (Nat.ne_of_gt hn), if_neg (Nat.ne_of_gt hn), hfault]
    rfl

/-- As long as the count is a scalar, a genuine backend takes all steps and puts the clock on. -/
theorem IsGenuine.advance_of_finite {b : Backend α} (hb : b.IsGenuine) {s : Simulation α} {m : Mat3 α}
    {scaling : Array α} (hmatrix : s.velocityScaling = .ofMat3 m)
    (hscaling : s.HasScaling scaling) {n : Nat}
    (hn : Scalar.isFinite (Scalar.ofInt n : α) = true) :
    b.advance (.whole n) s =
      ⟨s.steppedTo scaling (Device.activeMatrix? s.barostat m) n
        (if n = 0 then s.time else s.time + Scalar.ofInt n * s.timestep), none⟩ := by
  rw [hb.advance_eq hmatrix hscaling, clock_of_finite hn]
  split
  · next hzero =>
    rw [hzero]
    rfl
  · rfl

/-- As long as the count is a scalar, a genuine backend changes the atoms and the clock only. -/
theorem IsGenuine.exists_advance {b : Backend α} (hb : b.IsGenuine) {s : Simulation α} {m : Mat3 α}
    {scaling : Array α} (hmatrix : s.velocityScaling = .ofMat3 m)
    (hscaling : s.HasScaling scaling) {n : Nat}
    (hn : Scalar.isFinite (Scalar.ofInt n : α) = true) :
    ∃ step time, b.advance (.whole n) s = ⟨{ s with
      atoms := (stepAll ⟨s.timestep, Device.activeMatrix? s.barostat m⟩ scaling)^[n] s.atoms
      step := step
      time := time }, none⟩ :=
  ⟨_, _, hb.advance_of_finite hmatrix hscaling hn⟩

/-- The atoms that a genuine backend leaves behind. -/
theorem IsGenuine.atoms_advance {b : Backend α} (hb : b.IsGenuine) {s : Simulation α} {m : Mat3 α}
    {scaling : Array α} (hmatrix : s.velocityScaling = .ofMat3 m)
    (hscaling : s.HasScaling scaling) (n : Nat) :
    (b.advance (.whole n) s).simulation.atoms =
      (stepAll ⟨s.timestep, Device.activeMatrix? s.barostat m⟩ scaling)^[n] s.atoms := by
  rw [hb.advance_eq hmatrix hscaling]
  split
  · next hn => rw [hn]; rfl
  · exact atoms_clock n _

end Backend

/-- A matrix that is neither diagonal nor symmetric. -/
def Mat3.shear : Mat3 Rat := ⟨⟨0, 1, 0⟩, ⟨0, 0, 1⟩, ⟨0, 0, 0⟩⟩

/-- Two atoms that a Parrinello-Rahman barostat shears and a thermostat slows down. -/
def Simulation.sheared : Simulation Rat :=
  { Synthetic.simulation 2 (1 / 2) ⟨4, 2, 0⟩ ⟨0, 0, 6⟩ with
    velocityScaling := .ofMat3 .shear
    barostat := .parrinelloRahman
    couplings := [1 / 2] }

/-- Both atoms are slowed down by one half. -/
theorem Simulation.hasScaling_sheared : sheared.HasScaling #[1 / 2, 1 / 2] :=
  ⟨groupScaling_eq_ok_iff.mpr (.cons rfl (.cons rfl .nil)), Nat.le_refl 2⟩

end Leapfrog
