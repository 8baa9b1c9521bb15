import Leapfrog.Proofs.SharedMemory
import Leapfrog.Simulation.Synthetic

/-!
# Advancing in memory

A state that owns its motion is advanced like the simulation that is read from it, and nothing else in
memory is written. A state that is made from numbers, one that is a simulation in memory of its own,
and the copies of all of these own their motion.

An advance is therefore all or nothing. It is not for a state that shares its positions or velocities
with anything else or must not write them: another array changes with them, or the positions have
already been written when the velocities cannot be.
-/

namespace Leapfrog

namespace State

section

variable {α : Type} {s : State α}

/-- What is read from a copy is what is read from the original. -/
theorem load_copy (s : State α) : s.copy.load = s.load := by
  have hentry (slot : Slot) (k : Nat) : s.copy.entry slot k = s.entry slot k := by
    simp [entry, copy, Memory.entry, Memory.copy, Memory.place]
  have hatom (i : Nat) : s.copy.atom i = s.atom i := by
    simp only [atom, vector, hentry]
  have hscaling : s.copy.scaling = s.scaling := by
    have hentries : s.copy.memory.entries (s.arrays .velocityScaling) (s.length .velocityScaling) =
        s.memory.entries (s.arrays .velocityScaling) (s.length .velocityScaling) :=
      List.map_congr_left fun k _ => hentry .velocityScaling k
    unfold scaling
    congr 1
  unfold load
  rw [hscaling]
  simp only [hatom]
  rfl

/-- A copy of a state that owns its motion does so as well. -/
theorem OwnsMotion.copy (hs : s.OwnsMotion) : s.copy.OwnsMotion := by
  refine ⟨fun _ _ => rfl, fun c hc k hk slot hslot j hj hplace => ?_⟩
  -- In a copy only one and the same array is found at one place.
  obtain ⟨harray, hentry⟩ := Prod.mk.inj hplace
  have harray : s.arrays (.column c) = s.arrays slot := harray
  have hentry : k = j := Nat.add_left_cancel hentry
  refine hs.apart c hc k hk slot hslot j hj ?_
  rw [place, place, harray, hentry]

/-- The simulation that is read where memory holds the numbers of one. -/
theorem load_within {memory : Memory Storage α} {arrays : Slot → Storage} {s : Simulation α}
    (hcolumns : ∀ c k value, (s.columnEntries c)[k]? = some value →
      memory.entry (arrays (.column c)) k = value)
    (hmasses : ∀ i a, s.atoms[i]? = some a → memory.entry (arrays .inverseMasses) i = a.inverseMass)
    (hscaling : ∀ k value, s.velocityScaling.entries[k]? = some value →
      memory.entry (arrays .velocityScaling) k = value) :
    (within memory arrays s).load = s := by
  have hvector {i : Nat} {a : Atom α} (ha : s.atoms[i]? = some a) (c : Arrays.Column) :
      (within memory arrays s).vector c i = a.column c :=
    vector_of_entries (hcolumns c) ha
  have hatoms : (within memory arrays s).load.atoms = s.atoms := by
    refine Array.ext Array.size_ofFn fun i hi hi' => ?_
    have ha : s.atoms[i]? = some s.atoms[i] := Array.getElem?_eq_getElem hi'
    have hmass : (within memory arrays s).entry .inverseMasses i = s.atoms[i].inverseMass :=
      hmasses i _ ha
    calc (within memory arrays s).load.atoms[i] = (within memory arrays s).atom i := by
          simp only [load, Array.getElem_ofFn]
      _ = s.atoms[i] := by
        unfold atom
        simp only [hvector ha, hmass]
        rfl
  have hscaled : (within memory arrays s).scaling = s.velocityScaling := by
    have hlength : (within memory arrays s).length .velocityScaling =
        s.velocityScaling.entries.length := s.velocityScaling.length_entries.symm
    have hentries : memory.entries (arrays .velocityScaling)
        ((within memory arrays s).length .velocityScaling) = s.velocityScaling.entries := by
      rw [hlength]
      refine List.ext_getElem (by simp [Memory.entries]) fun k hk hk' => ?_
      rw [← hscaling k _ (List.getElem?_eq_getElem hk')]
      simp [Memory.entries]
    unfold scaling
    congr 1
  unfold load
  rw [hscaled]
  change ({ s with atoms := (within memory arrays s).load.atoms } : Simulation α) = s
  rw [hatoms]

end

section

variable {α : Type} [Scalar α]

/-- The values of a new array are read from it. -/
theorem entry_extend_own (outside : Memory Nat α) (values : Slot → Array α) {slot : Slot} {k : Nat}
    {value : α} (hk : (values slot)[k]? = some value) :
    (outside.extend values).entry (.own slot) k = value := by
  have hlookup : (Slot.all.map fun slot => (slot, values slot)).lookup slot = some (values slot) := by
    cases slot with
    | column c => cases c <;> rfl
    | _ => rfl
  simp [Memory.entry, Memory.place, Memory.extend, hlookup, hk]

/-- What was there before is still there. -/
theorem entry_extend_outside (outside : Memory Nat α) (values : Slot → Array α) (n k : Nat) :
    (outside.extend values).entry (.outside n) k = outside.entry n k := rfl

/-- The numbers that are given for a slot are read from its array. -/
theorem entry_storage (outside : Memory Nat α) (supplies : Supplies α) {slot : Slot} {k : Nat}
    {value : α} (hk : ((supplies.given slot).read outside).entries[k]? = some value) :
    (outside.extend fun slot => ((supplies.given slot).read outside).entries.toArray).entry
      (supplies.storage slot) k = value := by
  cases hgiven : supplies.given slot with
  | numbers t =>
    rw [Supplies.storage, hgiven]
    exact entry_extend_own _ _ (by rwa [List.getElem?_toArray])
  | array shape n =>
    rw [Supplies.storage, hgiven]
    rw [hgiven] at hk
    have hentry : (outside.entries n (shape.foldr (· * ·) 1))[k]? = some value := hk
    obtain ⟨hlt, hvalue⟩ := List.getElem?_eq_some_iff.mp hentry
    refine (entry_extend_outside _ _ n k).trans ?_
    simpa [Memory.entries] using hvalue

/-- The simulation that is read from a state is the one that was described. -/
theorem load_of_make {outside : Memory Nat α} {supplies : Supplies α} {s : State α}
    (h : make outside supplies = .ok s) :
    Simulation.ofArrays (supplies.read outside) = .ok s.load := by
  obtain ⟨t, ht, hs⟩ := bind_eq_ok_iff.mp h
  obtain rfl := Except.ok.inj hs
  rw [ht]
  obtain ⟨hall, rfl⟩ := (Arrays.hasShortGroups_of_ofArrays ht).ofArrays_eq_ok_iff.mp ht
  have hkept := Arrays.arrays_simulation hall
  have hcolumn (c : Arrays.Column) : (supplies.read outside).simulation.column c =
      (supplies.given (.column c)).read outside := by
    rw [← Simulation.column_arrays, hkept]
    cases c <;> rfl
  have hmasses : (supplies.read outside).simulation.atoms.toList.map Atom.inverseMass =
      ((supplies.given .inverseMasses).read outside).entries :=
    (congrArg (fun a => a.inverseMasses.entries) hkept).trans (Arrays.entries_withAxis _)
  refine congrArg Except.ok (load_within (fun c k value hk => ?_) (fun i a ha => ?_)
    (fun k value hk => ?_)).symm
  · refine entry_storage outside supplies ?_
    rw [← hcolumn c]
    have hlist : ((supplies.read outside).simulation.columnEntries c).toList[k]? = some value := by
      rwa [Array.getElem?_toList]
    exact hlist
  · refine entry_storage outside supplies ?_
    rw [← hmasses, List.getElem?_map, Array.getElem?_toList, ha, Option.map_some]
  · exact entry_storage outside supplies hk

/-- What describes a simulation is made into a state. -/
theorem exists_make_iff {outside : Memory Nat α} {supplies : Supplies α} :
    (∃ s, make outside supplies = .ok s) ↔
      ∃ s, Simulation.ofArrays (supplies.read outside) = .ok s := by
  constructor
  · intro h
    obtain ⟨s, hs⟩ := h
    exact ⟨_, load_of_make hs⟩
  · intro h
    obtain ⟨s, hs⟩ := h
    exact ⟨_, bind_eq_ok_iff.mpr ⟨s, hs, rfl⟩⟩

/-- What describes no simulation is refused for the same reason. -/
theorem make_eq_error_iff {outside : Memory Nat α} {supplies : Supplies α} {fault : Fault α} :
    make outside supplies = .error fault ↔
      Simulation.ofArrays (supplies.read outside) = .error fault := by
  unfold make
  rw [bind_eq_error_iff]
  simp [pure, Except.pure]

/-- A simulation in memory of its own is read from it. -/
@[simp] theorem load_own (s : Simulation α) : (own s).load = s := by
  refine load_within (fun c k value hk => ?_) (fun i a ha => ?_) (fun k value hk => ?_)
  · exact entry_extend_own _ _ hk
  · exact entry_extend_own _ _ (by simp [ha])
  · exact entry_extend_own _ _ (by simpa using hk)

/-- A simulation in memory of its own owns its motion. -/
theorem ownsMotion_own (s : Simulation α) : (own s).OwnsMotion :=
  ⟨fun _ _ => rfl, fun _ _ _ _ _ hslot _ _ hplace =>
    hslot (Storage.own.inj (congrArg Prod.fst hplace)).symm⟩

end

section

variable {α : Type}

/-- What an advance leaves of a state is what it leaves of the simulation that is read from it. Where
that is as it was, so is the state. -/
structure Outcome.Follows (s : State α) (o : Outcome α) (o' : Leapfrog.Outcome α) : Prop where
  fault : o.fault? = o'.fault?
  load : o.state.load = o'.simulation
  kept : s.Kept o.state
  undone : o'.simulation = s.load → o.state = s

/-- Where nothing has been done, nothing has been done. -/
theorem Outcome.Follows.refl (s : State α) (fault? : Option (Fault α)) :
    Outcome.Follows s ⟨s, fault?⟩ ⟨s.load, fault?⟩ :=
  ⟨rfl, rfl, .refl s, fun _ => rfl⟩

variable [Add α] [Mul α] [Scalar α] {s : State α} {b : Backend α} {m : Mat3 α}

/-- The clock is read with everything else. -/
theorem follows_clock {t : State α} (h : s.Kept t) {n : Nat} (hn : 0 < n)
    (hstep : t.step = s.step) : Outcome.Follows s (t.clock n) (Backend.clock n t.load) := by
  have hafter : (Backend.clock n t.load).simulation = { t.load with
      step := (Backend.clock n t.load).simulation.step
      time := (Backend.clock n t.load).simulation.time } ∧
      (Backend.clock n t.load).simulation.step = s.step + n := by
    unfold Backend.clock
    dsimp only
    cases (Number.whole (n : Int)).times t.load.timestep <;> exact ⟨rfl, congrArg (· + n) hstep⟩
  refine ⟨rfl, hafter.1.symm, ?_, fun hsame => ?_⟩
  · exact h.trans ⟨rfl, rfl, fun _ _ _ => rfl⟩
  · have hcount := congrArg Simulation.step hsame
    rw [hafter.2] at hcount
    exact absurd hcount (by simp [State.load]; omega)

/-- A count that is refused stops an advance before anything is read. -/
theorem advance_of_refused {count : Number α} {fault : Fault α} (h : count.steps = .error fault) :
    s.advance b count = ⟨s, some fault⟩ := by
  unfold advance
  rw [h]

/-- A count of zero leaves everything alone. -/
theorem advance_of_zero {count : Number α} (h : count.steps = .ok 0) :
    s.advance b count = ⟨s, none⟩ := by
  unfold advance
  rw [h]
  rfl

/-- Any other count is passed on, and the clock is put on afterwards. -/
theorem advance_of_pos {count : Number α} {n : Nat} (hcount : count.steps = .ok n) (hn : 0 < n) :
    s.advance b count = (s.integrate b n).andThen (clock n) := by
  obtain ⟨k, rfl⟩ := Nat.exists_eq_add_one_of_ne_zero hn.ne'
  unfold advance
  rw [hcount]
  rfl

/-- Steps that a backend takes are stored, and read back. -/
theorem OwnsMotion.exists_stored [Machine] [Sub α] (hs : s.OwnsMotion) (hb : b.IsGenuine)
    (hmatrix : s.load.velocityScaling = .ofMat3 m) {scaling : Array α}
    (hscaling : s.load.HasScaling scaling) (n : Nat) :
    ∃ after, b.integrate s.load n = ⟨after, none⟩ ∧ s.integrate b n = ⟨s.stored after, none⟩ ∧
      after.atoms.size = s.size ∧ (s.stored after).load = after := by
  let matrix? := Device.activeMatrix? s.load.barostat m
  have hintegrate : b.integrate s.load n = ⟨s.load.stepped scaling matrix? n, none⟩ :=
    (hb.integrate_eq hmatrix hscaling.covers n).trans
      (Host.integrate_eq_stepped hscaling (Simulation.activeScaling?_of_matrix hmatrix) n)
  have hmoved : List.Forall₂ Atom.Moved s.load.atoms.toList
      (s.load.stepped scaling matrix? n).atoms.toList :=
    moved_iterate_stepAll _ scaling n s.load.atoms
  have hsize : (s.load.stepped scaling matrix? n).atoms.size = s.size := by
    simpa [load] using hmoved.length_eq.symm
  have hstored : s.integrate b n = ⟨s.stored (s.load.stepped scaling matrix? n), none⟩ := by
    rw [integrate, hintegrate]
    exact hs.store_eq hsize
  exact ⟨_, hintegrate, hstored, hsize, hs.load_stored hmoved⟩

/-- A state that owns its motion is advanced like the simulation that is read from it. -/
theorem OwnsMotion.follows [Machine] [Sub α] (hs : s.OwnsMotion) (hb : b.IsGenuine)
    (hmatrix : s.load.velocityScaling = .ofMat3 m) (count : Number α) :
    Outcome.Follows s (s.advance b count) (b.advance count s.load) := by
  cases hsteps : count.steps with
  | error fault =>
    rw [Backend.advance_of_refused hsteps, advance_of_refused hsteps]
    exact .refl s _
  | ok n =>
    rw [Backend.advance_of_steps hsteps, Backend.advance_whole]
    rcases Nat.eq_zero_or_pos n with rfl | hn
    · rw [advance_of_zero hsteps]
      exact .refl s _
    · rw [if_neg hn.ne']
      by_cases hfound : ∃ scaling, s.load.HasScaling scaling
      · obtain ⟨scaling, hscaling⟩ := hfound
        obtain ⟨after, hintegrate, hstored, hsize, hloaded⟩ :=
          hs.exists_stored hb hmatrix hscaling n
        have hclock := follows_clock (kept_stored hsize) hn rfl
        rw [hloaded] at hclock
        rw [advance_of_pos hsteps hn, hstored, hintegrate]
        exact hclock
      · obtain ⟨fault, hfault⟩ := hb.exists_integrate_eq hmatrix (not_exists.mp hfound) hn
        have hfailed : s.integrate b n = ⟨s, some fault⟩ := by
          rw [integrate, hfault]
          rfl
        rw [advance_of_pos hsteps hn, hfailed, hfault]
        exact .refl s _

/-- A simulation in memory of its own is advanced like the simulation itself, so that what is known of
simulations is known of what runs. -/
theorem advance_own [Machine] [Sub α] {s : Simulation α} (hb : b.IsGenuine)
    (hmatrix : s.velocityScaling = .ofMat3 m) (count : Number α) :
    ((own s).advance b count).fault? = (b.advance count s).fault? ∧
      ((own s).advance b count).state.load = (b.advance count s).simulation := by
  have hfollows := (ownsMotion_own s).follows hb (by rwa [load_own]) count
  rw [load_own] at hfollows
  exact ⟨hfollows.fault, hfollows.load⟩

end

end State

/-- The same supplies with an array that is there already in one of the slots. -/
def Supplies.withArray {α : Type} (slot : Slot) (shape : List Nat) (n : Nat) (supplies : Supplies α) :
    Supplies α :=
  { supplies with
    given := fun other => if other = slot then .array shape n else supplies.given other }

/-- One atom that everything is given for as numbers. -/
def Supplies.lone : Supplies Float :=
  .ofArrays (Synthetic.simulation 1 0.5 ⟨-4, 0, 0⟩ ⟨2, 0, -1⟩).arrays

/-- Two buffers of three numbers with an array for each. The second one must not be written. -/
def Memory.borrowed : Memory Nat Float where
  cells buffer k := (if buffer = 0 then [1, 0, 0] else [-4, 0, 0])[k]?.getD 0
  views n := ⟨n, 0, n == 0⟩

/-- The atom with velocities that must not be written. -/
def Supplies.fixed : Supplies Float := lone.withArray (.column .velocities) [1, 3] 1

end Leapfrog
