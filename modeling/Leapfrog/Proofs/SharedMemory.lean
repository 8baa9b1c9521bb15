import Leapfrog.Proofs.AdvanceOutcome
import Leapfrog.Proofs.Columns
import Leapfrog.State.Given

/-!
# Reading and writing in shared memory

Writing an array changes what is read through another one only if both have an entry in the same
place. A state owns its motion if this never happens to its positions and velocities. Then the
positions and velocities of a simulation are stored one after the other, and the atoms that are read
afterwards have the new ones and are otherwise the old ones.

A state in memory of its own owns its motion, and so does every copy of a state that does.
-/

namespace Leapfrog

namespace Memory

variable {ι α : Type} [DecidableEq ι] {m : Memory ι α} {array other : ι} {values : Array α} {k : Nat}

/-- The values that have been written are read. -/
theorem entry_overwrite_self (hk : k < values.size) :
    (m.overwrite array values).entry array k = values[k] := by
  simp [entry, place, overwrite, hk]

/-- A cell that is not the place of an entry that has been written is what it was. -/
theorem cells_overwrite_of_ne {buffer : ι} {position : Nat}
    (h : ∀ j < values.size, m.place array j ≠ (buffer, position)) :
    (m.overwrite array values).cells buffer position = m.cells buffer position := by
  simp only [overwrite]
  split
  · next hinside =>
    obtain ⟨rfl, hstart⟩ := hinside
    have hbehind : values.size ≤ position - (m.views array).start := by
      refine Nat.le_of_not_lt fun hlt => h _ hlt ?_
      rw [place, Nat.add_sub_cancel' hstart]
    rw [Array.getElem?_eq_none hbehind, Option.getD_none]
  · rfl

/-- An entry that has no place in common with the ones written is what it was. -/
theorem entry_overwrite_of_ne (h : ∀ j < values.size, m.place array j ≠ m.place other k) :
    (m.overwrite array values).entry other k = m.entry other k :=
  cells_overwrite_of_ne h

end Memory

/-- The columns that an advance writes. -/
def Arrays.Column.motion : List Arrays.Column := [.positions, .velocities]

/-- The components of some vectors, one vector after the other. -/
theorem Tensor.getElem?_flatMap_toList {α : Type} (vectors : List (Vec3 α)) (i : Nat) :
    (vectors.flatMap Vec3.toList)[i * 3]? = vectors[i]?.map Vec3.x ∧
      (vectors.flatMap Vec3.toList)[i * 3 + 1]? = vectors[i]?.map Vec3.y ∧
      (vectors.flatMap Vec3.toList)[i * 3 + 2]? = vectors[i]?.map Vec3.z := by
  induction vectors generalizing i with
  | nil => simp
  | cons v rest ih =>
    cases i with
    | zero => exact ⟨rfl, rfl, rfl⟩
    | succ i =>
      rw [Nat.succ_mul]
      exact ih i

namespace State

variable {α : Type}

/-- The place in memory that an entry of a slot has. -/
def place (s : State α) (slot : Slot) (k : Nat) : Storage × Nat := s.memory.place (s.arrays slot) k

/-- Positions and velocities may be written, and no entry of them is an entry of any other array. -/
structure OwnsMotion (s : State α) : Prop where
  writable : ∀ c ∈ Arrays.Column.motion,
    (s.memory.views (s.arrays (.column c))).isWritable = true
  apart : ∀ c ∈ Arrays.Column.motion, ∀ k < s.size * 3, ∀ slot, slot ≠ .column c →
    ∀ j < s.length slot, s.place (.column c) k ≠ s.place slot j

/-- A state that has been left as it was, but for its clock and for what its positions and velocities
hold. Nothing else in memory has been written. -/
structure Kept (s after : State α) : Prop where
  frame : after = { s with memory := after.memory, step := after.step, time := after.time }
  views : after.memory.views = s.memory.views
  cells : ∀ buffer position,
    (∀ c ∈ Arrays.Column.motion, ∀ k < s.size * 3, s.place (.column c) k ≠ (buffer, position)) →
    after.memory.cells buffer position = s.memory.cells buffer position

namespace Kept

variable {s t u : State α}

theorem refl (s : State α) : s.Kept s := ⟨rfl, rfl, fun _ _ _ => rfl⟩

/-- There are as many atoms as before. -/
theorem size_eq (h : s.Kept t) : t.size = s.size := by
  rw [h.frame]

/-- Each slot has as many entries as before. -/
theorem length_eq (h : s.Kept t) (slot : Slot) : t.length slot = s.length slot := by
  rw [h.frame]
  rfl

/-- Each entry is where it was before. -/
theorem place_eq (h : s.Kept t) (slot : Slot) (k : Nat) : t.place slot k = s.place slot k := by
  rw [place, place, Memory.place, Memory.place, h.views, h.frame]

/-- Keeping twice is keeping. -/
theorem trans (hst : s.Kept t) (htu : t.Kept u) : s.Kept u := by
  constructor
  · rw [htu.frame, hst.frame]
  · rw [htu.views, hst.views]
  · intro buffer position h
    rw [htu.cells buffer position fun c hc k hk => ?_, hst.cells buffer position h]
    rw [hst.place_eq]
    exact h c hc k (hst.size_eq ▸ hk)

end Kept

/-- A state that has been kept still owns its motion. -/
theorem OwnsMotion.of_kept {s after : State α} (hs : s.OwnsMotion) (h : s.Kept after) :
    after.OwnsMotion := by
  constructor
  · intro c hc
    rw [h.views, h.frame]
    exact hs.writable c hc
  · intro c hc k hk slot hslot j hj
    rw [h.place_eq, h.place_eq]
    rw [h.size_eq] at hk
    rw [h.length_eq] at hj
    exact hs.apart c hc k hk slot hslot j hj

section

variable {s : State α} {c : Arrays.Column} {after : Simulation α}

/-- The state after a column has been written. -/
def overwritten (c : Arrays.Column) (after : Simulation α) (s : State α) : State α :=
  { s with memory := s.memory.overwrite (s.arrays (.column c)) (after.columnEntries c) }

/-- Positions and velocities of one's own are written. -/
theorem OwnsMotion.write_eq (hs : s.OwnsMotion) (hc : c ∈ Arrays.Column.motion)
    (after : Simulation α) : s.write c after = ⟨s.overwritten c after, none⟩ := by
  unfold write
  rw [Memory.write, if_pos (hs.writable c hc)]
  rfl

/-- There are three components for every atom. -/
theorem size_columnEntries (after : Simulation α) (c : Arrays.Column) :
    (after.columnEntries c).size = after.atoms.size * 3 := by
  rw [Simulation.columnEntries, List.size_toArray, Tensor.length_flatMap_toList, List.length_map,
    Array.length_toList]

/-- Writing positions or velocities of as many atoms keeps everything else. -/
theorem kept_overwritten (hc : c ∈ Arrays.Column.motion) (hsize : after.atoms.size = s.size) :
    s.Kept (s.overwritten c after) := by
  refine ⟨rfl, rfl, fun buffer position hplace => Memory.cells_overwrite_of_ne fun j hj => ?_⟩
  rw [size_columnEntries, hsize] at hj
  exact hplace c hc j hj

/-- A state that has been written owns its motion still. -/
theorem OwnsMotion.overwritten (hs : s.OwnsMotion) (hc : c ∈ Arrays.Column.motion)
    (hsize : after.atoms.size = s.size) : (s.overwritten c after).OwnsMotion :=
  hs.of_kept (kept_overwritten hc hsize)

/-- The vectors that are read where memory holds the components of a column. -/
theorem vector_of_entries
    (h : ∀ k value, (after.columnEntries c)[k]? = some value → s.entry (.column c) k = value)
    {i : Nat} {a : Atom α} (ha : after.atoms[i]? = some a) : s.vector c i = a.column c := by
  have hvectors : (after.atoms.toList.map fun a => a.column c)[i]? = some (a.column c) := by
    rw [List.getElem?_map, Array.getElem?_toList, ha, Option.map_some]
  obtain ⟨hx, hy, hz⟩ :=
    Tensor.getElem?_flatMap_toList (after.atoms.toList.map fun a => a.column c) i
  rw [hvectors] at hx hy hz
  have hentry {k : Nat} {value : α} (hk : (after.columnEntries c).toList[k]? = some value) :
      s.entry (.column c) k = value :=
    h k value (by rwa [Array.getElem?_toList] at hk)
  exact Vec3.ext (hentry hx) (hentry hy) (hentry hz)

/-- A vector that has been written is the one of the atom that was written. -/
theorem vector_overwritten_self {i : Nat} {a : Atom α} (ha : after.atoms[i]? = some a) :
    (s.overwritten c after).vector c i = a.column c := by
  refine vector_of_entries (fun k value hk => ?_) ha
  obtain ⟨hlt, hvalue⟩ := Array.getElem?_eq_some_iff.mp hk
  exact (Memory.entry_overwrite_self hlt).trans hvalue

/-- What is read from any other slot is what it was. -/
theorem OwnsMotion.entry_overwritten (hs : s.OwnsMotion) (hc : c ∈ Arrays.Column.motion)
    (hsize : after.atoms.size = s.size) {slot : Slot} (hslot : slot ≠ .column c) {k : Nat}
    (hk : k < s.length slot) : (s.overwritten c after).entry slot k = s.entry slot k := by
  refine Memory.entry_overwrite_of_ne fun j hj => ?_
  rw [size_columnEntries, hsize] at hj
  exact hs.apart c hc j hj slot hslot k hk

/-- So are the vectors of any other column. -/
theorem OwnsMotion.vector_overwritten (hs : s.OwnsMotion) (hc : c ∈ Arrays.Column.motion)
    (hsize : after.atoms.size = s.size) {other : Arrays.Column} (hother : other ≠ c) {i : Nat}
    (hi : i < s.size) : (s.overwritten c after).vector other i = s.vector other i := by
  have hslot : Slot.column other ≠ .column c := fun h => hother (Slot.column.inj h)
  have hentry {k : Nat} (hk : k < s.size * 3) :
      (s.overwritten c after).entry (.column other) k = s.entry (.column other) k :=
    hs.entry_overwritten hc hsize hslot hk
  exact Vec3.ext (hentry (by omega)) (hentry (by omega)) (hentry (by omega))

end

section

variable {s : State α} {after : Simulation α}

/-- The state after positions and velocities have been written. -/
def stored (after : Simulation α) (s : State α) : State α :=
  (s.overwritten .positions after).overwritten .velocities after

/-- Storing as many atoms keeps everything else. -/
theorem kept_stored (hsize : after.atoms.size = s.size) : s.Kept (s.stored after) :=
  (kept_overwritten (by decide) hsize).trans (kept_overwritten (by decide) hsize)

/-- Where a state owns its motion, positions and velocities are stored. -/
theorem OwnsMotion.store_eq (hs : s.OwnsMotion) (hsize : after.atoms.size = s.size) :
    s.store after = ⟨s.stored after, none⟩ := by
  rw [store, hs.write_eq (by decide)]
  exact (hs.overwritten (by decide) hsize).write_eq (by decide) after

/-- What is read from any other slot than these two is what it was. -/
theorem OwnsMotion.entry_stored (hs : s.OwnsMotion) (hsize : after.atoms.size = s.size)
    {slot : Slot} (hslot : ∀ c ∈ Arrays.Column.motion, slot ≠ .column c) {k : Nat}
    (hk : k < s.length slot) : (s.stored after).entry slot k = s.entry slot k :=
  ((hs.overwritten (by decide) hsize).entry_overwritten (by decide) hsize
      (hslot .velocities (by decide)) hk).trans
    (hs.entry_overwritten (by decide) hsize (hslot .positions (by decide)) hk)

/-- An atom that has been stored has its new position and velocity and is otherwise what it was. -/
theorem OwnsMotion.atom_stored (hs : s.OwnsMotion) (hsize : after.atoms.size = s.size) {i : Nat}
    {a : Atom α} (ha : after.atoms[i]? = some a) :
    (s.stored after).atom i = { s.atom i with position := a.position, velocity := a.velocity } := by
  have hi : i < s.size := hsize ▸ (Array.getElem?_eq_some_iff.mp ha).1
  have hbetween : (s.overwritten .positions after).OwnsMotion := hs.overwritten (by decide) hsize
  have hother (c : Arrays.Column) (hpositions : c ≠ .positions) (hvelocities : c ≠ .velocities) :
      (s.stored after).vector c i = s.vector c i :=
    (hbetween.vector_overwritten (by decide) hsize hvelocities hi).trans
      (hs.vector_overwritten (by decide) hsize hpositions hi)
  have hposition : (s.stored after).vector .positions i = a.position :=
    (hbetween.vector_overwritten (by decide) hsize (by decide) hi).trans (vector_overwritten_self ha)
  have hvelocity : (s.stored after).vector .velocities i = a.velocity := vector_overwritten_self ha
  have hslot (c : Arrays.Column) : Slot.inverseMasses ≠ .column c := nofun
  have hmass : (s.stored after).entry .inverseMasses i = s.entry .inverseMasses i :=
    hs.entry_stored hsize (fun c _ => hslot c) hi
  unfold atom
  rw [hposition, hvelocity, hmass, hother .startPositions nofun nofun,
    hother .startVelocities nofun nofun, hother .forces nofun nofun,
    hother .inverseMassesPerAxis nofun nofun]

/-- Storing leaves the velocity scaling alone. -/
theorem OwnsMotion.scaling_stored (hs : s.OwnsMotion) (hsize : after.atoms.size = s.size) :
    (s.stored after).scaling = s.scaling := by
  have hslot (c : Arrays.Column) : Slot.velocityScaling ≠ .column c := nofun
  have hentries : (s.stored after).memory.entries (s.arrays .velocityScaling)
      (s.length .velocityScaling) =
      s.memory.entries (s.arrays .velocityScaling) (s.length .velocityScaling) :=
    List.map_congr_left fun k hk =>
      hs.entry_stored hsize (fun c _ => hslot c) (List.mem_range.mp hk)
  unfold scaling
  congr 1

/-- The simulation that is read after the atoms of a state have been moved and stored. -/
theorem OwnsMotion.load_stored (hs : s.OwnsMotion)
    (hmoved : List.Forall₂ Atom.Moved s.load.atoms.toList after.atoms.toList) :
    (s.stored after).load = { s.load with atoms := after.atoms } := by
  have hsize : after.atoms.size = s.size := by
    have hlength := hmoved.length_eq
    simpa [load] using hlength.symm
  have hatoms : (s.stored after).load.atoms = after.atoms := by
    refine Array.ext (hsize ▸ Array.size_ofFn) fun i hi hi' => ?_
    have ha : after.atoms[i]? = some after.atoms[i] := Array.getElem?_eq_getElem hi'
    have hstarted : i < s.size := hsize ▸ hi'
    have hpair : (s.atom i).Moved after.atoms[i] := by
      have hget := (List.forall₂_iff_get.mp hmoved).2 i (by simpa [load] using hstarted)
        (by simpa using hi')
      simpa [load] using hget
    calc (s.stored after).load.atoms[i] = (s.stored after).atom i := by
          simp only [load, Array.getElem_ofFn]
      _ = after.atoms[i] := (hs.atom_stored hsize ha).trans hpair.symm
  rw [← hatoms]
  unfold load
  rw [hs.scaling_stored hsize]
  rfl

end

end State

end Leapfrog
