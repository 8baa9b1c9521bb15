import Leapfrog.Proofs.ArrayConditions

/-!
# Simulations as arrays

A simulation keeps together what belongs to one atom, and its arrays keep together what belongs to
one quantity. Arrays that are accepted come back as the arrays of the simulation that they describe,
and a simulation comes back from its arrays with the clock at the start. Being valid is a matter of
the arrays: a simulation is valid exactly if its arrays meet all conditions.
-/

namespace Leapfrog

namespace Tensor

variable {α : Type}

/-- The components of vectors, one vector after the other. -/
theorem length_flatMap_toList (vectors : List (Vec3 α)) :
    (vectors.flatMap Vec3.toList).length = vectors.length * 3 := by
  induction vectors with
  | nil => rfl
  | cons v rest ih =>
    rw [List.flatMap_cons, List.length_append, ih, List.length_cons, Nat.succ_mul, Nat.add_comm]
    rfl

/-- The array of some vectors. -/
def table (vectors : List (Vec3 α)) : Tensor α :=
  ⟨[vectors.length, 3], vectors.flatMap Vec3.toList, length_flatMap_toList vectors⟩

/-- Vectors are the triples of their components. -/
@[simp] theorem triples_flatMap_toList (vectors : List (Vec3 α)) :
    triples (vectors.flatMap Vec3.toList) = vectors := by
  induction vectors with
  | nil => rfl
  | cons v rest ih => exact congrArg (v :: ·) ih

/-- Components that come in threes are the components of their triples. -/
theorem flatMap_toList_triples {entries : List α} {n : Nat} (h : entries.length = n * 3) :
    (triples entries).flatMap Vec3.toList = entries ∧ (triples entries).length = n := by
  induction n generalizing entries with
  | zero =>
    obtain rfl := List.length_eq_zero_iff.mp (h.trans (Nat.zero_mul 3))
    exact ⟨rfl, rfl⟩
  | succ n ih =>
    rw [Nat.succ_mul] at h
    obtain ⟨x, y, z, rest, rfl⟩ : ∃ x y z rest, entries = x :: y :: z :: rest := by
      match entries, h with
      | x :: y :: z :: rest, _ => exact ⟨x, y, z, rest, rfl⟩
    obtain ⟨hcomponents, hlength⟩ := ih (Nat.add_right_cancel (m := 3) h)
    refine ⟨?_, congrArg (· + 1) hlength⟩
    rw [triples, List.flatMap_cons, hcomponents]
    rfl

/-- An array of vectors has as many vectors as it has rows. -/
theorem length_triples {t : Tensor α} {n : Nat} (h : t.shape = [n, 3]) :
    (triples t.entries).length = n := by
  have hlength := t.length_entries
  rw [h] at hlength
  exact (flatMap_toList_triples hlength).2

/-- An array of vectors is the array of its vectors. -/
theorem table_triples {t : Tensor α} {n : Nat} (h : t.shape = [n, 3]) :
    table (triples t.entries) = t := by
  have hlength := t.length_entries
  rw [h] at hlength
  obtain ⟨hcomponents, hvectors⟩ := flatMap_toList_triples hlength
  obtain ⟨shape, entries, _⟩ := t
  subst h
  simp only [table, hvectors, hcomponents]

/-- An array of one axis is a row. -/
theorem row_entries {t : Tensor α} (h : t.shape.length = 1) : row t.entries = t := by
  obtain ⟨shape, entries, hlength⟩ := t
  obtain ⟨n, rfl⟩ := List.length_eq_one_iff.mp h
  simp only [row, mk.injEq, and_true]
  rw [show entries.length = n by simpa using hlength]

end Tensor

section

variable {α : Type}

namespace Simulation

/-- The array of a column. -/
def column (s : Simulation α) (c : Arrays.Column) : Tensor α :=
  .table (s.atoms.toList.map fun a => a.column c)

/-- The arrays of a simulation. -/
def arrays (s : Simulation α) : Arrays α where
  startPositions := s.column .startPositions
  positions := s.column .positions
  startVelocities := s.column .startVelocities
  velocities := s.column .velocities
  forces := s.column .forces
  inverseMasses := .row (s.atoms.toList.map Atom.inverseMass)
  inverseMassesPerAxis := s.column .inverseMassesPerAxis
  timestep := .scalar s.timestep
  box := s.box
  velocityScaling := s.velocityScaling
  thermostat := s.thermostat
  barostat := s.barostat
  couplings := s.couplings
  groups? := some (.row (s.groups.toList.map .whole))

@[simp] theorem column_arrays (s : Simulation α) (c : Arrays.Column) :
    s.arrays.column c = s.column c := by
  cases c <;> rfl

@[simp] theorem size_arrays (s : Simulation α) : s.arrays.size = s.atoms.size := by
  simp [arrays, Arrays.size, Tensor.row]

@[simp] theorem entries_groups_arrays (s : Simulation α) :
    s.arrays.groups.entries = s.groups.toList.map .whole := rfl

/-- What holds of all entries of a column holds of all components of what the atoms keep there. -/
theorem forall_column {s : Simulation α} {c : Arrays.Column} {p : α → Prop} :
    (∀ a ∈ (s.column c).entries, p a) ↔ ∀ a ∈ s.atoms, ∀ axis, p ((a.column c).get axis) := by
  simp only [column, Tensor.table, List.mem_flatMap, List.mem_map, Array.mem_toList_iff]
  constructor
  · intro h a ha axis
    refine h _ ⟨_, ⟨a, ha, rfl⟩, ?_⟩
    cases axis <;> simp [Vec3.toList, Vec3.get]
  · rintro h _ ⟨_, ⟨a, ha, rfl⟩, hcomponent⟩
    obtain rfl | rfl | rfl : _ = (a.column c).x ∨ _ = (a.column c).y ∨ _ = (a.column c).z := by
      simpa [Vec3.toList] using hcomponent
    exacts [h a ha .x, h a ha .y, h a ha .z]

/-- Atoms come back from their columns. -/
theorem zipAtoms_map (atoms : List (Atom α)) :
    zipAtoms (atoms.map Atom.startPosition) (atoms.map Atom.position)
      (atoms.map Atom.startVelocity) (atoms.map Atom.velocity) (atoms.map Atom.force)
      (atoms.map Atom.inverseMass) (atoms.map Atom.inverseMassPerAxis) = atoms := by
  induction atoms with
  | nil => rfl
  | cons a rest ih => exact congrArg (a :: ·) ih

/-- Columns of equal length are the columns of some atoms. -/
theorem exists_atoms {n : Nat} {columns : Arrays.Column → List (Vec3 α)} {masses : List α}
    (hcolumns : ∀ c, (columns c).length = n) (hmasses : masses.length = n) :
    ∃ atoms : List (Atom α), (∀ c, atoms.map (fun a => a.column c) = columns c) ∧
      atoms.map Atom.inverseMass = masses := by
  induction n generalizing columns masses with
  | zero =>
    refine ⟨[], fun c => ?_, ?_⟩
    · exact (List.length_eq_zero_iff.mp (hcolumns c)).symm
    · exact (List.length_eq_zero_iff.mp hmasses).symm
  | succ n ih =>
    have hcons (c : Arrays.Column) : ∃ v rest, columns c = v :: rest ∧ rest.length = n := by
      obtain ⟨v, rest, hvectors⟩ := List.exists_cons_of_length_eq_add_one (hcolumns c)
      exact ⟨v, rest, hvectors, by simpa [hvectors] using hcolumns c⟩
    choose first rest hfirst hrest using hcons
    obtain ⟨m, masses, rfl⟩ := List.exists_cons_of_length_eq_add_one hmasses
    obtain ⟨atoms, hatoms, hm⟩ := ih hrest (Nat.succ.inj hmasses)
    refine ⟨⟨first .startPositions, first .positions, first .startVelocities, first .velocities,
      first .forces, m, first .inverseMassesPerAxis⟩ :: atoms, fun c => ?_, ?_⟩
    · rw [List.map_cons, hatoms, hfirst]
      cases c <;> rfl
    · rw [List.map_cons, hm]

end Simulation

end

section

variable {α : Type} [Scalar α]

namespace Arrays

variable {a : Arrays α}

/-- Arrays in the form in which a simulation keeps them: a number in place of a row is a row of one
entry, the timestep is a scalar, and groups are whole numbers. -/
def kept (a : Arrays α) : Arrays α :=
  { a with
    inverseMasses := a.inverseMasses.withAxis
    timestep := .scalar a.timestep.nearest
    groups? := some (.row ((a.groups.entries.filterMap Number.group?).map .whole)) }

/-- There is a group for every atom. -/
theorem HasShortGroups.length_groups (h : a.HasShortGroups)
    (hrow : Condition.groupRow.Holds a) :
    (a.groups.entries.filterMap Number.group?).length = a.size := by
  have hlength := a.groups.withAxis.length_entries
  rw [show a.groups.withAxis.shape = [a.size] from hrow, entries_withAxis] at hlength
  rw [List.filterMap_length_eq_length.mpr fun given hgiven => ?_, hlength]
  · exact Nat.mul_one a.size
  · obtain ⟨g, hg, -⟩ := h given hgiven
    simp [hg]

/-- Arrays that meet all conditions still do in the form in which they are kept. -/
theorem HasShortGroups.holds_kept (h : a.HasShortGroups) (hall : ∀ c : Condition, c.Holds a)
    (c : Condition) : c.Holds a.kept := by
  have hsize : a.kept.size = a.size := congrArg List.length (entries_withAxis _)
  cases c with
  | massRow =>
    have hrow : a.inverseMasses.withAxis.shape.length = 1 := hall .massRow
    change a.inverseMasses.withAxis.withAxis.shape.length = 1
    rw [← Tensor.row_entries hrow]
    rfl
  | someAtom =>
    change 0 < a.kept.size
    rw [hsize]
    exact hall .someAtom
  | massRange =>
    change ∀ m ∈ a.inverseMasses.withAxis.entries, _
    rw [entries_withAxis]
    exact hall .massRange
  | timestep =>
    have htimestep : a.timestep.FitsWord ∧ Scalar.isPositive a.timestep.nearest = true :=
      hall .timestep
    exact ⟨trivial, htimestep.2⟩
  | vectors c =>
    have hcolumn : (a.column c).shape = [a.size, 3] := hall (.vectors c)
    rw [← hsize] at hcolumn
    cases c <;> exact hcolumn
  | matrix => exact hall .matrix
  | groupRow =>
    change [_] = [a.kept.size]
    rw [List.length_map, h.length_groups (hall .groupRow), hsize]
  | groupRange =>
    intro given hgiven g hg
    obtain ⟨g', hg', rfl⟩ := List.mem_map.mp hgiven
    obtain ⟨given, hgiven, hstands⟩ := List.mem_filterMap.mp hg'
    obtain rfl : g' = g := Option.some.inj hg
    exact hall .groupRange given hgiven g' hstands

/-- Arrays that are accepted come back from the simulation that they describe. -/
theorem arrays_simulation (hall : ∀ c : Condition, c.Holds a) : a.simulation.arrays = a.kept := by
  have hcolumns (c : Column) : (a.vectorsOf c).length = a.size :=
    Tensor.length_triples (hall (.vectors c))
  have hmasses : Tensor.row a.inverseMasses.entries = a.inverseMasses.withAxis := by
    rw [← entries_withAxis]
    exact Tensor.row_entries (hall .massRow)
  obtain ⟨atoms, hvectors, hm⟩ := Simulation.exists_atoms hcolumns rfl
  have hatoms : a.simulation.atoms = atoms.toArray := by
    unfold simulation
    simp only [← hvectors]
    rw [← hm]
    exact congrArg List.toArray (Simulation.zipAtoms_map atoms)
  have hcolumn (c : Column) : a.simulation.column c = a.column c := by
    rw [Simulation.column, hatoms, List.toList_toArray, hvectors c]
    exact Tensor.table_triples (hall (.vectors c))
  unfold Simulation.arrays kept
  rw [hatoms, List.toList_toArray, hm, hmasses]
  simp only [hcolumn]
  rfl

end Arrays

namespace Simulation

/-- A simulation comes back from its arrays, with the clock at the start. -/
theorem simulation_arrays (s : Simulation α) :
    s.arrays.simulation = { s with scratch := .single, step := 0, time := Scalar.ofInt 0 } := by
  have hcolumn (c : Arrays.Column) :
      s.arrays.vectorsOf c = s.atoms.toList.map fun a => a.column c := by
    rw [Arrays.vectorsOf, column_arrays]
    exact Tensor.triples_flatMap_toList _
  have hgroups : s.arrays.groups.entries.filterMap Number.group? = s.groups.toList := by
    rw [entries_groups_arrays, List.filterMap_map]
    exact List.filterMap_some
  unfold Arrays.simulation
  simp only [hcolumn, hgroups]
  congr 1
  exact congrArg List.toArray (zipAtoms_map s.atoms.toList)

/-- A simulation is valid exactly if its arrays meet all conditions. -/
theorem isValid_iff {s : Simulation α} :
    s.IsValid ↔ ∀ c : Arrays.Condition, c.Holds s.arrays := by
  constructor
  · intro h c
    cases c with
    | massRow => rfl
    | someAtom =>
      change 0 < s.arrays.size
      rw [size_arrays]
      exact h.atoms_pos
    | massRange =>
      intro m hm
      obtain ⟨a, ha, rfl⟩ := List.mem_map.mp hm
      exact h.mass_positive a (Array.mem_toList_iff.mp ha)
    | timestep => exact ⟨trivial, h.timestep_positive⟩
    | vectors c =>
      change (s.arrays.column c).shape = _
      rw [column_arrays, size_arrays]
      simp [column, Tensor.table]
    | matrix => exact h.matrix_shape
    | groupRow =>
      change [_] = [_]
      simpa using h.group_count
    | groupRange =>
      intro given hgiven g hg
      obtain ⟨g', hg', rfl⟩ := List.mem_map.mp hgiven
      obtain rfl : g' = g := Option.some.inj hg
      exact h.group_present g' (Array.mem_toList_iff.mp hg')
  · intro h
    exact {
      atoms_pos := size_arrays s ▸ h .someAtom
      timestep_positive := (h .timestep).2
      mass_positive := fun a ha =>
        h .massRange _ (List.mem_map_of_mem (Array.mem_toList_iff.mpr ha))
      matrix_shape := h .matrix
      group_count := by
        have hrow : [_] = [_] := h .groupRow
        simpa using hrow
      group_present := fun g hg =>
        h .groupRange _ (List.mem_map_of_mem (Array.mem_toList_iff.mpr hg)) g rfl }

/-- Arrays that meet all conditions describe a valid simulation. -/
theorem isValid_of_holds {a : Arrays α} (h : a.HasShortGroups)
    (hall : ∀ c : Arrays.Condition, c.Holds a) : a.simulation.IsValid := by
  rw [isValid_iff, Arrays.arrays_simulation hall]
  exact h.holds_kept hall

end Simulation

end

end Leapfrog
