import Leapfrog.Proofs.Quantities
import Leapfrog.Proofs.Traversal
import Leapfrog.Simulation.Checked

/-!
# Conditions on arrays

Arrays describe a simulation exactly if they meet thirteen conditions. Each condition speaks of the
arrays as they are given and has a refusal of its own, which is what becomes of the arrays if it is
the first one that they violate.

Arrays are converted before they are looked at. A number in place of a row counts as a row of one
entry, an array with too many axes is refused in words of its own, and atoms whose groups are not
given are all put into the first group, which then must be in the table like any other.
-/

namespace Leapfrog

/-- The group that a number stands for: a whole number itself, a scalar without its fraction. -/
def Number.group? {α : Type} [Scalar α] : Number α → Option Int
  | .whole n => some n
  | .scalar x =>
    if Scalar.isNaN x then none
    else if !Scalar.isFinite x then none
    else some (Scalar.truncate x)

namespace Arrays

section

variable {α : Type} (a : Arrays α)

/-- How many atoms arrays are for: as many as there are inverse masses. -/
def size : Nat := a.inverseMasses.entries.length

/-- The groups that are given, or else the first group for every atom. -/
def groups : Tensor (Number α) := a.groups?.getD (.row (List.replicate a.size (.whole 0)))

end

/-- What is required of arrays. -/
inductive Condition where
  /-- The inverse masses are a row. -/
  | massRow
  /-- There is at least one inverse mass. -/
  | someAtom
  /-- All inverse masses are finite and above zero. -/
  | massRange
  /-- The timestep has at most 64 bits if it is a whole number, and is finite and above zero. -/
  | timestep
  /-- A column has one vector for each atom. -/
  | vectors (column : Column)
  /-- The velocity scaling is a matrix. -/
  | matrix
  /-- The groups are a row with one entry for each atom. -/
  | groupRow
  /-- All groups are in the table of coupling groups. -/
  | groupRange
  deriving DecidableEq, Repr

namespace Condition

/-- All conditions in the order in which they are checked. -/
def all : List Condition :=
  [.massRow, .someAtom, .massRange, .timestep, .vectors .startPositions, .vectors .positions,
    .vectors .startVelocities, .vectors .velocities, .vectors .forces,
    .vectors .inverseMassesPerAxis, .matrix, .groupRow, .groupRange]

/-- No condition is left out. -/
@[simp] theorem mem_all (c : Condition) : c ∈ all := by
  cases c with
  | vectors column => cases column <;> decide
  | _ => decide

section

variable {α : Type} (a : Arrays α)

/-- The fault of an array that is refused, unless it has too many axes to be an array at all. -/
def refusal {β : Type} (t : Tensor β) (fault : Fault α) : Fault α :=
  if t.shape.length ≤ Limits.axes then fault else .tooManyAxes Limits.axes

/-- The fault of arrays that violate a condition and none before it. -/
def fault : Condition → Fault α
  | massRow => refusal a.inverseMasses (.massShape a.inverseMasses.withAxis.shape)
  | someAtom => .noAtoms
  | massRange => .massRange
  | timestep => if a.timestep.FitsWord then .timestep a.timestep else .wideNumber
  | vectors c => refusal (a.column c) (.arrayShape c.name (a.column c).withAxis.shape a.size)
  | matrix => refusal a.velocityScaling (.matrixShape a.velocityScaling.shape)
  | groupRow => refusal a.groups (.arrayShape "group_indices" a.groups.withAxis.shape a.size)
  | groupRange => .missingGroup

/-- Whatever is wrong with arrays, it is a value that is not accepted, unless the timestep is a whole
number of more than 64 bits. -/
theorem kind_fault (c : Condition) : (c.fault a).kind =
    if c = .timestep ∧ ¬ a.timestep.FitsWord then .form else .value := by
  have hrefusal {β : Type} (t : Tensor β) {fault : Fault α} (h : fault.kind = .value) :
      (refusal t fault).kind = .value := by
    unfold refusal
    split
    · exact h
    · rfl
  cases c with
  | someAtom | massRange | groupRange => rfl
  | timestep =>
    rw [fault]
    split <;> simp_all [Fault.kind]
  | massRow | vectors | matrix | groupRow => exact hrefusal _ rfl

end

variable {α : Type} [Scalar α] (a : Arrays α)

/-- What a condition requires. -/
def Holds : Condition → Prop
  | massRow => a.inverseMasses.withAxis.shape.length = 1
  | someAtom => 0 < a.size
  | massRange => ∀ m ∈ a.inverseMasses.entries, Scalar.isPositive m = true
  | timestep => a.timestep.FitsWord ∧ Scalar.isPositive a.timestep.nearest = true
  | vectors c => (a.column c).shape = [a.size, 3]
  | matrix => a.velocityScaling.shape = [3, 3]
  | groupRow => a.groups.withAxis.shape = [a.size]
  | groupRange => ∀ given ∈ a.groups.entries, ∀ g ∈ given.group?, 0 ≤ g ∧ g < a.couplings.length

instance : (c : Condition) → Decidable (c.Holds a)
  | massRow => inferInstanceAs (Decidable (a.inverseMasses.withAxis.shape.length = 1))
  | someAtom => inferInstanceAs (Decidable (0 < a.size))
  | massRange =>
    inferInstanceAs (Decidable (∀ m ∈ a.inverseMasses.entries, Scalar.isPositive m = true))
  | timestep =>
    inferInstanceAs (Decidable (a.timestep.FitsWord ∧ Scalar.isPositive a.timestep.nearest = true))
  | vectors c => inferInstanceAs (Decidable ((a.column c).shape = [a.size, 3]))
  | matrix => inferInstanceAs (Decidable (a.velocityScaling.shape = [3, 3]))
  | groupRow => inferInstanceAs (Decidable (a.groups.withAxis.shape = [a.size]))
  | groupRange => inferInstanceAs (Decidable
      (∀ given ∈ a.groups.entries, ∀ g ∈ given.group?, 0 ≤ g ∧ g < a.couplings.length))

/-- A single condition, checked. -/
def check (c : Condition) : Except (Fault α) Unit :=
  if c.Holds a then .ok () else .error (c.fault a)

variable {a} in
/-- A condition that is met passes its check. -/
theorem check_of_holds {c : Condition} (h : c.Holds a) : check a c = .ok () := if_pos h

variable {a} in
/-- A condition that is violated has its fault. -/
theorem check_of_not_holds {c : Condition} (h : ¬ c.Holds a) : check a c = .error (c.fault a) :=
  if_neg h

variable {a} in
/-- What goes on where a condition is met, and stops with its fault otherwise, goes on from its
check. -/
theorem ite_eq_check_bind {γ : Type} {c : Condition} {p : Prop} [Decidable p]
    {next stop : Except (Fault α) γ} (hp : p ↔ c.Holds a) (hstop : stop = .error (c.fault a)) :
    (if p then next else stop) = (check a c >>= fun _ => next) := by
  by_cases hc : c.Holds a
  · rw [if_pos (hp.mpr hc), check_of_holds hc]
    rfl
  · rw [if_neg (mt hp.mp hc), check_of_not_holds hc, hstop]
    rfl

/-- Conditions that are checked one after the other. -/
theorem forM_check_eq (conditions : List Condition) :
    forM conditions (check a) =
      match conditions.find? fun c => !decide (c.Holds a) with
      | none => .ok ()
      | some c => .error (c.fault a) := by
  induction conditions with
  | nil => rfl
  | cons c rest ih =>
    rw [List.forM_cons]
    by_cases hc : c.Holds a
    · rw [check_of_holds hc, List.find?_cons_of_neg (by simp [hc])]
      exact ih
    · rw [check_of_not_holds hc, List.find?_cons_of_pos (by simp [hc])]
      rfl

/-- All checks pass exactly if all conditions are met. -/
theorem forM_check_eq_ok_iff : forM all (check a) = .ok () ↔ ∀ c : Condition, c.Holds a := by
  rw [forM_check_eq]
  cases hfind : all.find? fun c => !decide (c.Holds a) with
  | none =>
    have hall : ∀ c : Condition, c.Holds a := fun c => by
      simpa using List.find?_eq_none.mp hfind c (mem_all c)
    simp [hall]
  | some c =>
    have hviolated : ¬ c.Holds a := by
      simpa using List.find?_some hfind
    simp only [reduceCtorEq, false_iff]
    exact fun hall => hviolated (hall c)

end Condition

section

variable {β : Type}

/-- A table has as many vectors as it has rows; a number in place of it has none. -/
theorem vectors?_withAxis (n : Nat) (t : Tensor β) :
    t.withAxis.vectors? n = if t.shape = [n, 3] then some (Tensor.triples t.entries) else none := by
  unfold Tensor.withAxis Tensor.vectors?
  by_cases hscalar : t.shape = []
  · simp [hscalar, Tensor.row]
  · rw [if_neg hscalar]

/-- A number in place of a row is a row of one entry. -/
theorem entries_withAxis (t : Tensor β) : t.withAxis.entries = t.entries := by
  unfold Tensor.withAxis
  split
  · rfl
  · rfl

/-- An array that is a row has few enough axes. -/
theorem length_shape_le_of_withAxis {t : Tensor β} (h : t.withAxis.shape.length = 1) :
    t.shape.length ≤ Limits.axes := by
  have hone : 1 ≤ Limits.axes := by decide
  unfold Tensor.withAxis at h
  split at h
  · next hscalar => simp [hscalar]
  · omega

/-- So has a table. -/
theorem length_shape_le_of_table {t : Tensor β} {m n : Nat} (h : t.shape = [m, n]) :
    t.shape.length ≤ Limits.axes := by
  have htwo : 2 ≤ Limits.axes := by decide
  rw [h]
  exact htwo

end

section

variable {α : Type} [Scalar α] (a : Arrays α)

open Condition (check check_of_holds check_of_not_holds ite_eq_check_bind)

variable {a} in
/-- A condition on a single array, which is converted before it is checked. -/
theorem checkedAxes_bind {β γ : Type} {c : Condition} {t : Tensor β}
    {convert : Tensor β → Except (Fault α) γ} {value : γ} {fault : Fault α}
    (haxes : c.Holds a → t.shape.length ≤ Limits.axes)
    (hfault : c.fault a = Condition.refusal t fault)
    (hconvert : convert t = if c.Holds a then .ok value else .error fault) :
    (Limits.checkedAxes t >>= convert) = (check a c >>= fun _ => .ok value) := by
  by_cases hc : c.Holds a
  · rw [Limits.checkedAxes, if_pos (haxes hc), check_of_holds hc]
    exact hconvert.trans (if_pos hc)
  · rw [check_of_not_holds hc, hfault, Limits.checkedAxes, Condition.refusal]
    split
    · exact hconvert.trans (if_neg hc)
    · rfl

/-- The inverse masses, once their three conditions have been checked. -/
theorem checkedMasses_eq :
    checkedMasses a.inverseMasses = do
      check a .massRow
      check a .someAtom
      check a .massRange
      return a.inverseMasses.entries := by
  -- The first condition is about the array, the other two about the row that it turns out to be.
  have hrow : (Limits.checkedAxes a.inverseMasses >>= fun t =>
      if t.withAxis.shape.length = 1 then .ok t.withAxis.entries
      else .error (.massShape t.withAxis.shape)) =
      (check a .massRow >>= fun _ => .ok a.inverseMasses.entries) := by
    refine checkedAxes_bind length_shape_le_of_withAxis rfl ?_
    rw [entries_withAxis]
    rfl
  have hsplit : checkedMasses a.inverseMasses =
      ((Limits.checkedAxes a.inverseMasses >>= fun t =>
        if t.withAxis.shape.length = 1 then .ok t.withAxis.entries
        else .error (.massShape t.withAxis.shape)) >>= fun masses => do
          if masses.isEmpty then throw .noAtoms
          unless masses.all Scalar.isPositive do throw .massRange
          return masses) := by
    unfold checkedMasses
    rw [bind_assoc]
    congr 1
    funext t
    dsimp only
    split
    · rfl
    · rfl
  rw [hsplit, hrow, bind_assoc]
  congr 1
  funext _
  have hsome : ¬ a.inverseMasses.entries.isEmpty = true ↔ Condition.someAtom.Holds a := by
    rw [List.isEmpty_iff, ← ne_eq, ← List.length_pos_iff]
    rfl
  refine (ite_not _ _ _).symm.trans ((ite_eq_check_bind hsome rfl).trans ?_)
  congr 1
  funext _
  exact ite_eq_check_bind List.all_eq_true rfl

/-- The vectors of a column, once its condition has been checked. -/
theorem vectors_eq (c : Column) :
    vectors c.name a.size (a.column c) = do
      check a (.vectors c)
      return Tensor.triples (a.column c).entries := by
  refine checkedAxes_bind length_shape_le_of_table rfl ?_
  dsimp only
  rw [vectors?_withAxis]
  by_cases hcolumn : (Condition.vectors c).Holds a
  · have hshape : (a.column c).shape = [a.size, 3] := hcolumn
    rw [if_pos hcolumn, if_pos hshape]
    rfl
  · have hshape : ¬ (a.column c).shape = [a.size, 3] := hcolumn
    rw [if_neg hcolumn, if_neg hshape]
    rfl

/-- The matrix, once its condition has been checked. -/
theorem checkedMatrix_eq :
    checkedMatrix a.velocityScaling = do
      check a .matrix
      return a.velocityScaling :=
  checkedAxes_bind length_shape_le_of_table rfl rfl

/-- All groups that are given stand for groups that fit into 32 bits. -/
def HasShortGroups : Prop :=
  ∀ given ∈ a.groups.entries, ∃ g, given.group? = some g ∧
    -(Limits.shortBound : Int) ≤ g ∧ g < Limits.shortBound

/-- A number is read as the group that it stands for, if that fits into 32 bits. -/
theorem groupOf_eq_ok_iff {given : Number α} {g : Int} :
    Simulation.groupOf given = .ok g ↔
      given.group? = some g ∧ -(Limits.shortBound : Int) ≤ g ∧ g < Limits.shortBound := by
  have hchecked (n : Int) : Simulation.checkedGroup (α := α) n = .ok g ↔
      some n = some g ∧ -(Limits.shortBound : Int) ≤ g ∧ g < Limits.shortBound := by
    rw [Simulation.checkedGroup_eq_ok_iff, Option.some_inj, and_comm]
    refine and_congr_right fun heq => ?_
    rw [heq]
  cases given with
  | whole n => exact hchecked n
  | scalar x =>
    rw [Simulation.groupOf, Number.group?]
    cases Scalar.isNaN x with
    | true => simp
    | false =>
      cases Scalar.isFinite x with
      | true => exact hchecked _
      | false => simp

variable {a} in
/-- Groups that fit into 32 bits are read as the groups that they stand for. -/
theorem HasShortGroups.mapM_groupOf (h : a.HasShortGroups) :
    a.groups.entries.mapM Simulation.groupOf = .ok (a.groups.entries.filterMap Number.group?) := by
  rw [mapM_eq_ok_iff]
  unfold HasShortGroups at h
  generalize a.groups.entries = entries at h ⊢
  induction entries with
  | nil => exact .nil
  | cons given rest ih =>
    obtain ⟨⟨g, hg, hfits⟩, hrest⟩ := List.forall_mem_cons.mp h
    rw [List.filterMap_cons_some hg]
    exact .cons (groupOf_eq_ok_iff.mpr ⟨hg, hfits⟩) (ih hrest)

variable {a} in
/-- The groups, once their two conditions have been checked. -/
theorem HasShortGroups.checkedGroups_eq (h : a.HasShortGroups) :
    checkedGroups a.size a.couplings.length a.groups? = do
      check a .groupRow
      check a .groupRange
      return a.groups.entries.filterMap Number.group? := by
  have hrow : (Limits.checkedAxes a.groups >>= fun t => do
      let entries ← t.withAxis.entries.mapM Simulation.groupOf
      if t.withAxis.shape = [a.size] then .ok entries
      else .error (.arrayShape "group_indices" t.withAxis.shape a.size)) =
      (check a .groupRow >>= fun _ => .ok (a.groups.entries.filterMap Number.group?)) := by
    refine checkedAxes_bind (fun hshape => length_shape_le_of_withAxis ?_) rfl ?_
    · have hlength : a.groups.withAxis.shape = [a.size] := hshape
      rw [hlength]
      rfl
    · rw [entries_withAxis, h.mapM_groupOf]
      rfl
  have hsplit : checkedGroups a.size a.couplings.length a.groups? =
      ((Limits.checkedAxes a.groups >>= fun t => do
        let entries ← t.withAxis.entries.mapM Simulation.groupOf
        if t.withAxis.shape = [a.size] then .ok entries
        else .error (.arrayShape "group_indices" t.withAxis.shape a.size)) >>= fun entries => do
          unless entries.all fun g => decide (0 ≤ g ∧ g < a.couplings.length) do throw .missingGroup
          return entries) := by
    unfold checkedGroups
    rw [bind_assoc]
    congr 1
    funext t
    dsimp only
    rw [bind_assoc]
    congr 1
    funext entries
    split
    · rfl
    · rfl
  rw [hsplit, hrow, bind_assoc]
  congr 1
  funext _
  have hall : (a.groups.entries.filterMap Number.group?).all
      (fun g => decide (0 ≤ g ∧ g < a.couplings.length)) = true ↔
        Condition.groupRange.Holds a := by
    simp only [List.all_eq_true, List.mem_filterMap, decide_eq_true_eq, Condition.Holds,
      Option.mem_def]
    exact ⟨fun hg given hgiven g hstands => hg g ⟨given, hgiven, hstands⟩,
      fun hg g hstands => by
        obtain ⟨given, hgiven, hstands⟩ := hstands
        exact hg given hgiven g hstands⟩
  exact ite_eq_check_bind hall rfl

/-- The vectors that are given for a column. -/
def vectorsOf (c : Column) : List (Vec3 α) := Tensor.triples (a.column c).entries

/-- The simulation that arrays describe. -/
def simulation : Simulation α where
  atoms := (Simulation.zipAtoms (a.vectorsOf .startPositions) (a.vectorsOf .positions)
    (a.vectorsOf .startVelocities) (a.vectorsOf .velocities) (a.vectorsOf .forces)
    a.inverseMasses.entries (a.vectorsOf .inverseMassesPerAxis)).toArray
  timestep := a.timestep.nearest
  box := a.box
  velocityScaling := a.velocityScaling
  thermostat := a.thermostat
  barostat := a.barostat
  couplings := a.couplings
  groups := (a.groups.entries.filterMap Number.group?).toArray
  scratch := .single
  step := 0
  time := Scalar.ofInt 0

variable {a} in
/-- Arrays are accepted as the simulation that they describe, once all conditions have been
checked in order. -/
theorem HasShortGroups.ofArrays_eq (h : a.HasShortGroups) :
    Simulation.ofArrays a = (forM Condition.all (check a) >>= fun _ => .ok a.simulation) := by
  have hx0 := a.vectors_eq .startPositions
  have hx := a.vectors_eq .positions
  have hv0 := a.vectors_eq .startVelocities
  have hv := a.vectors_eq .velocities
  have hf := a.vectors_eq .forces
  have hm := a.vectors_eq .inverseMassesPerAxis
  have hgroups := h.checkedGroups_eq
  simp only [Column.name, column, size] at hx0 hx hv0 hv hf hm hgroups
  unfold Simulation.ofArrays Condition.all
  simp only [checkedMasses_eq, hx0, hx, hv0, hv, hf, hm, checkedMatrix_eq, hgroups, List.forM_cons,
    List.forM_nil, bind_assoc, pure_bind]
  -- What is left is the timestep, which comes with the proof of its condition.
  refine bind_congr fun _ => bind_congr fun _ => bind_congr fun _ => ?_
  rw [Number.timestep_eq]
  by_cases hword : a.timestep.FitsWord
  · rw [if_neg (not_not.mpr hword)]
    by_cases hpositive : Scalar.isPositive a.timestep.nearest = true
    · have htimestep : Condition.timestep.Holds a := ⟨hword, hpositive⟩
      rw [check_of_holds htimestep, dif_pos hpositive]
      rfl
    · have htimestep : ¬ Condition.timestep.Holds a := fun h => hpositive h.2
      rw [check_of_not_holds htimestep, dif_neg hpositive, Condition.fault, if_pos hword]
      rfl
  · have htimestep : ¬ Condition.timestep.Holds a := fun h => hword h.1
    rw [check_of_not_holds htimestep, if_pos hword, Condition.fault, if_neg hword]
    rfl

variable {a}

/-- Arrays are accepted exactly if they meet all conditions, as the simulation that they describe. -/
theorem HasShortGroups.ofArrays_eq_ok_iff (h : a.HasShortGroups) {s : Simulation α} :
    Simulation.ofArrays a = .ok s ↔ (∀ c : Condition, c.Holds a) ∧ s = a.simulation := by
  rw [h.ofArrays_eq, bind_eq_ok_iff, ← Condition.forM_check_eq_ok_iff]
  constructor
  · intro haccepted
    obtain ⟨_, hchecks, hs⟩ := haccepted
    exact ⟨hchecks, (Except.ok.inj hs).symm⟩
  · intro haccepted
    obtain ⟨hchecks, rfl⟩ := haccepted
    exact ⟨(), hchecks, rfl⟩

/-- The inverse masses that are accepted are the ones that are given. -/
theorem eq_entries_of_checkedMasses {masses : List α}
    (h : checkedMasses a.inverseMasses = .ok masses) : masses = a.inverseMasses.entries := by
  rw [checkedMasses_eq] at h
  simp only [bind_eq_ok_iff] at h
  obtain ⟨_, -, _, -, _, -, h⟩ := h
  exact (Except.ok.inj h).symm

/-- Arrays are accepted only if their groups fit into 32 bits. -/
theorem hasShortGroups_of_ofArrays {s : Simulation α} (h : Simulation.ofArrays a = .ok s) :
    a.HasShortGroups := by
  unfold Simulation.ofArrays at h
  simp only [bind_eq_ok_iff] at h
  obtain ⟨masses, hmasses, _, -, _, -, _, -, _, -, _, -, _, -, _, -, _, -, groups, hgroups, -⟩ := h
  obtain rfl := eq_entries_of_checkedMasses hmasses
  unfold checkedGroups Limits.checkedAxes at hgroups
  obtain ⟨t, ht, hgroups⟩ := bind_eq_ok_iff.mp hgroups
  obtain ⟨entries, hentries, -⟩ := bind_eq_ok_iff.mp hgroups
  split at ht
  · obtain rfl := Except.ok.inj ht
    rw [entries_withAxis, mapM_eq_ok_iff] at hentries
    intro given hgiven
    obtain ⟨g, -, hg⟩ := exists_answer_mem hentries hgiven
    exact ⟨g, groupOf_eq_ok_iff.mp hg⟩
  · cases ht

end

end Arrays

end Leapfrog
