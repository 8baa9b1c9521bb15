import Leapfrog.Proofs.Advance
import Leapfrog.Reference
import Mathlib.Algebra.Field.Rat
import Mathlib.Tactic.LinearCombination
import Mathlib.Tactic.Ring

/-!
# The reference as a flow

In exact arithmetic the motion under a constant force is a flow: where an atom is after one time and
then another is where it is after both times together. The position after the second time contains
the velocity after the first, so this ties the two formulas to each other. Every component moves on
its own, so rows of components flow as well, and so does the reference of a simulation that is
restarted from where it should be after some of its steps.
-/

namespace Leapfrog

/-- Exact arithmetic: whole numbers are themselves, one divided by two is a half, a square is a
product, and every number is finite. -/
class Scalar.IsExact (K : Type) [CommRing K] [Div K] [Scalar K] : Prop where
  ofInt_eq (n : ℤ) : (Scalar.ofInt n : K) = n
  half_add_half : (Scalar.ofInt 1 / Scalar.ofInt 2 + Scalar.ofInt 1 / Scalar.ofInt 2 : K) = 1
  square_eq (a : K) : Scalar.square a = a * a
  isFinite_eq (a : K) : Scalar.isFinite a = true

instance : Scalar.IsExact ℚ where
  ofInt_eq _ := rfl
  half_add_half := by decide +kernel
  square_eq _ := rfl
  isFinite_eq _ := rfl

section

variable {β γ δ σ τ : Type} {as : List β} {bs : List γ} {cs : List δ}

/-- The first of three lists side by side. -/
theorem map_fst_fst_zip (hb : as.length = bs.length) (hc : as.length = cs.length) :
    ((as.zip bs).zip cs).map (fun e => e.1.1) = as := by
  have hpairs : ((as.zip bs).zip cs).map Prod.fst = as.zip bs := List.map_fst_zip (by simp; omega)
  calc ((as.zip bs).zip cs).map (fun e => e.1.1)
      = (((as.zip bs).zip cs).map Prod.fst).map Prod.fst := by rw [List.map_map]; rfl
    _ = as := by rw [hpairs, List.map_fst_zip hb.le]

/-- The second of three lists side by side. -/
theorem map_snd_fst_zip (hb : as.length = bs.length) (hc : as.length = cs.length) :
    ((as.zip bs).zip cs).map (fun e => e.1.2) = bs := by
  have hpairs : ((as.zip bs).zip cs).map Prod.fst = as.zip bs := List.map_fst_zip (by simp; omega)
  calc ((as.zip bs).zip cs).map (fun e => e.1.2)
      = (((as.zip bs).zip cs).map Prod.fst).map Prod.snd := by rw [List.map_map]; rfl
    _ = bs := by rw [hpairs, List.map_snd_zip hb.ge]

/-- Three lists side by side keep their third one while the others are replaced entry by entry. -/
theorem zip_map_zip (f : (β × γ) × δ → σ) (g : (β × γ) × δ → τ) (hb : as.length = bs.length)
    (hc : as.length = cs.length) :
    ((((as.zip bs).zip cs).map f).zip (((as.zip bs).zip cs).map g)).zip cs =
      ((as.zip bs).zip cs).map fun e => ((f e, g e), e.2) := by
  have hthird : ((as.zip bs).zip cs).map Prod.snd = cs := List.map_snd_zip (by simp; omega)
  rw [List.zip_map']
  calc (((as.zip bs).zip cs).map fun e => (f e, g e)).zip cs
      = (((as.zip bs).zip cs).map fun e => (f e, g e)).zip (((as.zip bs).zip cs).map Prod.snd) := by
        rw [hthird]
    _ = ((as.zip bs).zip cs).map fun e => ((f e, g e), e.2) := List.zip_map' ..

end

namespace Reference

variable {α : Type} {n width : ℕ} {xs vs fs : List (List α)} {ms : Tensor α}

/-- A row of positions and one of velocities, with the row of forces and the inverse mass. -/
abbrev Row (α : Type) : Type := (List α × List α) × (List α × α)

/-- The rows of some arrays side by side. -/
def table (xs vs fs : List (List α)) (ms : Tensor α) : List (Row α) :=
  (xs.zip vs).zip (fs.zip ms.entries)

/-- Arrays of matching shapes: rows of positions, velocities and forces with the same number of
components, and an inverse mass for each row. -/
structure Matching (n width : ℕ) (xs vs fs : List (List α)) (ms : Tensor α) : Prop where
  positions : xs.length = n ∧ ∀ row ∈ xs, row.length = width
  velocities : vs.length = n ∧ ∀ row ∈ vs, row.length = width
  forces : fs.length = n ∧ ∀ row ∈ fs, row.length = width
  masses : ms.shape = [n]

/-- A row with a number of positions and as many velocities and forces. -/
structure Row.HasWidth (width : ℕ) (row : Row α) : Prop where
  positions : row.1.1.length = width
  velocities : row.1.2.length = width
  forces : row.2.1.length = width

namespace Row

variable {row : Row α}

/-- A quantity that is computed for every component of a row. -/
def along (component : α → α → α → α → α) (row : Row α) : List α :=
  ((row.1.1.zip row.1.2).zip row.2.1).map fun e => component e.1.1 e.1.2 e.2 row.2.2

/-- A quantity has as many components as the row. -/
theorem HasWidth.length_along (h : row.HasWidth width) (component : α → α → α → α → α) :
    (along component row).length = width := by
  simp [along, h.positions, h.velocities, h.forces]

/-- The positions of a row, component by component. -/
theorem HasWidth.along_positions (h : row.HasWidth width) :
    along (fun x _ _ _ => x) row = row.1.1 :=
  map_fst_fst_zip (h.positions.trans h.velocities.symm) (h.positions.trans h.forces.symm)

/-- The velocities of a row, component by component. -/
theorem HasWidth.along_velocities (h : row.HasWidth width) :
    along (fun _ v _ _ => v) row = row.1.2 :=
  map_snd_fst_zip (h.positions.trans h.velocities.symm) (h.positions.trans h.forces.symm)

/-- A quantity that is computed from two others is computed from their components. -/
theorem HasWidth.along_along (h : row.HasWidth width) (x v component : α → α → α → α → α) :
    along component ((along x row, along v row), row.2) =
      along (fun p q f m => component (x p q f m) (v p q f m) f m) row := by
  unfold along
  rw [zip_map_zip _ _ (h.positions.trans h.velocities.symm) (h.positions.trans h.forces.symm),
    List.map_map]
  rfl

end Row

namespace Matching

/-- There is an inverse mass beside every row of forces. -/
theorem length_zip (h : Matching n width xs vs fs ms) : (fs.zip ms.entries).length = n := by
  have hentries : ms.entries.length = n := by
    rw [ms.length_entries, h.masses]
    simp
  rw [List.length_zip, hentries, h.forces.1, Nat.min_self]

/-- There are as many rows side by side. -/
theorem length_table (h : Matching n width xs vs fs ms) : (table xs vs fs ms).length = n := by
  rw [table, List.length_zip, List.length_zip, h.length_zip, h.positions.1, h.velocities.1,
    Nat.min_self, Nat.min_self]

/-- All rows side by side have the same width. -/
theorem hasWidth (h : Matching n width xs vs fs ms) {row : Row α} (hrow : row ∈ table xs vs fs ms) :
    row.HasWidth width := by
  obtain ⟨⟨x, v⟩, ⟨f, m⟩⟩ := row
  obtain ⟨hstart, hpush⟩ := List.of_mem_zip hrow
  obtain ⟨hx, hv⟩ := List.of_mem_zip hstart
  obtain ⟨hf, -⟩ := List.of_mem_zip hpush
  exact ⟨h.positions.2 x hx, h.velocities.2 v hv, h.forces.2 f hf⟩

/-- The first column of the rows side by side. -/
theorem positions_table (h : Matching n width xs vs fs ms) :
    (table xs vs fs ms).map (fun row => row.1.1) = xs :=
  map_fst_fst_zip (h.positions.1.trans h.velocities.1.symm) (h.positions.1.trans h.length_zip.symm)

/-- The second column of the rows side by side. -/
theorem velocities_table (h : Matching n width xs vs fs ms) :
    (table xs vs fs ms).map (fun row => row.1.2) = vs :=
  map_snd_fst_zip (h.positions.1.trans h.velocities.1.symm) (h.positions.1.trans h.length_zip.symm)

/-- Where the positions and velocities of all rows are replaced, the rest stays as it is. -/
theorem table_map (h : Matching n width xs vs fs ms) (x v : Row α → List α) :
    table ((table xs vs fs ms).map x) ((table xs vs fs ms).map v) fs ms =
      (table xs vs fs ms).map fun row => ((x row, v row), row.2) :=
  zip_map_zip x v (h.positions.1.trans h.velocities.1.symm) (h.positions.1.trans h.length_zip.symm)

end Matching

end Reference

section

variable {α : Type}

/-- How the atoms of a simulation started. -/
def Simulation.starts (s : Simulation α) : List (Reference.Start α) :=
  s.atoms.toList.map Reference.Start.ofAtom

/-- A simulation that starts where the atoms of another one should be. -/
def Simulation.restarted (s : Simulation α) (r : Reference α) : Simulation α :=
  { s with
    atoms := s.atoms.mapIdx fun i a =>
      { a with
        startPosition := r.positions[i]?.getD a.startPosition
        startVelocity := r.velocities[i]?.getD a.startVelocity } }

/-- Where the atoms of a simulation should be after some pieces of a run. After each piece, the
simulation is restarted from where its atoms should be by then. -/
def Reference.inPieces [Add α] [Mul α] [Div α] [Scalar α] :
    List ℕ → Simulation α → Except (Fault α) (Reference α)
  | [], s => ofSimulation s (.whole 0)
  | n :: rest, s => do inPieces rest (s.restarted (← ofSimulation s (.whole n)))

end

namespace Reference

variable {K : Type} [CommRing K]

/-- No time leaves a velocity as it was. -/
theorem velocity_zero (v f m : K) : velocity v f m 0 = v := by
  simp [velocity]

/-- The velocity after one time and then another is the one after both. -/
theorem velocity_add (v f m S T : K) :
    velocity (velocity v f m S) f m T = velocity v f m (S + T) := by
  simp only [velocity]
  ring

variable [Div K] [Scalar K]

/-- No time leaves a position where it was. -/
theorem position_zero (x v f m : K) : position x v f m 0 (0 * 0) = x := by
  simp [position]

/-- A row after a time. -/
def Row.after (time : K) (row : Row K) : Row K :=
  ((along (fun x v f m => position x v f m time (time * time)) row,
    along (fun _ v f m => velocity v f m time) row), row.2)

/-- The start of an atom that is where it would be after a time. -/
def Start.after (time : K) (s : Start K) : Start K :=
  { s with
    position := s.positionAt time (time * time)
    velocity := s.velocityAt time }

variable {n width : ℕ} {row : Row K} {xs vs fs : List (List K)} {ms : Tensor K}

/-- A row keeps its width. -/
theorem Row.HasWidth.hasWidth_after (h : row.HasWidth width) (time : K) :
    (row.after time).HasWidth width where
  positions := by simp only [Row.after, h.length_along]
  velocities := by simp only [Row.after, h.length_along]
  forces := h.forces

/-- No time leaves a row as it was. -/
theorem Row.HasWidth.after_zero (h : row.HasWidth width) : row.after 0 = row := by
  simp only [Row.after, position_zero, velocity_zero, h.along_positions, h.along_velocities]

/-- Arrays that have moved still match. -/
theorem Matching.moved (h : Matching n width xs vs fs ms) (time : K) :
    Matching n width ((table xs vs fs ms).map fun row => (row.after time).1.1)
      ((table xs vs fs ms).map fun row => (row.after time).1.2) fs ms := by
  have hwidth : ∀ row ∈ table xs vs fs ms, (row.after time).HasWidth width :=
    fun row hrow => (h.hasWidth hrow).hasWidth_after time
  refine ⟨⟨?_, ?_⟩, ⟨?_, ?_⟩, h.forces, h.masses⟩
  · rw [List.length_map, h.length_table]
  · exact List.forall_mem_map.mpr fun row hrow => (hwidth row hrow).positions
  · rw [List.length_map, h.length_table]
  · exact List.forall_mem_map.mpr fun row hrow => (hwidth row hrow).velocities

variable [Scalar.IsExact K]

/-- The square of an exact time is never too large. -/
theorem square_eq_ok (time : K) : square time = .ok (time * time) := by
  simp [square, Scalar.IsExact.isFinite_eq, Scalar.IsExact.square_eq]

/-- Arrays that match move row by row. -/
theorem Matching.ofRows_eq (h : Matching n width xs vs fs ms) (time : K) :
    ofRows xs vs fs ms time = .ok ((table xs vs fs ms).map (fun row => (row.after time).1.1),
      (table xs vs fs ms).map (fun row => (row.after time).1.2)) := by
  have haxes : ms.shape.length = 1 := by rw [h.masses]; rfl
  rw [ofRows, haxes, square_eq_ok]
  rfl

/-- Every row has its place among the rows that have moved. -/
theorem Matching.exists_ofRows (h : Matching n width xs vs fs ms) (time : K) :
    ∃ xs' vs', ofRows xs vs fs ms time = .ok (xs', vs') ∧ Matching n width xs' vs' fs ms ∧
      ∀ (i : ℕ) row, (table xs vs fs ms)[i]? = some row →
        xs'[i]? = some (row.after time).1.1 ∧ vs'[i]? = some (row.after time).1.2 := by
  refine ⟨_, _, h.ofRows_eq time, h.moved time, fun i row hrow => ?_⟩
  rw [List.getElem?_map, List.getElem?_map, hrow]
  exact ⟨rfl, rfl⟩

/-- At no time, arrays that match are where they start. -/
theorem Matching.ofRows_zero (h : Matching n width xs vs fs ms) :
    ofRows xs vs fs ms 0 = .ok (xs, vs) := by
  have hzero : ∀ row ∈ table xs vs fs ms, row.after 0 = row :=
    fun row hrow => (h.hasWidth hrow).after_zero
  have hpositions : (table xs vs fs ms).map (fun row => (row.after 0).1.1) = xs := by
    conv_rhs => rw [← h.positions_table]
    exact List.map_congr_left fun row hrow => by rw [hzero row hrow]
  have hvelocities : (table xs vs fs ms).map (fun row => (row.after 0).1.2) = vs := by
    conv_rhs => rw [← h.velocities_table]
    exact List.map_congr_left fun row hrow => by rw [hzero row hrow]
  rw [h.ofRows_eq, hpositions, hvelocities]

/-- Starts always have a reference, which is where they are after the time. -/
theorem motion_eq_ok (starts : List (Start K)) (time : K) :
    motion starts time = .ok ⟨starts.map fun s => (s.after time).position,
      starts.map fun s => (s.after time).velocity, time⟩ := by
  rw [motion, square_eq_ok]
  rfl

/-- Every start has its place in the reference. -/
theorem exists_motion (starts : List (Start K)) (time : K) :
    ∃ r, motion starts time = .ok r ∧ ∀ (i : ℕ) s, starts[i]? = some s →
      r.positions[i]? = some (s.after time).position ∧
      r.velocities[i]? = some (s.after time).velocity := by
  refine ⟨_, motion_eq_ok starts time, fun i s hs => ?_⟩
  rw [List.getElem?_map, List.getElem?_map, hs]
  exact ⟨rfl, rfl⟩

/-- The reference of a simulation after a number of steps is the motion of its starts. -/
theorem ofSimulation_whole (s : Simulation K) (n : ℕ) :
    ofSimulation s (.whole n) = motion s.starts (n * s.timestep) := by
  have htimes : (Number.whole n).times s.timestep = .ok (n * s.timestep) := by
    rw [Number.times_whole (Scalar.IsExact.isFinite_eq _), Scalar.IsExact.ofInt_eq,
      Int.cast_natCast]
  rw [ofSimulation, Number.isNegative_whole, htimes]
  rfl

/-- A simulation that is restarted after some steps starts where its atoms should be by then. -/
theorem starts_restarted (s : Simulation K) {r : Reference K}
    (h : ofSimulation s (.whole n) = .ok r) :
    (s.restarted r).starts = s.starts.map (Start.after (n * s.timestep)) := by
  rw [ofSimulation_whole, motion_eq_ok] at h
  obtain rfl := Except.ok.inj h
  apply List.ext_getElem?
  intro i
  simp only [Simulation.starts, Simulation.restarted, List.getElem?_map, Array.getElem?_toList,
    Array.getElem?_mapIdx]
  cases s.atoms[i]? <;> simp [Start.ofAtom, Start.after]

/-- The position after one time and then another, with the velocity after the first one, is the one
after both. -/
theorem position_add (x v f m S T : K) :
    position (position x v f m S (S * S)) (velocity v f m S) f m T (T * T) =
      position x v f m (S + T) ((S + T) * (S + T)) := by
  -- What the first time adds to the velocity is the mixed term of the square.
  simp only [position, velocity]
  linear_combination (-f * S * T * m) * Scalar.IsExact.half_add_half (K := K)

/-- A row after one time and then another is the row after both. -/
theorem Row.HasWidth.after_after (h : row.HasWidth width) (S T : K) :
    (row.after S).after T = row.after (S + T) := by
  simp only [Row.after, h.along_along, position_add, velocity_add]

/-- A start after one time and then another is the start after both. -/
theorem Start.after_after (s : Start K) (S T : K) : (s.after S).after T = s.after (S + T) := by
  simp only [Start.after, Start.positionAt, Start.velocityAt, Vec3.get, position_add, velocity_add]

/-- Arrays that move for one time and then for another have moved for both. -/
theorem Matching.ofRows_add (h : Matching n width xs vs fs ms) (S T : K) :
    ofRows ((table xs vs fs ms).map fun row => (row.after S).1.1)
        ((table xs vs fs ms).map fun row => (row.after S).1.2) fs ms T =
      ofRows xs vs fs ms (S + T) := by
  have hafter : ∀ row ∈ table xs vs fs ms, (row.after S).after T = row.after (S + T) :=
    fun row hrow => (h.hasWidth hrow).after_after S T
  rw [(h.moved S).ofRows_eq, h.ofRows_eq, h.table_map, List.map_map, List.map_map]
  refine congrArg Except.ok (Prod.ext ?_ ?_)
  · exact List.map_congr_left fun row hrow => congrArg (fun row => row.1.1) (hafter row hrow)
  · exact List.map_congr_left fun row hrow => congrArg (fun row => row.1.2) (hafter row hrow)

/-- Pieces of a run, each of which is restarted from where the one before has ended, end where the
whole run does. -/
theorem inPieces_eq_ok (s : Simulation K) (pieces : List ℕ) :
    ∃ split, inPieces pieces s = .ok split ∧
      split.positions =
        s.starts.map (fun start => (start.after (pieces.sum * s.timestep)).position) ∧
      split.velocities =
        s.starts.map (fun start => (start.after (pieces.sum * s.timestep)).velocity) := by
  induction pieces generalizing s with
  | nil => exact ⟨_, (ofSimulation_whole s 0).trans (motion_eq_ok _ _), rfl, rfl⟩
  | cons n rest ih =>
    have hfirst := (ofSimulation_whole s n).trans (motion_eq_ok _ _)
    obtain ⟨split, hsplit, hpositions, hvelocities⟩ := ih (s.restarted _)
    have htime : n * s.timestep + rest.sum * s.timestep = (n :: rest).sum * s.timestep := by
      rw [List.sum_cons, Nat.cast_add, add_mul]
    refine ⟨split, ?_, ?_, ?_⟩
    · rw [inPieces, hfirst]
      exact hsplit
    · rw [hpositions, starts_restarted s hfirst, List.map_map, ← htime]
      exact List.map_congr_left fun start _ => congrArg Start.position (start.after_after _ _)
    · rw [hvelocities, starts_restarted s hfirst, List.map_map, ← htime]
      exact List.map_congr_left fun start _ => congrArg Start.velocity (start.after_after _ _)

end Reference

/-- The reference is a flow. Arrays of matching shapes are where they start at time zero. Fed back
as new starts, what they are at a time moves on as if both times had been one, so that the opposite
time leads back. The reference of a simulation is therefore the same after a run as after its
pieces, however the steps are divided. -/
theorem reference_is_flow {K : Type} [CommRing K] [Div K] [Scalar K] [Scalar.IsExact K] :
    (∀ (n width : ℕ) (xs vs fs : List (List K)) (ms : Tensor K),
      Reference.Matching n width xs vs fs ms →
        Reference.ofRows xs vs fs ms 0 = .ok (xs, vs) ∧
        ∀ S, ∃ xS vS, Reference.ofRows xs vs fs ms S = .ok (xS, vS) ∧
          Reference.Matching n width xS vS fs ms ∧
          (∀ T, Reference.ofRows xS vS fs ms T = Reference.ofRows xs vs fs ms (S + T)) ∧
          Reference.ofRows xS vS fs ms (-S) = .ok (xs, vs)) ∧
    ∀ (s : Simulation K) (pieces : List ℕ), ∃ split whole,
      Reference.inPieces pieces s = .ok split ∧
      Reference.ofSimulation s (.whole pieces.sum) = .ok whole ∧
      split.positions = whole.positions ∧ split.velocities = whole.velocities := by
  constructor
  · intro n width xs vs fs ms h
    refine ⟨h.ofRows_zero, fun S => ⟨_, _, h.ofRows_eq S, h.moved S, h.ofRows_add S, ?_⟩⟩
    rw [h.ofRows_add, add_neg_cancel, h.ofRows_zero]
  · intro s pieces
    obtain ⟨split, hsplit, hpositions, hvelocities⟩ := Reference.inPieces_eq_ok s pieces
    have hwhole := (Reference.ofSimulation_whole s pieces.sum).trans (Reference.motion_eq_ok _ _)
    exact ⟨split, _, hsplit, hwhole, hpositions, hvelocities⟩

/-- An atom on a parabola along one axis, at three and back again, and two sheared atoms, whose
reference after three steps is that of one step, none and two. -/
theorem reference_is_flow_parabola :
    (Reference.Matching 1 1 [[0]] [[1]] [[2]] (.row [(1 / 2 : ℚ)]) ∧
      Reference.ofRows [[0]] [[1]] [[2]] (.row [(1 / 2 : ℚ)]) 3 = .ok ([[15 / 2]], [[4]]) ∧
      Reference.ofRows [[15 / 2]] [[4]] [[2]] (.row [(1 / 2 : ℚ)]) (-3) = .ok ([[0]], [[1]])) ∧
    ∃ split whole, Reference.inPieces [1, 0, 2] Simulation.sheared = .ok split ∧
      Reference.ofSimulation Simulation.sheared (.whole 3) = .ok whole ∧
      split.positions = whole.positions ∧ split.velocities = whole.velocities := by
  obtain ⟨harrays, hpieces⟩ := reference_is_flow (K := ℚ)
  have hmatching : Reference.Matching 1 1 [[0]] [[1]] [[2]] (.row [(1 / 2 : ℚ)]) := by
    refine ⟨?_, ?_, ?_, rfl⟩ <;> simp
  have hthree : Reference.ofRows [[0]] [[1]] [[2]] (.row [(1 / 2 : ℚ)]) 3 =
      .ok ([[15 / 2]], [[4]]) := by decide +kernel
  obtain ⟨-, hflow⟩ := harrays 1 1 [[0]] [[1]] [[2]] (.row [1 / 2]) hmatching
  obtain ⟨xS, vS, hS, -, -, hback⟩ := hflow 3
  obtain ⟨rfl, rfl⟩ := Prod.mk.inj (Except.ok.inj (hS.symm.trans hthree))
  exact ⟨⟨hmatching, hthree, hback⟩, hpieces .sheared [1, 0, 2]⟩

end Leapfrog
