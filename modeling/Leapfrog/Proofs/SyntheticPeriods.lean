import Leapfrog.Proofs.SmallerSystems
import Mathlib.Data.Nat.ModEq

/-!
# Periods of a synthetic system

The coordinates along x and y repeat with periods of their own. Since the periods are coprime, two
atoms have the same position exactly if their numbers differ by a multiple of the product. Together
with the period of the masses, which is coprime to both, that says when two atoms are the same. What
a run finds for an atom depends on nothing but the atom, so that it finds the same for the same
atoms.
-/

namespace Leapfrog

/-- A double with an exact value between two bounds. In particular it is finite. -/
def IsBetween (lower upper : ℚ) (x : Float) : Prop :=
  ∃ q ∈ (Number.scalar x).value?, lower ≤ q ∧ q ≤ upper

instance (lower upper : ℚ) (x : Float) : Decidable (IsBetween lower upper x) :=
  inferInstanceAs (Decidable (∃ q ∈ (Number.scalar x).value?, lower ≤ q ∧ q ≤ upper))

/-- What lies between two bounds is finite. -/
theorem IsBetween.isFinite {lower upper : ℚ} {x : Float} (h : IsBetween lower upper x) :
    x.isFinite = true := by
  obtain ⟨q, hq, -⟩ := h
  exact Decimal.Binary64.isFinite_of_value? hq

/-- A function with a period that has no value twice within it has as many values below a number as
there are numbers, but not more than the period. -/
theorem card_image_of_period {β : Type} [DecidableEq β] {f : ℕ → β} {period : ℕ}
    (hpos : 0 < period) (hperiod : ∀ i j, f i = f j ↔ i ≡ j [MOD period]) (n : ℕ) :
    ((Finset.range n).image f).card = min n period := by
  have hresidues : (Finset.range n).image f = (Finset.range (min n period)).image f := by
    ext y
    simp only [Finset.mem_image, Finset.mem_range]
    constructor
    · intro h
      obtain ⟨i, hi, rfl⟩ := h
      have hlt := Nat.mod_lt i hpos
      have hle := Nat.mod_le i period
      exact ⟨i % period, by omega, (hperiod _ _).mpr (Nat.mod_modEq i period)⟩
    · intro h
      obtain ⟨i, hi, rfl⟩ := h
      exact ⟨i, by omega, rfl⟩
  have hinjective : Set.InjOn f (Finset.range (min n period)) := by
    intro i hi j hj heq
    rw [Finset.coe_range, Set.mem_Iio] at hi hj
    exact Nat.ModEq.eq_of_lt_of_lt ((hperiod i j).mp heq) (by omega) (by omega)
  rw [hresidues, Finset.card_image_of_injOn hinjective, Finset.card_range]

/-- A list has a period: entries are equal exactly if they stand a multiple of the period apart. -/
def HasPeriod {β : Type} (period : ℕ) (xs : List β) : Prop :=
  ∀ (i j : ℕ) (x y : β), xs[i]? = some x → xs[j]? = some y → (x = y ↔ i ≡ j [MOD period])

/-- What stands at a position of a list of values. -/
theorem eq_of_getElem?_map_range {β : Type} {f : ℕ → β} {n i : ℕ} {x : β}
    (h : ((List.range n).map f)[i]? = some x) : f i = x := by
  obtain ⟨hi, h⟩ := List.getElem?_eq_some_iff.mp h
  rwa [List.getElem_map, List.getElem_range] at h

/-- The values of a function with a period. -/
theorem hasPeriod_map_range {β : Type} {f : ℕ → β} {period : ℕ}
    (hperiod : ∀ i j, f i = f j ↔ i ≡ j [MOD period]) (n : ℕ) :
    HasPeriod period ((List.range n).map f) := by
  intro i j x y hx hy
  obtain rfl := eq_of_getElem?_map_range hx
  obtain rfl := eq_of_getElem?_map_range hy
  exact hperiod i j

namespace Synthetic

/-- Where two atoms have the same position. -/
theorem position_eq_iff (i j : ℕ) :
    (position i : Vec3 Float) = position j ↔ i ≡ j [MOD columns * rows] := by
  have hcoprime : columns.Coprime rows := by decide
  rw [← Nat.modEq_and_modEq_iff_modEq_mul hcoprime]
  constructor
  · intro h
    have hcolumns : ∀ k < columns, ∀ l < columns,
        (Scalar.ofInt (k : ℕ) : Float) = Scalar.ofInt (l : ℕ) → k = l := by
      decide +kernel
    have hrows : ∀ k < rows, ∀ l < rows,
        (Scalar.ofInt rows / Scalar.ofInt 2 - Scalar.ofInt (k : ℕ) : Float) =
          Scalar.ofInt rows / Scalar.ofInt 2 - Scalar.ofInt (l : ℕ) → k = l := by
      decide +kernel
    exact ⟨hcolumns _ (Nat.mod_lt i (by decide)) _ (Nat.mod_lt j (by decide)) (congrArg Vec3.x h),
      hrows _ (Nat.mod_lt i (by decide)) _ (Nat.mod_lt j (by decide)) (congrArg Vec3.y h)⟩
  · intro h
    have hcolumns : i % columns = j % columns := h.1
    have hrows : i % rows = j % rows := h.2
    rw [position, position, hcolumns, hrows]

/-- Where two atoms have the same inverse mass. -/
theorem inverseMass_eq_iff (i j : ℕ) :
    (inverseMass i : Float) = inverseMass j ↔ i ≡ j [MOD masses] := by
  constructor
  · intro h
    -- The inverse masses decrease from one to the next, and so do the bits of positive doubles.
    have hdecreasing : ((List.range masses).map fun k =>
        (Scalar.ofInt 1 / Scalar.ofInt (1 + k : ℕ) : Float).toBits.toNat).IsChain (· > ·) := by
      decide +kernel
    have hnodup := (List.isChain_iff_pairwise.mp hdecreasing).imp ne_of_gt
    exact List.inj_on_of_nodup_map hnodup (List.mem_range.mpr (Nat.mod_lt i (by decide)))
      (List.mem_range.mpr (Nat.mod_lt j (by decide))) (congrArg (fun x => x.toBits.toNat) h)
  · intro h
    have hmasses : i % masses = j % masses := h
    rw [inverseMass, inverseMass, hmasses]

/-- Where two atoms have the same position and the same inverse mass. -/
theorem position_inverseMass_eq_iff (i j : ℕ) :
    ((position i : Vec3 Float), (inverseMass i : Float)) = (position j, inverseMass j) ↔
      i ≡ j [MOD columns * rows * masses] := by
  have hcoprime : (columns * rows).Coprime masses := by decide
  rw [← Nat.modEq_and_modEq_iff_modEq_mul hcoprime, ← position_eq_iff, ← inverseMass_eq_iff,
    Prod.mk.injEq]

variable (velocity force : Vec3 Float)

/-- Where two atoms are the same. Nothing else than the position and the inverse mass depends on the
number of an atom. -/
theorem atom_eq_iff (i j : ℕ) :
    atom velocity force i = atom velocity force j ↔ i ≡ j [MOD columns * rows * masses] := by
  rw [← position_inverseMass_eq_iff, Prod.mk.injEq]
  constructor
  · intro h
    exact ⟨congrArg Atom.position h, congrArg Atom.inverseMass h⟩
  · rintro ⟨hposition, hmass⟩
    rw [atom, atom, hposition, hmass]

/-- The atoms of a simulation in order. -/
theorem atoms_simulation (n : ℕ) (timestep : Float) :
    (simulation n timestep velocity force).atoms.toList =
      (List.range n).map (atom velocity force) := by
  apply List.ext_getElem?
  intro i
  rw [Array.getElem?_toList, getElem?_atoms]
  by_cases hi : i < n <;> simp [hi]

/-- Where the coordinates of an atom lie. -/
theorem isBetween_position (i : ℕ) :
    IsBetween 0 20 (position i : Vec3 Float).x ∧
      IsBetween (-11 / 2) (13 / 2) (position i : Vec3 Float).y ∧
      (position i : Vec3 Float).z = Scalar.ofInt 0 := by
  have hcolumns : ∀ k < columns, IsBetween 0 20 (Scalar.ofInt (k : ℕ)) := by
    decide +kernel
  have hrows : ∀ k < rows, IsBetween (-11 / 2) (13 / 2)
      (Scalar.ofInt rows / Scalar.ofInt 2 - Scalar.ofInt (k : ℕ)) := by
    decide +kernel
  exact ⟨hcolumns _ (Nat.mod_lt i (by decide)), hrows _ (Nat.mod_lt i (by decide)), rfl⟩

/-- Where the inverse mass of an atom lies. -/
theorem isBetween_inverseMass (i : ℕ) : IsBetween (1 / 100) 1 (inverseMass i) := by
  have hmasses : ∀ k < masses,
      IsBetween (1 / 100) 1 (Scalar.ofInt 1 / Scalar.ofInt (1 + k : ℕ)) := by
    decide +kernel
  exact hmasses _ (Nat.mod_lt i (by decide))

/-- There are positions of a number of atoms exactly if there is memory for them. -/
theorem positions_eq_ok_iff [Machine] {n : ℕ} {xs : List (Vec3 Float)} :
    positions n = .ok xs ↔ 24 * n ≤ Machine.memory ∧ xs = (List.range n).map position := by
  unfold positions
  rw [bind_eq_ok_iff]
  constructor
  · intro h
    obtain ⟨_, -, h⟩ := h
    obtain ⟨⟨⟩, harray, h⟩ := bind_eq_ok_iff.mp h
    exact ⟨Limits.array_eq_ok_iff.mp harray, (Except.ok.inj h).symm⟩
  · rintro ⟨hmemory, rfl⟩
    refine ⟨n, Limits.range_eq_ok (by omega) .whole, ?_⟩
    rw [Limits.array_eq_ok_iff.mpr hmemory]
    rfl

/-- The inverse masses of a number of atoms, as many as there are indices. -/
theorem inverseMasses_eq_ok_iff [Machine] {n : ℕ} {ms : List Float} :
    inverseMasses n = .ok ms ↔
      ∃ k, Limits.range (α := Float) .whole n = .ok k ∧ ms = (List.range k).map inverseMass := by
  unfold inverseMasses
  rw [bind_eq_ok_iff]
  exact exists_congr fun k => and_congr_right fun _ => ⟨fun h => (Except.ok.inj h).symm,
    fun h => congrArg Except.ok h.symm⟩

end Synthetic

namespace Scenario

variable (s : Scenario Float)

/-- The components of one atom, by the square of the time after all steps. -/
def componentsOf (squared : Float) (i : ℕ) : List (Component Float) :=
  (Axis.all.map fun axis => ⟨.position, i, axis, (s.atomAt i).position.get axis,
      ((s.startAt i).positionAt s.time squared).get axis⟩) ++
    Axis.all.map fun axis => ⟨.velocity, i, axis, (s.atomAt i).velocity.get axis,
      ((s.startAt i).velocityAt s.time).get axis⟩

/-- The components of one atom are found by its number. -/
theorem filter_componentsBelow_eq (squared : Float) {i n : ℕ} (hi : i < n) :
    (s.componentsBelow squared n).filter (fun c => decide (c.atom = i)) =
      s.componentsOf squared i := by
  have hfilter (q : Quantity) (actual expected : ℕ → Vec3 Float) :
      (Component.ofVectors q ((List.range n).map actual) ((List.range n).map expected)).filter
          (fun c => decide (c.atom = i)) =
        Axis.all.map fun axis => ⟨q, i, axis, (actual i).get axis, (expected i).get axis⟩ := by
    have hother : ∀ k ≠ i, (Axis.all.map fun axis => (⟨q, k, axis, (actual k).get axis,
        (expected k).get axis⟩ : Component Float)).filter (fun c => decide (c.atom = i)) = [] := by
      intro k hk
      simp [List.filter_eq_nil_iff, hk]
    have hsame : (Axis.all.map fun axis => (⟨q, i, axis, (actual i).get axis,
        (expected i).get axis⟩ : Component Float)).filter (fun c => decide (c.atom = i)) =
          Axis.all.map fun axis => ⟨q, i, axis, (actual i).get axis, (expected i).get axis⟩ := by
      simp [List.filter_eq_self]
    obtain ⟨k, rfl⟩ := Nat.exists_eq_add_of_lt hi
    rw [Component.ofVectors_map_range, List.filter_flatMap, Nat.add_right_comm, List.range_add,
      List.range_succ, List.flatMap_append, List.flatMap_append, List.flatMap_singleton, hsame,
      List.flatMap_eq_nil_iff.mpr fun l hl => hother l (by grind),
      List.flatMap_eq_nil_iff.mpr fun l hl => hother l (by grind), List.nil_append,
      List.append_nil]
  rw [componentsBelow, List.filter_append, hfilter, hfilter, componentsOf]

/-- The components of two atoms that are the same differ in the number of the atom only. -/
theorem componentsOf_of_atom_eq (squared : Float) {i j : ℕ}
    (h : Synthetic.atom s.velocity s.force i = Synthetic.atom s.velocity s.force j) :
    s.componentsOf squared j = (s.componentsOf squared i).map fun c => { c with atom := j } := by
  have hatom : s.atomAt i = s.atomAt j := by
    rw [atomAt, h, atomAt]
  have hstart : s.startAt i = s.startAt j := by
    rw [startAt, h, startAt]
  simp only [componentsOf, hatom, hstart, List.map_append, List.map_map, Function.comp_def]

/-- The mismatches of one atom are those of its components. -/
theorem filter_mismatches_eq {b : Backend Float} {tolerance : Tolerance Float} (squared : Float)
    {i : ℕ} (hi : i < s.atoms) :
    (s.resultOf b tolerance (s.componentsBelow squared s.atoms)).mismatches.filter
        (fun k => decide (k.atom = (i : ℤ))) =
      ((s.componentsOf squared i).filter
        (Component.misses (Scalar.ofInt s.steps * tolerance.epsilon))).map
          (Component.mismatch (Scalar.ofInt s.steps * tolerance.epsilon)) := by
  have hatom (bound : Float) : (fun k : Mismatch Float => decide (k.atom = (i : ℤ))) ∘
      Component.mismatch bound = fun c => decide (c.atom = i) := by
    funext c
    simp [Component.mismatch]
  simp only [resultOf, List.filter_map, hatom]
  rw [List.filter_comm, s.filter_componentsBelow_eq squared hi]

end Scenario

/-- A genuine backend finds the same for two atoms that are the same. -/
theorem Scenario.mismatches_of_atom_eq [Machine] {b : Backend Float} (hb : b.IsGenuine)
    {tolerance : Tolerance Float} {s : Scenario Float} {result : Result Float}
    (h : s.run b tolerance = .ok result) {i j : ℕ} (hi : i < s.atoms) (hj : j < s.atoms)
    (hatom : Synthetic.atom s.velocity s.force i = Synthetic.atom s.velocity s.force j) :
    result.mismatches.filter (fun k => decide (k.atom = (j : ℤ))) =
      (result.mismatches.filter (fun k => decide (k.atom = (i : ℤ)))).map fun k =>
        { k with atom := j } := by
  obtain ⟨-, -, squared, -, rfl⟩ := (run_eq_ok_iff_of_genuine hb).mp h
  rw [filter_mismatches_eq s squared hi, filter_mismatches_eq s squared hj,
    componentsOf_of_atom_eq s squared hatom, List.filter_map, List.map_map, List.map_map]
  rfl

/-- A synthetic system repeats itself after 27300 atoms and not before. Positions repeat after 273
atoms, so that as many of them are distinct, or all if there are fewer atoms; inverse masses repeat
after 100. Atoms are the same exactly if both are the same, and then a genuine backend finds the
same for them. All coordinates and inverse masses lie within bounds, and the first inverse mass is
the largest. -/
theorem synthetic_system_repeats [Machine] (n : ℕ) :
    (24 * n ≤ Machine.memory → (∃ xs, Synthetic.positions (α := Float) n = .ok xs) ∧
      ∃ ms : List Float, Synthetic.inverseMasses n = .ok ms ∧ ms.length = n) ∧
    (∀ xs : List (Vec3 Float), Synthetic.positions n = .ok xs →
      xs.length = n ∧ HasPeriod 273 xs ∧ xs.toFinset.card = min n 273 ∧
      ∀ x ∈ xs, IsBetween 0 20 x.x ∧ IsBetween (-11 / 2) (13 / 2) x.y ∧ x.z = Scalar.ofInt 0) ∧
    (∀ ms : List Float, Synthetic.inverseMasses n = .ok ms →
      HasPeriod 100 ms ∧ (∀ m ∈ ms, IsBetween (1 / 100) 1 m) ∧
      ∀ m, ms[0]? = some m → m = Scalar.ofInt 1) ∧
    (∀ (timestep : Float) (velocity force : Vec3 Float) (s : Simulation Float),
      Synthetic.fresh n timestep velocity force = .ok s →
      HasPeriod 27300 (s.atoms.toList.map fun a => (a.position, a.inverseMass)) ∧
      HasPeriod 27300 s.atoms.toList) ∧
    ∀ b : Backend Float, b.IsGenuine → ∀ (tolerance : Tolerance Float) (p : Scenario Float)
      (result : Result Float), p.atoms = n → p.run b tolerance = .ok result →
      ∀ i j : ℕ, i < n → j < n → i ≡ j [MOD 27300] →
        result.mismatches.filter (fun k => decide (k.atom = (j : ℤ))) =
          (result.mismatches.filter (fun k => decide (k.atom = (i : ℤ)))).map fun k =>
            { k with atom := j } := by
  refine ⟨fun hmemory => ⟨?_, ?_⟩, fun xs hxs => ?_, fun ms hms => ?_,
    fun timestep velocity force s hs => ?_, fun b hb tolerance p result hp hrun i j hi hj h => ?_⟩
  · exact ⟨_, Synthetic.positions_eq_ok_iff.mpr ⟨hmemory, rfl⟩⟩
  · exact ⟨_, Synthetic.inverseMasses_eq_ok_iff.mpr
      ⟨n, Limits.range_eq_ok (by omega) .whole, rfl⟩, by simp⟩
  · obtain ⟨-, rfl⟩ := Synthetic.positions_eq_ok_iff.mp hxs
    refine ⟨by simp, hasPeriod_map_range Synthetic.position_eq_iff n, ?_, ?_⟩
    · have hset : ((List.range n).map (Synthetic.position (α := Float))).toFinset =
          (Finset.range n).image Synthetic.position := by
        ext x
        simp
      rw [hset]
      exact card_image_of_period (by decide) Synthetic.position_eq_iff n
    · rw [List.forall_mem_map]
      exact fun i _ => Synthetic.isBetween_position i
  · obtain ⟨k, -, rfl⟩ := Synthetic.inverseMasses_eq_ok_iff.mp hms
    refine ⟨hasPeriod_map_range Synthetic.inverseMass_eq_iff k, ?_, fun m hm => ?_⟩
    · rw [List.forall_mem_map]
      exact fun i _ => Synthetic.isBetween_inverseMass i
    · obtain rfl := eq_of_getElem?_map_range hm
      decide +kernel
  · obtain ⟨⟨⟩, -, hs⟩ := bind_eq_ok_iff.mp hs
    obtain rfl := Except.ok.inj hs
    rw [Synthetic.atoms_simulation, List.map_map]
    exact ⟨hasPeriod_map_range Synthetic.position_inverseMass_eq_iff n,
      hasPeriod_map_range (Synthetic.atom_eq_iff velocity force) n⟩
  · subst hp
    exact Scenario.mismatches_of_atom_eq hb hrun hi hj ((Synthetic.atom_eq_iff _ _ i j).mpr h)

/-- As many atoms as it takes for two of them to be the same. -/
def Scenario.crowd : Scenario Float :=
  { single 2 with atoms := 27301, atoms_pos := by decide }

open Workstation

/-- In the crowd 273 positions are distinct, and what the loop finds for the last atom is what it
finds for the first one. -/
theorem synthetic_system_repeats_crowd :
    24 * 27301 ≤ Machine.memory ∧
    (∃ xs : List (Vec3 Float), Synthetic.positions (27301 : ℕ) = .ok xs ∧
      xs.toFinset.card = 273) ∧
    (∃ ms : List Float, Synthetic.inverseMasses (27301 : ℕ) = .ok ms ∧ ms.length = 27301 ∧
      HasPeriod 100 ms) ∧
    (∃ s : Simulation Float, Synthetic.fresh 27301 0.5 ⟨1, 0, 0⟩ ⟨2, 0, -1⟩ = .ok s ∧
      HasPeriod 27300 s.atoms.toList) ∧
    0 < 27301 ∧ 27300 < 27301 ∧ 0 ≡ 27300 [MOD 27300] ∧ Scenario.crowd.atoms = 27301 ∧
    (Backend.host : Backend Float).IsGenuine ∧
    ∃ result, Scenario.crowd.run .host .tight = .ok result ∧
      result.mismatches.filter (fun k => decide (k.atom = ((27300 : ℕ) : ℤ))) =
        (result.mismatches.filter (fun k => decide (k.atom = ((0 : ℕ) : ℤ)))).map fun k =>
          { k with atom := (27300 : ℕ) } := by
  have hmemory : 24 * 27301 ≤ Machine.memory := by decide
  obtain ⟨hexist, hpositions, hmasses, hfresh, hruns⟩ := synthetic_system_repeats 27301
  obtain ⟨⟨xs, hxs⟩, ms, hms, hlength⟩ := hexist hmemory
  have hcard : xs.toFinset.card = 273 := (hpositions xs hxs).2.2.1
  have hsize : Synthetic.checkSize (α := Float) 27301 = .ok () :=
    Synthetic.checkSize_eq_ok_iff.mpr hmemory
  have hs : Synthetic.fresh 27301 (0.5 : Float) ⟨1, 0, 0⟩ ⟨2, 0, -1⟩ =
      .ok (Synthetic.simulation 27301 0.5 ⟨1, 0, 0⟩ ⟨2, 0, -1⟩) := by
    rw [Synthetic.fresh, hsize]
    rfl
  have hhost : (Backend.host : Backend Float).IsGenuine := .inl rfl
  have hlimits : Scenario.crowd.WithinLimits := ⟨hsize, by decide⟩
  obtain ⟨result, hresult⟩ : ∃ result, Scenario.crowd.run .host .tight = .ok result :=
    Scenario.exists_run hlimits hhost (by decide +kernel)
  exact ⟨hmemory, ⟨xs, hxs, hcard⟩, ⟨ms, hms, hlength, (hmasses ms hms).1⟩,
    ⟨_, hs, (hfresh _ _ _ _ hs).2⟩, by decide, by decide, rfl, rfl, hhost, result, hresult,
    hruns .host hhost .tight .crowd result rfl hresult 0 27300 (by decide) (by decide) rfl⟩

end Leapfrog
