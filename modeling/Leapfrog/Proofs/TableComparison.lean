import Leapfrog.Proofs.DoubleDifferences
import Leapfrog.Proofs.Traversal

/-!
# Comparing two tables

A comparison of two tables of one shape finds each place once, in row-major order, where the two
entries are not within the bound of one another, and nothing else. It is therefore empty exactly if
every entry is within the bound, it finds the same places when the two tables change their parts,
and a table compared with itself shows where it is not finite.
-/

namespace Leapfrog

namespace Tensor

variable {α : Type}

/-- The entry of a table in a row and a column. -/
def valueAt (t : Tensor α) (row column : Nat) : Option α := t.rows[row]?.bind fun r => r[column]?

/-- The pieces of a list follow one another. -/
theorem getElem?_pieces (n length : Nat) (entries : List α) (i : Nat) :
    (pieces n length entries)[i]? =
      if i < n then some ((entries.drop (i * length)).take length) else none := by
  induction n generalizing entries i with
  | zero => simp [pieces]
  | succ n ih =>
    cases i with
    | zero => simp [pieces]
    | succ i =>
      rw [pieces, List.getElem?_cons_succ, ih, List.drop_drop, Nat.succ_mul, Nat.add_comm length]
      simp only [Nat.succ_lt_succ_iff]

/-- A table has as many entries as rows and columns together. -/
theorem length_entries_table {t : Tensor α} {rows columns : Nat} (h : t.shape = [rows, columns]) :
    t.entries.length = rows * columns := by
  rw [t.length_entries, h]
  simp

/-- The entries of a table stand row by row. -/
theorem valueAt_eq_some_iff {t : Tensor α} {rows columns : Nat} (h : t.shape = [rows, columns])
    {row column : Nat} {a : α} :
    t.valueAt row column = some a ↔
      column < columns ∧ t.entries[row * columns + column]? = some a := by
  have hrows : t.rows = pieces rows columns t.entries := by
    simp only [Tensor.rows, h]
  rw [valueAt, hrows, getElem?_pieces]
  split
  · next hrow => simp [List.getElem?_take, List.getElem?_drop]
  · next hrow =>
    have hlong : t.entries.length ≤ row * columns + column := by
      rw [length_entries_table h]
      exact Nat.le_add_right_of_le (Nat.mul_le_mul_right columns (Nat.le_of_not_lt hrow))
    rw [List.getElem?_eq_none hlong]
    simp

/-- A table has an entry at every place within its shape. -/
theorem exists_valueAt {t : Tensor α} {rows columns : Nat} (h : t.shape = [rows, columns])
    {row column : Nat} (hrow : row < rows) (hcolumn : column < columns) :
    ∃ a, t.valueAt row column = some a := by
  have hplace : row * columns + column < t.entries.length :=
    calc row * columns + column < (row + 1) * columns := by
          rw [Nat.succ_mul]
          exact Nat.add_lt_add_left hcolumn _
      _ ≤ t.entries.length := by
          rw [length_entries_table h]
          exact Nat.mul_le_mul_right columns hrow
  exact ⟨_, (valueAt_eq_some_iff h).mpr ⟨hcolumn, List.getElem?_eq_getElem hplace⟩⟩

/-- A table has few enough axes to be an array. -/
theorem checkedAxes_table {t : Tensor α} {n m : Nat} (h : t.shape = [n, m]) :
    Limits.checkedAxes (α := α) t = .ok t := by
  simp [Limits.checkedAxes, h, Limits.axes]

end Tensor

namespace Mismatch

variable {α : Type}

/-- Where a mismatch stands, in row-major order. -/
def place (m : Mismatch α) : Int ×ₗ Int := toLex (m.atom, m.dimension)

/-- The same mismatch seen from the other table. -/
def swapped (m : Mismatch α) : Mismatch α := { m with actual := m.expected, expected := m.actual }

variable [Sub α] [Scalar α] {q : Quantity} {tolerance : α} {columns : Nat}

/-- What a scan finds: the entries that are not within the bound, with their row and their
column -/
theorem mem_scan {actual expected : List α} {m : Mismatch α} :
    m ∈ scan q tolerance columns actual expected ↔
      ∃ k a e, actual[k]? = some a ∧ expected[k]? = some e ∧ isWithin a e tolerance = false ∧
        m = ⟨(k / columns : Nat), (k % columns : Nat), q, a, e, tolerance⟩ := by
  rw [scan_eq, List.mem_filterMap]
  constructor
  · rintro ⟨⟨⟨a, e⟩, k⟩, hpair, hm⟩
    obtain ⟨ha, he⟩ := List.getElem?_zip_eq_some.mp (List.mk_mem_zipIdx_iff_getElem?.mp hpair)
    dsimp only at hm
    split at hm
    · cases hm
    · next hwithin =>
      exact ⟨k, a, e, ha, he, Bool.eq_false_of_not_eq_true hwithin, (Option.some.inj hm).symm⟩
  · rintro ⟨k, a, e, ha, he, hwithin, rfl⟩
    refine ⟨((a, e), k), List.mk_mem_zipIdx_iff_getElem?.mpr
      (List.getElem?_zip_eq_some.mpr ⟨ha, he⟩), ?_⟩
    simp [hwithin]

/-- A scan runs through the places in row-major order. -/
theorem pairwise_scan (actual expected : List α) :
    (scan q tolerance columns actual expected).Pairwise fun m m' => m.place < m'.place := by
  rw [scan_eq, List.pairwise_filterMap]
  refine (pairwise_zipIdx _).imp fun {p p'} hlt m hm m' hm' => ?_
  obtain ⟨⟨a, e⟩, k⟩ := p
  obtain ⟨⟨a', e'⟩, k'⟩ := p'
  dsimp only at hlt hm hm'
  split at hm
  · cases hm
  · split at hm'
    · cases hm'
    · obtain rfl := Option.some.inj hm
      obtain rfl := Option.some.inj hm'
      rw [place, place, Prod.Lex.toLex_lt_toLex]
      -- A later entry stands in a later row, or in the same row further on.
      have hrow : k / columns ≤ k' / columns := Nat.div_le_div_right hlt.le
      have hk := Nat.div_add_mod k columns
      have hk' := Nat.div_add_mod k' columns
      rcases hrow.lt_or_eq with hless | hsame
      · exact .inl (Int.ofNat_lt.mpr hless)
      · right
        rw [hsame] at hk
        refine ⟨by rw [hsame], ?_⟩
        dsimp only
        omega

/-- A scan of the same two lists the other way round finds the same mismatches, seen from the other
table, if two values are as near to one another from either side. -/
theorem scan_comm (h : ∀ a e : α, isWithin a e tolerance = isWithin e a tolerance)
    (actual expected : List α) :
    scan q tolerance columns expected actual =
      (scan q tolerance columns actual expected).map swapped := by
  rw [scan_eq, scan_eq, ← List.zip_swap actual expected, List.zipIdx_map, List.filterMap_map,
    List.map_filterMap]
  refine List.filterMap_congr fun entry _ => ?_
  obtain ⟨⟨a, e⟩, k⟩ := entry
  simp only [Function.comp_apply, Prod.map_apply, Prod.swap_prod_mk, id_eq, h e a]
  split
  · rfl
  · rfl

/-- Tables of different shapes are not compared. -/
theorem ofTensors_of_shape_ne {actual expected : Tensor α} {n m n' m' : Nat}
    (hactual : actual.shape = [n, m]) (hexpected : expected.shape = [n', m'])
    (h : actual.shape ≠ expected.shape) :
    ofTensors q tolerance actual expected =
      .error (.shapeMismatch actual.shape expected.shape) := by
  unfold ofTensors
  rw [Tensor.checkedAxes_table hactual, Tensor.checkedAxes_table hexpected]
  exact if_neg h

/-- Tables of one shape are scanned entry by entry. -/
theorem ofTensors_of_shape_eq {actual expected : Tensor α} {n m : Nat}
    (hactual : actual.shape = [n, m]) (hexpected : expected.shape = [n, m]) :
    ofTensors q tolerance actual expected =
      .ok (scan q tolerance m actual.entries expected.entries) := by
  unfold ofTensors
  rw [Tensor.checkedAxes_table hactual, Tensor.checkedAxes_table hexpected]
  refine (if_pos (hactual.trans hexpected.symm)).trans ?_
  simp only [hactual]
  rfl

variable {tolerance : Float} {actual expected : Tensor Float} {mismatches : List (Mismatch Float)}

/-- The test for two numbers asks whether their distance is at most the bound. -/
theorem isWithin_iff {a e : Float} : isWithin a e tolerance = true ↔ (a - e).abs ≤ tolerance :=
  decide_eq_true_iff

/-- What a comparison of two tables finds: each place where both have an entry and the distance of the
two entries is not at most the bound, once and in row-major order, with all that was compared there. -/
structure IsComparison (q : Quantity) (tolerance : Float) (actual expected : Tensor Float)
    (mismatches : List (Mismatch Float)) : Prop where
  ordered : mismatches.Pairwise fun m m' => m.place < m'.place
  mem_iff (m : Mismatch Float) : m ∈ mismatches ↔
    ∃ row column a e, actual.valueAt row column = some a ∧ expected.valueAt row column = some e ∧
      ¬ (a - e).abs ≤ tolerance ∧ m = ⟨(row : Nat), (column : Nat), q, a, e, tolerance⟩

/-- A scan of the entries of two tables is their comparison. -/
theorem isComparison_scan {n m : Nat} (hactual : actual.shape = [n, m]) (hexpected : expected.shape = [n, m]) :
    IsComparison q tolerance actual expected
      (scan q tolerance m actual.entries expected.entries) := by
  refine ⟨pairwise_scan _ _, fun mismatch => ?_⟩
  rw [mem_scan]
  simp only [Tensor.valueAt_eq_some_iff hactual, Tensor.valueAt_eq_some_iff hexpected,
    ← isWithin_iff, Bool.not_eq_true]
  constructor
  · rintro ⟨k, a, e, ha, he, hwithin, rfl⟩
    have hk : k / m * m + k % m = k := by
      rw [Nat.mul_comm]
      exact Nat.div_add_mod k m
    have hcolumn : k % m < m := by
      refine Nat.mod_lt _ (Nat.pos_of_ne_zero ?_)
      rintro rfl
      have hnone : actual.entries = [] := by
        rw [← List.length_eq_zero_iff, Tensor.length_entries_table hactual, Nat.mul_zero]
      rw [hnone] at ha
      cases ha
    refine ⟨k / m, k % m, a, e, ⟨hcolumn, ?_⟩, ⟨hcolumn, ?_⟩, hwithin, rfl⟩
    · rw [hk]
      exact ha
    · rw [hk]
      exact he
  · rintro ⟨row, column, a, e, ⟨hcolumn, ha⟩, ⟨-, he⟩, hwithin, rfl⟩
    have hpos : 0 < m := by omega
    have hrow : (row * m + column) / m = row := by
      rw [Nat.mul_comm, Nat.mul_add_div hpos, Nat.div_eq_of_lt hcolumn, Nat.add_zero]
    have hrest : (row * m + column) % m = column := by
      rw [Nat.mul_comm, Nat.mul_add_mod, Nat.mod_eq_of_lt hcolumn]
    refine ⟨row * m + column, a, e, ha, he, hwithin, ?_⟩
    rw [hrow, hrest]

/-- No mismatch lies within its bound. -/
theorem IsComparison.beyond (h : IsComparison q tolerance actual expected mismatches)
    {m : Mismatch Float} (hm : m ∈ mismatches) : ¬ m.error ≤ tolerance := by
  obtain ⟨row, column, a, e, -, -, hbeyond, rfl⟩ := (h.mem_iff m).mp hm
  exact hbeyond

/-- There is no mismatch if everything is within the bound. -/
theorem IsComparison.eq_nil_iff (h : IsComparison q tolerance actual expected mismatches) :
    mismatches = [] ↔ ∀ row column a e, actual.valueAt row column = some a →
      expected.valueAt row column = some e → isWithin a e tolerance = true := by
  rw [List.eq_nil_iff_forall_not_mem]
  constructor
  · intro hnone row column a e ha he
    by_contra hwithin
    exact hnone _ ((h.mem_iff _).mpr ⟨row, column, a, e, ha, he, mt isWithin_iff.mpr hwithin, rfl⟩)
  · intro hall m hm
    obtain ⟨row, column, a, e, ha, he, hbeyond, -⟩ := (h.mem_iff m).mp hm
    exact hbeyond (isWithin_iff.mp (hall row column a e ha he))

/-- The places where a table is not within the bound of itself are those where it is not finite. -/
theorem IsComparison.mem_places_self {t : Tensor Float} (h : IsComparison q tolerance t t mismatches)
    (hzero : Scalar.le (Scalar.ofInt 0) tolerance = true) (place : Int ×ₗ Int) :
    place ∈ mismatches.map Mismatch.place ↔
      ∃ row column a, t.valueAt row column = some a ∧ a.isFinite = false ∧
        place = toLex ((row : Int), (column : Int)) := by
  rw [List.mem_map]
  constructor
  · rintro ⟨m, hm, rfl⟩
    obtain ⟨row, column, a, e, ha, he, hbeyond, rfl⟩ := (h.mem_iff m).mp hm
    obtain rfl := Option.some.inj (ha.symm.trans he)
    rw [← isWithin_iff, isWithin_self hzero, Bool.not_eq_true] at hbeyond
    exact ⟨row, column, a, ha, hbeyond, rfl⟩
  · rintro ⟨row, column, a, ha, hfinite, rfl⟩
    refine ⟨_, (h.mem_iff _).mpr ⟨row, column, a, a, ha, ha, ?_, rfl⟩, rfl⟩
    rw [← isWithin_iff, isWithin_self hzero, Bool.not_eq_true]
    exact hfinite

end Mismatch

open Mismatch in
/-- Two tables of doubles are compared exactly if they have one shape, and a comparison decides
about every entry as the test for two numbers does: both ask whether the distance is at most the bound.
A comparison finds the same places from either side, and in a table that is compared with itself it
finds what is not finite. -/
theorem tables_compared_entry_by_entry (q : Quantity) (tolerance : Float)
    {actual expected : Tensor Float} {n m n' m' : Nat}
    (hactual : actual.shape = [n, m]) (hexpected : expected.shape = [n', m']) :
    (∀ a e : Float, isWithin a e tolerance = true ↔ (a - e).abs ≤ tolerance) ∧
    ((∃ fault, ofTensors q tolerance actual expected = .error fault) ↔
      actual.shape ≠ expected.shape) ∧
    (∀ fault, ofTensors q tolerance actual expected = .error fault →
      fault = .shapeMismatch actual.shape expected.shape ∧ fault.kind = .value) ∧
    (actual.shape = expected.shape →
      (∀ row < n, ∀ column < m, ∃ a e,
        actual.valueAt row column = some a ∧ expected.valueAt row column = some e) ∧
      ∃ mismatches, ofTensors q tolerance actual expected = .ok mismatches ∧
        IsComparison q tolerance actual expected mismatches ∧
        (∀ mismatch ∈ mismatches, ¬ mismatch.error ≤ tolerance) ∧
        (mismatches = [] ↔ ∀ row column a e, actual.valueAt row column = some a →
          expected.valueAt row column = some e → isWithin a e tolerance = true) ∧
        ∃ others, ofTensors q tolerance expected actual = .ok others ∧
          others.map place = mismatches.map place) ∧
    (Scalar.le (Scalar.ofInt 0) tolerance = true →
      ∃ mismatches, ofTensors q tolerance actual actual = .ok mismatches ∧
        ∀ p, p ∈ mismatches.map place ↔
          ∃ row column a, actual.valueAt row column = some a ∧ a.isFinite = false ∧
            p = toLex ((row : Int), (column : Int))) := by
  refine ⟨fun _ _ => isWithin_iff, ?_⟩
  by_cases hshape : actual.shape = expected.shape
  · obtain ⟨rfl, rfl⟩ : n = n' ∧ m = m' := by
      rw [hactual, hexpected] at hshape
      simpa using hshape
    have hfound : IsComparison q tolerance actual expected _ := isComparison_scan hactual hexpected
    have hother : ofTensors q tolerance expected actual = _ :=
      ofTensors_of_shape_eq hexpected hactual
    rw [scan_comm (isWithin_comm · · tolerance)] at hother
    rw [ofTensors_of_shape_eq hactual hexpected]
    refine ⟨by simp [hshape], by simp, fun _ => ⟨?_, _, rfl, hfound, fun _ => hfound.beyond,
      hfound.eq_nil_iff, _, hother, ?_⟩, fun hzero => ⟨_, ofTensors_of_shape_eq hactual hactual,
      (isComparison_scan hactual hactual).mem_places_self hzero⟩⟩
    · intro row hrow column hcolumn
      obtain ⟨a, ha⟩ := Tensor.exists_valueAt hactual hrow hcolumn
      obtain ⟨e, he⟩ := Tensor.exists_valueAt hexpected hrow hcolumn
      exact ⟨a, e, ha, he⟩
    · rw [List.map_map]
      rfl
  · rw [ofTensors_of_shape_ne hactual hexpected hshape]
    refine ⟨by simp [hshape], ?_, fun h => absurd h hshape, fun hzero =>
      ⟨_, ofTensors_of_shape_eq hactual hactual,
        (isComparison_scan hactual hactual).mem_places_self hzero⟩⟩
    rintro fault ⟨rfl⟩
    exact ⟨rfl, rfl⟩

/-- A table of two rows that is not finite in one place. -/
def Tensor.partlyFinite : Tensor Float := ⟨[2, 2], [1, 0.0 / 0.0, 2, 5], rfl⟩

open Mismatch in
/-- The table that is not finite in one place, compared with itself at a bound of zero. -/
theorem tables_compared_entry_by_entry_partlyFinite :
    Tensor.partlyFinite.shape = [2, 2] ∧
      ∃ mismatches, ofTensors .position 0 Tensor.partlyFinite Tensor.partlyFinite = .ok mismatches ∧
        IsComparison .position 0 Tensor.partlyFinite Tensor.partlyFinite mismatches := by
  obtain ⟨-, -, -, hsame, -⟩ := tables_compared_entry_by_entry .position 0
    (rfl : Tensor.partlyFinite.shape = [2, 2]) (rfl : Tensor.partlyFinite.shape = [2, 2])
  obtain ⟨-, mismatches, hcompare, hfound, -⟩ := hsame rfl
  exact ⟨rfl, mismatches, hcompare, hfound⟩

end Leapfrog
