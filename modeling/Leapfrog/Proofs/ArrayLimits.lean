import Leapfrog.Proofs.NearestDouble
import Leapfrog.Proofs.Traversal
import Leapfrog.Simulation.Synthetic

/-!
# Arrays within their limits

There is memory for few enough numbers, and for no more. A row of indices has the length that it is
asked for as long as there is memory for it; beyond that it is refused, but for the ends that are
rounded to the bound of the machine integers. A row with such an end is empty.
-/

namespace Leapfrog

namespace Limits

/-- The bytes of a table of three columns are counted if there are few enough of them. -/
theorem countBytes_eq_ok {n : Nat} (h : 24 * n < bound) :
    countBytes (α := Float) 8 [n, 3] = .ok () := by
  have hbound : bound = 9223372036854775808 := by decide
  rw [hbound] at h
  have hthree (bytes : Nat) (hbytes : bytes * 3 < bound) :
      countBytes (α := Float) bytes [3] = .ok () := by
    simp [countBytes, hbytes]
  rw [countBytes, if_neg (by omega)]
  split
  · exact hthree 8 (by decide)
  · rw [Int.toNat_natCast, if_pos (by omega)]
    exact hthree (8 * n) (by omega)

/-- There can be a table of three columns exactly if there is memory for its bytes. -/
theorem array_eq_ok_iff [Machine] {n : Nat} :
    array (α := Float) [n, 3] = .ok () ↔ 24 * n ≤ Machine.memory := by
  have hmemory := Machine.memory_lt
  have hbound : bound = 9223372036854775808 := by decide
  have hscalar : Scalar.bytes? Float = some 8 := rfl
  have hinteger : [(n : Int), 3].all isMachineInteger = decide (n < bound) := by
    simp [isMachineInteger, hbound]
  have hbytes : 8 * ([(n : Int), 3].map Int.toNat).foldr (· * ·) 1 = 24 * n := by
    simp
    omega
  simp only [array, hscalar, hinteger, hbytes]
  constructor
  · intro h
    split at h
    · obtain ⟨_, -, h⟩ := bind_eq_ok_iff.mp h
      by_contra hlarge
      rw [checkMemory, if_neg hlarge] at h
      cases h
    · cases h
  · intro h
    rw [countBytes_eq_ok (by omega), checkMemory, if_pos h, decide_eq_true (by omega)]
    rfl

/-- A row of indices that there is memory for has the length that it is asked for. -/
theorem range_eq_ok [Machine] {n : Nat} (h : 8 * n ≤ Machine.memory) (entries : Fault.Entry) :
    range (α := Float) entries n = .ok n := by
  have hmemory := Machine.memory_lt
  have hbound : bound = 9223372036854775808 := by decide
  have hexact : Scalar.toInt? (Scalar.ofInt n : Float) = some (n : Int) := by
    refine Decimal.Binary64.toInt?_ofInt ?_
    unfold Decimal.Binary64.perExponent
    omega
  have hbytes : Scalar.bytes? Float = some 8 := rfl
  simp only [range, hbytes, hexact, Int.toNat_natCast, checkMemory, if_pos h]
  rw [if_neg (by omega), if_neg (by omega), if_pos (by omega)]
  rfl

/-- The ends of rows that are rounded to the bound of the machine integers. -/
def IsLost (stop : Nat) : Prop := bound ≤ stop + 512 ∧ stop ≤ bound + 1024

/-- In units of `2 ^ 10` a number below the bound is rounded to it if it is at most half a unit away. -/
theorem roundHalfEven_below_iff {n : Nat} (hn : n < bound) :
    Decimal.roundHalfEven n (2 ^ 10) * 2 ^ 10 = bound ↔ bound ≤ n + 512 := by
  have hbound : bound = 9223372036854775808 := by decide
  have hlow := Decimal.two_mul_roundHalfEven_le n (2 ^ 10) (by decide)
  have hhigh := Decimal.le_two_mul_roundHalfEven n (2 ^ 10) (by decide)
  rw [hbound] at hn ⊢
  constructor
  · intro h
    omega
  · intro h
    rcases Nat.lt_or_eq_of_le h with hless | heq
    · omega
    · obtain rfl : n = 9223372036854775296 := by omega
      decide

/-- In units of `2 ^ 11` a number above the bound is rounded to it if it is at most half a unit away. -/
theorem roundHalfEven_above_iff {n : Nat} (hn : bound ≤ n) :
    Decimal.roundHalfEven n (2 ^ 11) * 2 ^ 11 = bound ↔ n ≤ bound + 1024 := by
  have hbound : bound = 9223372036854775808 := by decide
  have hlow := Decimal.two_mul_roundHalfEven_le n (2 ^ 11) (by decide)
  have hhigh := Decimal.le_two_mul_roundHalfEven n (2 ^ 11) (by decide)
  rw [hbound] at hn ⊢
  constructor
  · intro h
    omega
  · intro h
    rcases Nat.lt_or_eq_of_le h with hless | rfl
    · omega
    · decide

/-- An end of at least 53 binary digits is rounded to one of at least as many, and to the bound
exactly if it is lost. -/
theorem le_of_toInt?_ofInt {n : Nat} {k : Int} (hn : Decimal.Binary64.perExponent ≤ n)
    (h : Scalar.toInt? (Scalar.ofInt n : Float) = some k) :
    (Decimal.Binary64.perExponent : Int) ≤ k ∧ (k = bound ↔ IsLost n) := by
  have hvalue := Decimal.Binary64.toInt?_eq_some_iff.mp h
  have hfinite := (Decimal.Binary64.isFinite_ofInt n).mp (Decimal.Binary64.isFinite_of_value? hvalue)
  have hround := Decimal.Binary64.toInt?_ofInt_of_le hn hfinite
  obtain rfl := Option.some.inj (h.symm.trans hround)
  have hnz : n ≠ 0 := by
    unfold Decimal.Binary64.perExponent at hn
    omega
  obtain ⟨e, he⟩ := Nat.exists_eq_add_of_le ((Nat.le_log2 (k := 52) hnz).mpr hn)
  rw [he, Nat.add_sub_cancel_left]
  have hleast : 2 ^ 52 * 2 ^ e ≤ n := by
    rw [← Nat.pow_add, ← he]
    exact Nat.log2_self_le hnz
  have hmost : n < 2 ^ 53 * 2 ^ e := by
    rw [← Nat.pow_add, Nat.add_right_comm 52 1 e, ← he]
    exact Nat.lt_log2_self
  have hunit : 0 < 2 ^ e := Nat.two_pow_pos e
  have hlow := Nat.mul_le_mul_right (2 ^ e) (Decimal.Binary64.le_roundHalfEven hunit hleast)
  have hhigh := Nat.mul_le_mul_right (2 ^ e) (Decimal.Binary64.roundHalfEven_le hunit hmost.le)
  have hbound : bound = 9223372036854775808 := by decide
  have hper : Decimal.Binary64.perExponent = 2 ^ 52 := by decide
  refine ⟨by omega, ?_⟩
  rw [Int.natCast_inj, IsLost]
  -- The ends near the bound have 63 or 64 binary digits; all others are too far from it.
  obtain hless | rfl | rfl | hmore : e ≤ 9 ∨ e = 10 ∨ e = 11 ∨ 12 ≤ e := by omega
  · have hpow : 2 ^ e ≤ 2 ^ 9 := Nat.pow_le_pow_right (by decide) hless
    omega
  · have hbelow : n < bound := by omega
    rw [roundHalfEven_below_iff hbelow]
    omega
  · have habove : bound ≤ n := by omega
    rw [roundHalfEven_above_iff habove]
    omega
  · have hpow : 2 ^ 12 ≤ 2 ^ e := Nat.pow_le_pow_right (by decide) hmore
    omega

/-- The ends that are lost convert to doubles that are whole numbers. -/
theorem IsLost.exists_toInt? {n : Nat} (h : IsLost n) :
    ∃ k, Scalar.toInt? (Scalar.ofInt n : Float) = some k := by
  have hbound : bound = 9223372036854775808 := by decide
  have hlarge : Decimal.Binary64.perExponent ≤ n := by
    unfold IsLost Decimal.Binary64.perExponent at *
    omega
  have hfinite : n < Decimal.Binary64.overflow := by
    unfold IsLost Decimal.Binary64.overflow at *
    omega
  exact ⟨_, Decimal.Binary64.toInt?_ofInt_of_le hlarge hfinite⟩

/-- A row that there is no memory for is refused, unless its end is lost. Then it is empty. -/
theorem range_of_large [Machine] {n : Nat} (h : Machine.memory < 8 * n) {entries : Fault.Entry}
    {k : Nat} :
    range (α := Float) entries n = .ok k ↔ IsLost n ∧ k = 0 := by
  have hmemory := Machine.memory_lt
  have hbound : bound = 9223372036854775808 := by decide
  have hper : Decimal.Binary64.perExponent = 4503599627370496 := rfl
  have hscalar : Scalar.bytes? Float = some 8 := rfl
  have hread (length : Int) (hlength : Scalar.toInt? (Scalar.ofInt n : Float) = some length) :
      (Machine.memory : Int) < 8 * length ∧ (length = bound ↔ IsLost n) := by
    by_cases hsmall : n < Decimal.Binary64.perExponent
    · have hexact := Decimal.Binary64.toInt?_ofInt (show n < 2 * _ by omega)
      obtain rfl := Option.some.inj (hlength.symm.trans hexact)
      unfold IsLost
      omega
    · have hlarge := le_of_toInt?_ofInt (by omega) hlength
      exact ⟨by omega, hlarge.2⟩
  simp only [range, hscalar]
  cases hlength : Scalar.toInt? (Scalar.ofInt n : Float) with
  | none =>
    have hkept : ¬ IsLost n := by
      intro hlost
      obtain ⟨length, hsome⟩ := hlost.exists_toInt?
      rw [hlength] at hsome
      cases hsome
    simp [hkept]
  | some length =>
    obtain ⟨hlong, hiff⟩ := hread length hlength
    dsimp only
    rw [← hiff]
    split
    · next hrange =>
      have hne : length ≠ bound := by omega
      simp [hne]
    · split
      · next heq => simp [heq, eq_comm]
      · next hne =>
        split
        · rw [checkMemory, if_neg (by omega)]
          simp [hne, bind, Except.bind]
        · simp [hne]

/-- The length of a row of indices: the one that it is asked for if there is memory for it, and none
at all if its end is lost. Any other row is refused. -/
theorem range_eq_ok_iff [Machine] {n k : Nat} {entries : Fault.Entry} :
    range (α := Float) entries n = .ok k ↔ 8 * n ≤ Machine.memory ∧ k = n ∨ IsLost n ∧ k = 0 := by
  by_cases hsmall : 8 * n ≤ Machine.memory
  · have hmemory := Machine.memory_lt
    have hbound : bound = 9223372036854775808 := by decide
    have hkept : ¬ IsLost n := by
      unfold IsLost
      omega
    rw [range_eq_ok hsmall, Except.ok.injEq]
    simp [hsmall, hkept, eq_comm]
  · rw [range_of_large (by omega)]
    simp [hsmall]

end Limits

/-- A system is within its limits exactly if there is memory for its positions. -/
theorem Synthetic.checkSize_eq_ok_iff [Machine] {n : Nat} :
    checkSize (α := Float) n = .ok () ↔ 24 * n ≤ Machine.memory := by
  unfold checkSize
  rw [bind_eq_ok_iff]
  constructor
  · intro h
    obtain ⟨_, -, h⟩ := h
    exact Limits.array_eq_ok_iff.mp h
  · intro h
    exact ⟨n, Limits.range_eq_ok (by omega) .whole, Limits.array_eq_ok_iff.mpr h⟩

end Leapfrog
