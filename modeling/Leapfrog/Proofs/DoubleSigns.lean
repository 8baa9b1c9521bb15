import Leapfrog.Proofs.AdvanceOutcome
import Leapfrog.Proofs.RoundedProducts

/-!
# Where exact values lie

A finite double has an exact value, and the comparison with zero asks for its sign. So a double is
accepted as positive, or as not negative, exactly if it has an exact value that is. A whole number
that is converted to a double is rounded, but never across zero.
-/

namespace Leapfrog

open Float.Model
open Float.Model.UnpackedFloat (Sign unpackExponent unpackMantissa)

namespace Decimal.Binary64

/-- The sign of a double that is taken apart. -/
def signOf (negative : Bool) : Sign := if negative then .negative else .positive

/-- The sign of a bit pattern is its first bit. -/
theorem unpackSign_eq (bits : UInt64) :
    Sign.ofBitVec (@UnpackedFloat.unpackSign .binary64 bits.toBitVec) =
      signOf (decide (signBit ≤ bits.toNat)) := by
  have hlt := bits.toNat_lt
  have hbit : (@UnpackedFloat.unpackSign .binary64 bits.toBitVec).toNat = bits.toNat / signBit := by
    change (bits.toBitVec.extractLsb 63 63).toNat = _
    rw [BitVec.extractLsb_toNat, Nat.shiftRight_eq_div_pow]
    change bits.toNat / signBit % 2 = _
    unfold signBit
    omega
  have hzero : @UnpackedFloat.unpackSign .binary64 bits.toBitVec = 0#1 ↔ bits.toNat < signBit := by
    rw [← BitVec.toNat_inj, hbit]
    change _ = 0 ↔ _
    unfold signBit
    omega
  unfold Sign.ofBitVec signOf
  simp only [hzero, decide_eq_true_eq, ← not_lt, ite_not]

/-- A finite double is taken apart in two ways, into the same parts. -/
theorem unpack_of_ofFloat {x : Float} {negative : Bool} {m : Nat} {e : Int}
    (h : ofFloat x = finite negative m e) :
    x.toModel.unpack =
      if hm : 0 < m then .finite (signOf negative) m e hm else .zero (signOf negative) := by
  have hinfinite := unpackExponent_eq_neg_one_iff x.toBits
  have hfield := toNat_unpackExponent x.toBits
  have hfraction := toNat_unpackMantissa x.toBits
  unfold ofFloat at h
  dsimp only at h
  split at h
  · next hrank =>
    obtain ⟨rfl, hm, he⟩ := finite.injEq .. ▸ h
    have hfield' : x.toBits.toNat % signBit / perExponent = x.toBits.toNat / perExponent % 2048 := by
      unfold signBit perExponent
      omega
    have hfraction' : x.toBits.toNat % signBit % perExponent = x.toBits.toNat % perExponent := by
      unfold signBit perExponent
      omega
    rw [ofRank, hfield', hfraction', ← hfield, ← hfraction] at hm he
    change UnpackedFloat.unpack .binary64 x.toBits.toBitVec = _
    unfold UnpackedFloat.unpack
    dsimp only
    rw [unpackSign_eq, if_neg (by rw [hinfinite]; omega)]
    by_cases hfirst : @unpackExponent .binary64 x.toBits.toBitVec = 0#11
    · have hzero : (@unpackExponent .binary64 x.toBits.toBitVec).toNat = 0 := by
        rw [hfirst]
        rfl
      rw [if_pos hzero] at hm he
      subst hm he
      rw [if_pos hfirst, hfirst]
      by_cases hnone : @unpackMantissa .binary64 x.toBits.toBitVec = 0#52
      · have hnot : ¬ 0 < (@unpackMantissa .binary64 x.toBits.toBitVec).toNat := by
          rw [hnone]
          decide
        rw [dif_pos hnone, dif_neg hnot]
      · have hpos : 0 < (@unpackMantissa .binary64 x.toBits.toBitVec).toNat :=
          Nat.pos_of_ne_zero fun hnot => hnone (BitVec.eq_of_toNat_eq hnot)
        rw [dif_neg hnone, dif_pos hpos]
        rfl
    · have hsome : (@unpackExponent .binary64 x.toBits.toBitVec).toNat ≠ 0 := fun hnot =>
        hfirst (BitVec.eq_of_toNat_eq hnot)
      rw [if_neg hsome] at hm he
      subst hm he
      have hpos : 0 < perExponent + (@unpackMantissa .binary64 x.toBits.toBitVec).toNat :=
        Nat.add_pos_left (by decide) _
      have hexponent : ((@unpackExponent .binary64 x.toBits.toBitVec).toNat : Int) - (1023 + 52) =
          minExponent + ((@unpackExponent .binary64 x.toBits.toBitVec).toNat - 1) := by
        unfold minExponent
        omega
      rw [if_neg hfirst, dif_pos hpos]
      simp only [toNat_leading, ← hexponent]
      rfl
  · split at h <;> cases h

/-- A finite double can be taken apart. -/
theorem exists_ofFloat_of_isFinite {x : Float} (h : x.isFinite = true) :
    ∃ negative m e, ofFloat x = finite negative m e := by
  rw [isFinite_iff] at h
  unfold ofFloat
  dsimp only
  rw [if_pos h]
  exact ⟨_, _, _, rfl⟩

/-- Where a finite double stands in the order, its exact value stands too, seen from zero. -/
theorem place_of_value? {x : Float} {q : ℚ} (h : (ofFloat x).value? = some q) :
    ∃ p, Float.place? x = some p ∧ (p ≤ toLex (0, toLex (0, 0)) ↔ q ≤ 0) ∧
      (toLex (0, toLex (0, 0)) ≤ p ↔ 0 ≤ q) := by
  obtain ⟨negative, m, e, hx⟩ := exists_ofFloat_of_isFinite (isFinite_of_value? h)
  have hpow : (0 : ℚ) < 2 ^ e := zpow_pos two_pos e
  rw [hx] at h
  obtain rfl := Option.some.inj h
  rw [Float.place?, unpack_of_ofFloat hx]
  rcases Nat.eq_zero_or_pos m with rfl | hm
  · rw [dif_neg (lt_irrefl 0)]
    exact ⟨_, rfl, by simp, by simp⟩
  · have hvalue : (0 : ℚ) < m * 2 ^ e := mul_pos (by exact_mod_cast hm) hpow
    rw [dif_pos hm]
    cases negative with
    | true => exact ⟨_, rfl, by simp [Prod.Lex.le_iff, hvalue.le], by simp [Prod.Lex.le_iff, hvalue]⟩
    | false =>
      exact ⟨_, rfl, by simp [Prod.Lex.le_iff, hvalue], by simp [Prod.Lex.le_iff, hvalue.le]⟩

end Decimal.Binary64

/-- The order compares a double with zero as it compares its exact value. -/
theorem le_zero_iff_of_value? {x : Float} {q : ℚ}
    (h : (Decimal.Binary64.ofFloat x).value? = some q) :
    (Scalar.le x (Scalar.ofInt 0) = true ↔ q ≤ 0) ∧
      (Scalar.le (Scalar.ofInt 0) x = true ↔ 0 ≤ q) := by
  have hzero : Float.place? (Scalar.ofInt 0) = some (toLex (0, toLex (0, 0))) := by decide +kernel
  obtain ⟨p, hp, hbelow, habove⟩ := Decimal.Binary64.place_of_value? h
  rw [le_iff_place?, le_iff_place?, hzero, hp, ← hbelow, ← habove]
  simp

/-- A double has an exact value if it is finite. -/
theorem exists_value?_of_isFinite {x : Float} (h : x.isFinite = true) :
    ∃ q, (Decimal.Binary64.ofFloat x).value? = some q := by
  obtain ⟨negative, m, e, hx⟩ := Decimal.Binary64.exists_ofFloat_of_isFinite h
  rw [hx]
  exact ⟨_, rfl⟩

namespace Scalar

/-- A double is positive exactly if it has an exact value that is. -/
theorem isPositive_iff {x : Float} :
    isPositive x = true ↔ ∃ q, (Decimal.Binary64.ofFloat x).value? = some q ∧ 0 < q := by
  rw [isPositive, Bool.and_eq_true, Bool.not_eq_true']
  constructor
  · rintro ⟨hfinite, hle⟩
    obtain ⟨q, hq⟩ := exists_value?_of_isFinite hfinite
    exact ⟨q, hq, not_le.mp ((le_zero_iff_of_value? hq).1.not.mp (by simp [hle]))⟩
  · rintro ⟨q, hq, hpos⟩
    refine ⟨Decimal.Binary64.isFinite_of_value? hq, ?_⟩
    simpa using (le_zero_iff_of_value? hq).1.not.mpr (not_le.mpr hpos)

/-- A double is not negative exactly if it has an exact value that is not. -/
theorem isNonnegative_iff {x : Float} :
    isNonnegative x = true ↔ ∃ q, (Decimal.Binary64.ofFloat x).value? = some q ∧ 0 ≤ q := by
  rw [isNonnegative, Bool.and_eq_true, Bool.not_eq_true']
  constructor
  · rintro ⟨hfinite, hlt⟩
    obtain ⟨q, hq⟩ := exists_value?_of_isFinite hfinite
    obtain ⟨hbelow, habove⟩ := le_zero_iff_of_value? hq
    refine ⟨q, hq, ?_⟩
    rw [lt, Bool.and_eq_false_iff, Bool.not_eq_false', habove, ← Bool.not_eq_true, hbelow] at hlt
    rcases hlt with hpos | hnonneg
    · exact (not_le.mp hpos).le
    · exact hnonneg
  · rintro ⟨q, hq, hnonneg⟩
    obtain ⟨hbelow, habove⟩ := le_zero_iff_of_value? hq
    refine ⟨Decimal.Binary64.isFinite_of_value? hq, ?_⟩
    rw [lt, habove.mpr hnonneg, Bool.not_true, Bool.and_false]

end Scalar

/-- A whole number that is not zero is not rounded to zero. -/
theorem Decimal.Binary64.mantissa_pos {n : Nat} (hn : 0 < n) : 0 < (ofRank (nearestRank n 1)).1 := by
  have hone : nearestRank 1 1 ≤ nearestRank n 1 := by
    refine nearestRank_mono Nat.one_pos Nat.one_pos ?_
    simpa using Nat.one_le_iff_ne_zero.mpr hn.ne'
  have hpos : 0 < nearestRank n 1 := lt_of_lt_of_le (by decide) hone
  unfold ofRank
  dsimp only
  split
  · next hfirst =>
    have hparts := Nat.div_add_mod (nearestRank n 1) perExponent
    rw [hfirst, Nat.mul_zero, Nat.zero_add] at hparts
    rwa [hparts]
  · exact Nat.add_pos_left (by decide) _

/-- A whole number that is converted to a finite double is not rounded across zero. -/
theorem exists_value?_ofInt {n : Int} (h : (Scalar.ofInt n : Float).isFinite = true) :
    ∃ q, (Decimal.Binary64.ofFloat (Scalar.ofInt n)).value? = some q ∧
      (0 < q ↔ 0 < n) ∧ (0 ≤ q ↔ 0 ≤ n) := by
  open Decimal.Binary64 in
  have hrank : nearestRank n.natAbs 1 < infinityRank :=
    (nearestRank_one_lt_iff _).mpr ((isFinite_ofInt n).mp h)
  have hparts : ofFloat (Scalar.ofInt n) = finite (decide (n < 0)) _ _ :=
    ofFloat_toFloat _ hrank
  have hpow : (0 : ℚ) < 2 ^ (ofRank (nearestRank n.natAbs 1)).2 := zpow_pos two_pos _
  rw [hparts]
  refine ⟨_, rfl, ?_⟩
  rcases eq_or_ne n 0 with rfl | hne
  · have hzero : (ofRank (nearestRank 0 1)).1 = 0 := rfl
    simp [hzero]
  · have hmantissa := mantissa_pos (Int.natAbs_pos.mpr hne)
    have hvalue : (0 : ℚ) < (ofRank (nearestRank n.natAbs 1)).1 *
        2 ^ (ofRank (nearestRank n.natAbs 1)).2 :=
      mul_pos (by exact_mod_cast hmantissa) hpow
    rcases lt_or_gt_of_ne hne with hn | hn
    · simp [hn, not_lt.mpr hvalue.le, not_le.mpr hvalue, not_lt.mpr hn.le, not_le.mpr hn]
    · simp [hn, hn.le, hvalue, hvalue.le, not_lt.mpr hn.le]

/-- A number that is converted to a double is positive, or not negative, exactly if it was so before
the conversion. -/
theorem Number.sign_toScalar {t : Number Float} {x : Float} (h : t.toScalar = .ok x) :
    (Scalar.isPositive x = true ↔ ∃ q, t.value? = some q ∧ 0 < q) ∧
      (Scalar.isNonnegative x = true ↔ ∃ q, t.value? = some q ∧ 0 ≤ q) := by
  rw [Scalar.isPositive_iff, Scalar.isNonnegative_iff]
  cases t with
  | scalar y =>
    obtain rfl := Except.ok.inj h
    exact ⟨Iff.rfl, Iff.rfl⟩
  | whole n =>
    unfold toScalar at h
    dsimp only at h
    split at h
    · next hfinite =>
      obtain rfl := Except.ok.inj h
      obtain ⟨q, hq, hpos, hnonneg⟩ := exists_value?_ofInt hfinite
      simp [hq, value?, hpos, hnonneg]
    · cases h

end Leapfrog
