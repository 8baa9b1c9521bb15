import Leapfrog.Scalar
import Mathlib

/-!
# Doubles by their bits

A double is its sign and its rank, and it is finite if its rank comes before that of infinity. From
the bits follows what the conversions do: a whole number converts to a finite double up to half a
unit beyond the largest one, and a double is read as a whole number exactly if that is its value. So
a count that is given as a double can always be converted back.

The last part says how what is not finite behaves in a comparison. Nothing here rounds a sum or a
product.
-/

namespace Leapfrog.Decimal.Binary64

open Float.Model
open Float.Model.UnpackedFloat (unpackExponent unpackMantissa)

/-- The exponent field of a bit pattern. -/
theorem toNat_unpackExponent (bits : UInt64) :
    (@unpackExponent .binary64 bits.toBitVec).toNat =
      bits.toNat / perExponent % 2048 := by
  change (bits.toBitVec.extractLsb 62 52).toNat = _
  rw [BitVec.extractLsb_toNat, Nat.shiftRight_eq_div_pow]
  rfl

/-- The mantissa field of a bit pattern. -/
theorem toNat_unpackMantissa (bits : UInt64) :
    (@unpackMantissa .binary64 bits.toBitVec).toNat = bits.toNat % perExponent := by
  change (bits.toBitVec.extractLsb 51 0).toNat = _
  rw [BitVec.extractLsb_toNat, Nat.shiftRight_eq_div_pow]
  simp [perExponent]

/-- The exponent field of what is not finite has all its bits set. -/
theorem unpackExponent_eq_neg_one_iff (bits : UInt64) :
    @unpackExponent .binary64 bits.toBitVec = -1#11 ↔
      infinityRank ≤ bits.toNat % signBit := by
  rw [← BitVec.toNat_inj, toNat_unpackExponent]
  change _ = 2047 ↔ _
  unfold infinityRank signBit perExponent
  omega

/-- A double is finite if it comes before infinity. -/
theorem isFinite_iff (x : Float) :
    x.isFinite = true ↔ x.toBits.toNat % signBit < infinityRank := by
  change (UnpackedFloat.unpack .binary64 x.toBits.toBitVec).isFinite = true ↔ _
  have hexponent := unpackExponent_eq_neg_one_iff x.toBits
  unfold UnpackedFloat.unpack
  dsimp only
  by_cases h : @unpackExponent .binary64 x.toBits.toBitVec = -1#11
  · rw [if_pos h]
    have hrank := hexponent.mp h
    split <;> simp [UnpackedFloat.isFinite] <;> omega
  · rw [if_neg h]
    have hrank := mt hexponent.mpr h
    split
    · split <;> simp [UnpackedFloat.isFinite] <;> omega
    · simp [UnpackedFloat.isFinite]; omega

/-- A bit pattern up to that of infinity is kept when it is read as a double. -/
theorem toBits_ofBits {bits : UInt64} (h : bits.toNat % signBit ≤ infinityRank) :
    (Float.ofBits bits).toBits = bits := by
  have hnumber : @UnpackedFloat.isNaNBits .binary64 bits.toBitVec = false := by
    refine decide_eq_false fun hnan => hnan.2 ?_
    have hrank := (unpackExponent_eq_neg_one_iff bits).mp hnan.1
    apply BitVec.eq_of_toNat_eq
    rw [toNat_unpackMantissa]
    unfold infinityRank signBit perExponent at *
    change _ = 0
    omega
  have hbits : (UnpackedFloat.unpack .binary64 bits.toBitVec).pack .binary64 = bits.toBitVec := by
    rw [UnpackedFloat.pack_unpack, hnumber]
    rfl
  exact congrArg UInt64.ofBitVec hbits

/-- The double with a sign and a rank is stored as its sign and its rank. -/
theorem toNat_toBits_toFloat (negative : Bool) {rank : Nat} (h : rank ≤ infinityRank) :
    (toFloat negative rank).toBits.toNat = if negative then signBit + rank else rank := by
  have hlt : (if negative then signBit + rank else rank) < 2 ^ 64 := by
    unfold infinityRank signBit perExponent at *
    split <;> omega
  have hbits : (UInt64.ofNat (if negative then signBit + rank else rank)).toNat =
      if negative then signBit + rank else rank := by
    rw [UInt64.toNat_ofNat', Nat.mod_eq_of_lt hlt]
  have hrank : (UInt64.ofNat (if negative then signBit + rank else rank)).toNat % signBit ≤
      infinityRank := by
    rw [hbits]
    unfold infinityRank signBit perExponent at *
    split <;> omega
  rw [toFloat, toBits_ofBits hrank, hbits]

/-- The double with a sign and a rank is finite if the rank comes before that of infinity. -/
theorem isFinite_toFloat (negative : Bool) {rank : Nat} (h : rank ≤ infinityRank) :
    (toFloat negative rank).isFinite = true ↔ rank < infinityRank := by
  rw [isFinite_iff, toNat_toBits_toFloat negative h]
  unfold infinityRank signBit perExponent at *
  split <;> omega

/-- A whole number in the units in which it has 53 digits. -/
theorem inUnits_leading {n : Nat} (hn : n ≠ 0) :
    0 < (inUnits n 1 ((n.log2 : Int) - 52)).2 ∧
      perExponent * (inUnits n 1 ((n.log2 : Int) - 52)).2 ≤
        (inUnits n 1 ((n.log2 : Int) - 52)).1 ∧
      (inUnits n 1 ((n.log2 : Int) - 52)).1 <
        2 * perExponent * (inUnits n 1 ((n.log2 : Int) - 52)).2 := by
  have hlow := Nat.log2_self_le hn
  have hhigh := Nat.lt_log2_self (n := n)
  unfold inUnits
  rcases Nat.lt_or_ge n.log2 52 with hshort | hlong
  · obtain ⟨k, hk⟩ := Nat.exists_eq_add_of_lt hshort
    have hexponent : (-((n.log2 : Int) - 52)).toNat = k + 1 := by omega
    have hpow : 2 ^ n.log2 * 2 ^ (k + 1) = perExponent := by
      rw [← Nat.pow_add, ← Nat.add_assoc, ← hk]
      rfl
    rw [if_neg (by omega), hexponent, Nat.shiftLeft_eq]
    refine ⟨Nat.one_pos, ?_, ?_⟩
    · rw [Nat.mul_one, ← hpow]
      exact Nat.mul_le_mul_right _ hlow
    · rw [Nat.mul_one, ← hpow, ← Nat.mul_assoc, ← Nat.pow_succ']
      exact Nat.mul_lt_mul_of_pos_right hhigh (Nat.two_pow_pos _)
  · obtain ⟨k, hk⟩ := Nat.exists_eq_add_of_le hlong
    have hexponent : ((n.log2 : Int) - 52).toNat = k := by omega
    have hpow : perExponent * 2 ^ k = 2 ^ n.log2 := by
      rw [hk, Nat.pow_add]
      rfl
    rw [if_pos (by omega), hexponent]
    dsimp only
    rw [Nat.shiftLeft_eq, Nat.one_mul]
    refine ⟨Nat.two_pow_pos _, ?_, ?_⟩
    · rw [hpow]
      exact hlow
    · rw [Nat.mul_assoc, hpow, ← Nat.pow_succ']
      exact hhigh

/-- A whole number is rounded in the units in which it has 53 digits. -/
theorem exponentFor_one {n : Nat} (hn : n ≠ 0) : exponentFor n 1 = (n.log2 : Int) - 52 := by
  have hguess : max ((n.log2 : Int) - ((1 : Nat).log2 : Int) - 52) minExponent =
      (n.log2 : Int) - 52 := by
    change max ((n.log2 : Int) - 0 - 52) (-1074) = _
    omega
  obtain ⟨hpos, hlow, -⟩ := inUnits_leading hn
  have hdigits : ¬ (inUnits n 1 ((n.log2 : Int) - 52)).1 / (inUnits n 1 ((n.log2 : Int) - 52)).2 <
      perExponent := by
    rw [Nat.not_lt, Nat.le_div_iff_mul_le hpos]
    exact hlow
  unfold exponentFor
  simp only [hguess]
  exact if_neg hdigits

/-- A quotient is not rounded below a whole number that it reaches. -/
theorem le_roundHalfEven {k num den : Nat} (hden : 0 < den) (h : k * den ≤ num) :
    k ≤ roundHalfEven num den := by
  have hquotient : k ≤ num / den := (Nat.le_div_iff_mul_le hden).mpr h
  unfold roundHalfEven
  dsimp only
  split
  · exact hquotient
  · split <;> omega

/-- A quotient is not rounded above a whole number that it does not exceed. -/
theorem roundHalfEven_le {k num den : Nat} (hden : 0 < den) (h : num ≤ k * den) :
    roundHalfEven num den ≤ k := by
  have hnear := two_mul_roundHalfEven_le num den hden
  by_contra hlt
  have hmul : (k + 1) * den ≤ roundHalfEven num den * den := Nat.mul_le_mul_right den (by omega)
  rw [Nat.add_mul] at hmul
  omega

/-- The rank of the double nearest to a whole number. -/
theorem nearestRank_one {n : Nat} (hn : n ≠ 0) :
    nearestRank n 1 = min infinityRank ((n.log2 + 1022) * perExponent +
      roundHalfEven (inUnits n 1 ((n.log2 : Int) - 52)).1
        (inUnits n 1 ((n.log2 : Int) - 52)).2) := by
  have hfield : ((n.log2 : Int) - 52 - minExponent).toNat = n.log2 + 1022 := by
    unfold minExponent
    omega
  unfold nearestRank
  simp only [if_neg hn, exponentFor_one hn, hfield]

/-- The whole numbers from here on are rounded to infinity: this one lies half a unit beyond the
largest finite double, and the even neighbour is not finite. -/
def overflow : Nat := (1 <<< 1024) - (1 <<< 970)

/-- In the last units before infinity, a number is rounded to a finite double if it is below the
bound. -/
theorem roundHalfEven_last_lt_iff (n : Nat) :
    roundHalfEven n (1 <<< 971) < 2 * perExponent ↔ n < overflow := by
  have habove := two_mul_roundHalfEven_le n (1 <<< 971) (by decide)
  have hbelow := le_two_mul_roundHalfEven n (1 <<< 971) (by decide)
  unfold overflow perExponent
  constructor
  · intro h
    by_contra hle
    -- Only the bound itself is near enough, and it goes to the even neighbour.
    obtain rfl : n = (1 <<< 1024) - (1 <<< 970) := by omega
    revert h
    decide
  · intro h
    omega

/-- A whole number has fewer binary digits if it is below a power of two. -/
theorem log2_lt_iff {n k : Nat} (hn : n ≠ 0) : n.log2 < k ↔ n < 1 <<< k := by
  rw [Nat.one_shiftLeft, Nat.log2_lt hn]

/-- A whole number is rounded to a finite double if it is below the bound. -/
theorem nearestRank_one_lt_iff (n : Nat) : nearestRank n 1 < infinityRank ↔ n < overflow := by
  rcases Nat.eq_zero_or_pos n with rfl | hpos
  · decide
  have hn : n ≠ 0 := by omega
  obtain ⟨hden, hleast, hmost⟩ := inUnits_leading hn
  have hlow := le_roundHalfEven hden hleast
  have hhigh := roundHalfEven_le hden hmost.le
  rw [nearestRank_one hn, min_lt_iff, or_iff_right (lt_irrefl _)]
  rcases Nat.lt_trichotomy n.log2 1023 with hsmall | hlast | hlarge
  · have hn : n < 1 <<< 1023 := (log2_lt_iff hn).mp hsmall
    unfold overflow infinityRank perExponent at *
    constructor <;> intro <;> omega
  · have hunits : inUnits n 1 ((n.log2 : Int) - 52) = (n, 1 <<< 971) := by
      rw [hlast]
      rfl
    rw [← roundHalfEven_last_lt_iff, hunits, hlast]
    dsimp only
    unfold infinityRank perExponent
    omega
  · have hn : 1 <<< 1024 ≤ n := by
      rw [← Nat.not_lt, ← log2_lt_iff hn]
      omega
    unfold overflow infinityRank perExponent at *
    constructor <;> intro <;> omega

/-- A whole number converts to a finite double if it is below the bound on either side of zero. -/
theorem isFinite_ofInt (n : Int) : (ofInt n).isFinite = true ↔ n.natAbs < overflow := by
  rw [ofInt, nearest, ← nearestRank_one_lt_iff]
  refine isFinite_toFloat _ ?_
  unfold nearestRank
  split
  · exact Nat.zero_le _
  · exact Nat.min_le_left _ _

/-- The exact value of a double that is finite. -/
def value? : Binary64 → Option ℚ
  | finite negative m e => some (if negative then -(m * 2 ^ e) else m * 2 ^ e)
  | _ => none

/-- A finite double has at most 53 digits and an exponent that leaves room for them. -/
theorem bounds_of_ofFloat {x : Float} {negative : Bool} {m : Nat} {e : Int}
    (h : ofFloat x = finite negative m e) :
    x.isFinite = true ∧ m < 2 * perExponent ∧ e ≤ 971 := by
  rw [isFinite_iff]
  unfold ofFloat at h
  dsimp only at h
  split at h
  · next hrank =>
    refine ⟨hrank, ?_⟩
    obtain ⟨-, rfl, rfl⟩ := finite.injEq .. ▸ h
    unfold ofRank infinityRank perExponent minExponent at *
    dsimp only
    split <;> omega
  · split at h <;> cases h

/-- A double that is finite has an exact value. -/
theorem isFinite_of_value? {x : Float} {q : ℚ} (h : (ofFloat x).value? = some q) :
    x.isFinite = true := by
  cases hx : ofFloat x with
  | finite negative m e => exact (bounds_of_ofFloat hx).1
  | infinite negative =>
    rw [hx] at h
    cases h
  | nan =>
    rw [hx] at h
    cases h

/-- A double is read as the whole number that is its exact value. -/
theorem toInt?_eq_some_iff {x : Float} {k : Int} :
    toInt? x = some k ↔ (ofFloat x).value? = some (k : ℚ) := by
  unfold toInt?
  cases ofFloat x with
  | nan => simp [value?]
  | infinite negative => simp [value?]
  | finite negative m e =>
    have hsigned (n : Nat) :
        ((if negative then -(n : Int) else n : Int) : ℚ) = if negative then -(n : ℚ) else n := by
      split <;> simp
    dsimp only [value?]
    by_cases he : 0 ≤ e
    · obtain ⟨n, rfl⟩ := Int.eq_ofNat_of_zero_le he
      have hvalue : (m : ℚ) * 2 ^ (n : Int) = (m <<< n : Nat) := by
        rw [Nat.shiftLeft_eq, zpow_natCast]
        push_cast
        rfl
      rw [if_pos he, hvalue, ← hsigned, Int.toNat_natCast, Option.some_inj, Option.some_inj,
        Rat.intCast_inj]
    · obtain ⟨n, rfl⟩ := Int.exists_eq_neg_ofNat (Int.le_of_not_le he)
      have hunit : ((1 <<< n : Nat) : ℚ) ≠ 0 := by
        rw [Nat.one_shiftLeft]
        positivity
      have hvalue : (m : ℚ) * (2 : ℚ) ^ (-(n : Int)) = m / (1 <<< n : Nat) := by
        rw [zpow_neg, zpow_natCast, Nat.one_shiftLeft, div_eq_mul_inv]
        push_cast
        rfl
      rw [if_neg he, hvalue, Int.neg_neg, Int.toNat_natCast]
      by_cases hwhole : m % (1 <<< n) = 0
      · have hquotient : (m : ℚ) / (1 <<< n : Nat) = (m / (1 <<< n) : Nat) :=
          (Nat.cast_div (Nat.dvd_of_mod_eq_zero hwhole) hunit).symm
        rw [if_pos hwhole, hquotient, ← hsigned, Option.some_inj, Option.some_inj, Rat.intCast_inj]
      · rw [if_neg hwhole]
        refine ⟨fun h => (nomatch h), fun h => absurd ?_ hwhole⟩
        have habs : (m : ℚ) / (1 <<< n : Nat) = k.natAbs := by
          have hk := Option.some.inj h
          have hpos : (0 : ℚ) ≤ m / (1 <<< n : Nat) := by positivity
          rw [Nat.cast_natAbs, Int.cast_abs, ← hk]
          split
          · rw [abs_neg, abs_of_nonneg hpos]
          · rw [abs_of_nonneg hpos]
        rw [div_eq_iff hunit, ← Nat.cast_mul, Nat.cast_inj] at habs
        rw [habs, Nat.mul_mod_left]

/-- A larger number moved further is larger. -/
theorem shiftLeft_mono {m n i j : Nat} (hm : m ≤ n) (hi : i ≤ j) : m <<< i ≤ n <<< j := by
  rw [Nat.shiftLeft_eq, Nat.shiftLeft_eq]
  exact Nat.mul_le_mul hm (Nat.pow_le_pow_right (by decide) hi)

/-- A double that is a whole number stays finite when it is converted back. -/
theorem natAbs_lt_of_toInt? {x : Float} {k : Int} (h : toInt? x = some k) :
    k.natAbs < overflow := by
  unfold toInt? at h
  cases hx : ofFloat x with
  | nan => simp [hx] at h
  | infinite negative => simp [hx] at h
  | finite negative m e =>
    obtain ⟨-, hm, he⟩ := bounds_of_ofFloat hx
    simp only [hx] at h
    have hnat (n : Nat) (hk : (if negative then -(n : Int) else n) = k) : k.natAbs = n := by
      split at hk <;> omega
    have hlarge : (2 * perExponent - 1) <<< 971 < overflow := by decide
    split at h
    · next hsign =>
      rw [hnat _ (Option.some.inj h)]
      refine Nat.lt_of_le_of_lt ?_ hlarge
      exact shiftLeft_mono (by omega) (by omega)
    · split at h
      · rw [hnat _ (Option.some.inj h)]
        refine Nat.lt_of_le_of_lt (Nat.div_le_self m _) ?_
        unfold perExponent overflow at *
        omega
      · cases h

end Leapfrog.Decimal.Binary64

namespace Leapfrog

open Float.Model

/-- Doubles are compared as they are unpacked. -/
theorem le_iff_unpack (x y : Float) : x ≤ y ↔ x.toModel.unpack.le y.toModel.unpack = true := by
  change decide (x.toModel.unpack.le y.toModel.unpack = true) = true ↔ _
  exact decide_eq_true_iff

/-- A finite double is no more than itself. -/
theorem le_self_of_isFinite {x : Float} (h : x.isFinite = true) : x ≤ x := by
  change x.toModel.unpack.isFinite = true at h
  rw [le_iff_unpack]
  cases hx : x.toModel.unpack with
  | notANumber => rw [hx] at h; cases h
  | infinity => rw [hx] at h; cases h
  | zero => rfl
  | finite sign m e =>
    cases sign <;> simp [UnpackedFloat.le, UnpackedFloat.compare, Std.ReflCmp.compare_self]

/-- What is not a number is within no bound. -/
theorem not_abs_le_of_isNaN {x : Float} (hx : x.isNaN = true) (bound : Float) :
    ¬ x.abs ≤ bound := by
  have hunpack : x.toModel.unpack = .notANumber := by
    change x.toModel.unpack.isNaN = true at hx
    cases h : x.toModel.unpack with
    | notANumber => rfl
    | infinity => rw [h] at hx; cases hx
    | zero => rw [h] at hx; cases hx
    | finite => rw [h] at hx; cases hx
  have habs : x.abs.toModel.unpack = .notANumber := by
    change (Float.Model.pack x.toModel.unpack.abs).unpack = .notANumber
    rw [hunpack]
    rfl
  intro hle
  rw [le_iff_unpack, habs] at hle
  cases hle

/-- What is not finite is packed without loss. -/
theorem unpack_pack_of_not_isFinite {u : UnpackedFloat} (h : u.isFinite = false) :
    (Float.Model.pack u).unpack = u := by
  cases u with
  | notANumber => rfl
  | infinity sign => cases sign <;> rfl
  | zero => cases h
  | finite => cases h

/-- What is not finite makes every difference that it is a term of not finite. -/
theorem isFinite_sub_unpacked {u v : UnpackedFloat} (h : u.isFinite = false ∨ v.isFinite = false) :
    (UnpackedFloat.sub .binary64 u v).isFinite = false := by
  cases u with
  | notANumber => rfl
  | infinity sign =>
    cases v with
    | infinity other => cases sign <;> cases other <;> rfl
    | notANumber | zero | finite => rfl
  | zero =>
    cases v with
    | notANumber | infinity => rfl
    | zero | finite => simp [UnpackedFloat.isFinite] at h
  | finite =>
    cases v with
    | notANumber | infinity => rfl
    | zero | finite => simp [UnpackedFloat.isFinite] at h

/-- A difference is finite only if both of its terms are. -/
theorem isFinite_of_sub {x y : Float} (h : (x - y).isFinite = true) :
    x.isFinite = true ∧ y.isFinite = true := by
  change (Float.Model.pack (UnpackedFloat.sub .binary64 x.toModel.unpack
    y.toModel.unpack)).unpack.isFinite = true at h
  change x.toModel.unpack.isFinite = true ∧ y.toModel.unpack.isFinite = true
  by_contra hboth
  rw [not_and_or, Bool.not_eq_true, Bool.not_eq_true] at hboth
  have hsub := isFinite_sub_unpacked hboth
  rw [unpack_pack_of_not_isFinite hsub, hsub] at h
  cases h

/-- What is not finite is within no finite bound. -/
theorem not_abs_le_of_not_isFinite {x bound : Float} (hx : x.isFinite = false)
    (hbound : bound.isFinite = true) : ¬ x.abs ≤ bound := by
  change x.toModel.unpack.isFinite = false at hx
  change bound.toModel.unpack.isFinite = true at hbound
  have habs : x.toModel.unpack.abs.isFinite = false := by
    cases h : x.toModel.unpack <;> simp_all [UnpackedFloat.abs, UnpackedFloat.isFinite]
  rw [le_iff_unpack]
  change ¬ (Float.Model.pack x.toModel.unpack.abs).unpack.le bound.toModel.unpack = true
  rw [unpack_pack_of_not_isFinite habs]
  cases h : x.toModel.unpack <;> cases h' : bound.toModel.unpack <;>
    simp_all [UnpackedFloat.abs, UnpackedFloat.isFinite, UnpackedFloat.le, UnpackedFloat.compare]

end Leapfrog
