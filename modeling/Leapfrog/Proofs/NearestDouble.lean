import Leapfrog.Proofs.Doubles

/-!
# The double nearest to a quotient

Which double is nearest depends on the quotient and not on the numbers that it is written with: the
exponent at which a quotient has 53 binary digits is unique, and in units of that exponent the
quotient is rounded as it is. The quotient that a double itself is has that double as its nearest
one, so a double can be written as any quotient of the same value and found again.
-/

namespace Leapfrog.Decimal

/-- A quotient is rounded in the same way when it is extended. -/
theorem roundHalfEven_extend (num den : Nat) {c : Nat} (hc : 0 < c) :
    roundHalfEven (num * c) (den * c) = roundHalfEven num den := by
  have hless (a b : Nat) : 2 * (a * c) < b * c ↔ 2 * a < b := by
    rw [← Nat.mul_assoc]
    exact Nat.mul_lt_mul_right hc
  have hmore (a b : Nat) : b * c < 2 * (a * c) ↔ b < 2 * a := by
    rw [← Nat.mul_assoc]
    exact Nat.mul_lt_mul_right hc
  simp only [roundHalfEven, Nat.mul_div_mul_right _ _ hc, Nat.mul_mod_mul_right, hless, hmore]

/-- Equal quotients are rounded to the same whole number. -/
theorem roundHalfEven_congr {num den num' den' : Nat} (hden : 0 < den) (hden' : 0 < den')
    (h : num * den' = num' * den) : roundHalfEven num den = roundHalfEven num' den' := by
  rw [← roundHalfEven_extend num den hden', h, Nat.mul_comm den, roundHalfEven_extend _ _ hden]

section

variable {b : Nat}

/-- A power of a base as numbers, a positive exponent counting for the first one and a negative one for
the second. -/
theorem natPow_eq (hb : b ≠ 0) (e : Int) :
    ((b ^ e.toNat : Nat) : ℚ) = (b : ℚ) ^ e * (b ^ (-e).toNat : Nat) := by
  have hcast : (b : ℚ) ≠ 0 := Nat.cast_ne_zero.mpr hb
  rw [Nat.cast_pow, Nat.cast_pow, ← zpow_natCast, ← zpow_natCast, ← zpow_add₀ hcast]
  congr 1
  omega

/-- The quotient that a multiple of a power is. -/
def multiple (b m : Nat) (e : Int) : Nat × Nat :=
  if 0 ≤ e then (m * b ^ e.toNat, 1) else (m, b ^ (-e).toNat)

/-- A multiple of a power has its value. -/
theorem multiple_eq (hb : b ≠ 0) (m : Nat) (e : Int) :
    0 < (multiple b m e).2 ∧ ((multiple b m e).1 : ℚ) / (multiple b m e).2 = m * (b : ℚ) ^ e := by
  have hpow := natPow_eq hb e
  unfold multiple
  split
  · next he =>
    have hneg : (-e).toNat = 0 := by omega
    rw [hneg, pow_zero, Nat.cast_one, mul_one] at hpow
    refine ⟨Nat.one_pos, ?_⟩
    rw [Nat.cast_mul, hpow, Nat.cast_one, div_one]
  · next he =>
    have hpos : e.toNat = 0 := by omega
    have hden : 0 < b ^ (-e).toNat := Nat.pow_pos (Nat.pos_of_ne_zero hb)
    rw [hpos, pow_zero, Nat.cast_one] at hpow
    refine ⟨hden, ?_⟩
    rw [div_eq_iff (Nat.cast_ne_zero.mpr hden.ne'), mul_assoc, ← hpow, mul_one]

/-- A quotient in units of a power. -/
def scaled (b num den : Nat) (e : Int) : Nat × Nat :=
  if 0 ≤ e then (num, den * b ^ e.toNat) else (num * b ^ (-e).toNat, den)

/-- A quotient in units of a power has so many of them. -/
theorem scaled_eq (hb : b ≠ 0) (num : Nat) {den : Nat} (hden : 0 < den) (e : Int) :
    0 < (scaled b num den e).2 ∧
      ((scaled b num den e).1 : ℚ) / (scaled b num den e).2 = num / den / (b : ℚ) ^ e := by
  have hpow := natPow_eq hb e
  have hcast : (den : ℚ) ≠ 0 := Nat.cast_ne_zero.mpr hden.ne'
  have hscale : (b : ℚ) ^ e ≠ 0 := zpow_ne_zero e (Nat.cast_ne_zero.mpr hb)
  unfold scaled
  split
  · next he =>
    have hneg : (-e).toNat = 0 := by omega
    rw [hneg, pow_zero, Nat.cast_one, mul_one] at hpow
    refine ⟨Nat.mul_pos hden (Nat.pow_pos (Nat.pos_of_ne_zero hb)), ?_⟩
    rw [Nat.cast_mul, hpow, div_div]
  · next he =>
    have hpos : e.toNat = 0 := by omega
    rw [hpos, pow_zero, Nat.cast_one] at hpow
    refine ⟨hden, ?_⟩
    rw [Nat.cast_mul, div_div, div_eq_div_iff hcast (mul_ne_zero hcast hscale), mul_assoc,
      mul_left_comm _ (den : ℚ), mul_comm _ ((b : ℚ) ^ e), ← hpow, mul_one]

end

namespace Binary64

open Float.Model (UnpackedFloat)
open Float.Model.UnpackedFloat (unpackMantissa)

/-- The quotient that `m * 2 ^ e` is. -/
theorem quotient_eq (m : Nat) (e : Int) :
    0 < (quotient m e).2 ∧ ((quotient m e).1 : ℚ) / (quotient m e).2 = m * 2 ^ e := by
  have hmultiple : quotient m e = multiple 2 m e := by
    unfold quotient multiple
    rw [Nat.shiftLeft_eq, Nat.one_shiftLeft]
  rw [hmultiple]
  exact multiple_eq two_ne_zero m e

/-- A quotient in units of a power of two. -/
theorem inUnits_eq (num : Nat) {den : Nat} (hden : 0 < den) (e : Int) :
    0 < (inUnits num den e).2 ∧
      ((inUnits num den e).1 : ℚ) / (inUnits num den e).2 = num / den / 2 ^ e := by
  have hscaled : inUnits num den e = scaled 2 num den e := by
    unfold inUnits scaled
    rw [Nat.shiftLeft_eq, Nat.shiftLeft_eq]
  rw [hscaled]
  exact scaled_eq two_ne_zero num hden e

/-- The exponent at which a quotient has 53 binary digits, or the least exponent if it has fewer
digits there. -/
structure IsExponent (q : ℚ) (e : Int) : Prop where
  least : minExponent ≤ e
  upper : q < 2 * perExponent * 2 ^ e
  lower : e = minExponent ∨ perExponent * 2 ^ e ≤ q

/-- A quotient with a smaller exponent is smaller. -/
theorem IsExponent.lt_of_lt {q q' : ℚ} {e e' : Int} (h : IsExponent q e) (h' : IsExponent q' e')
    (hlt : e < e') : q < q' := by
  have hleast := h.least
  have hunit : (2 : ℚ) * 2 ^ e ≤ 2 ^ e' := by
    rw [← zpow_one_add₀ two_ne_zero]
    exact zpow_le_zpow_right₀ one_le_two (by omega)
  calc q < 2 * perExponent * 2 ^ e := h.upper
    _ = perExponent * (2 * 2 ^ e) := by ring
    _ ≤ perExponent * 2 ^ e' := mul_le_mul_of_nonneg_left hunit (Nat.cast_nonneg _)
    _ ≤ q' := h'.lower.resolve_left (by omega)

/-- A larger quotient has no smaller exponent. -/
theorem IsExponent.mono {q q' : ℚ} {e e' : Int} (h : IsExponent q e) (h' : IsExponent q' e')
    (hle : q ≤ q') : e ≤ e' := by
  by_contra hlt
  exact absurd (h'.lt_of_lt h (not_le.mp hlt)) hle.not_gt

/-- A quotient has one exponent only. -/
theorem IsExponent.unique {q : ℚ} {e e' : Int} (h : IsExponent q e) (h' : IsExponent q e') :
    e = e' :=
  le_antisymm (h.mono h' le_rfl) (h'.mono h le_rfl)

/-- A power of two that a number has reached. -/
theorem two_pow_log2_le {n : Nat} (hn : n ≠ 0) : (2 : ℚ) ^ (n.log2 : Int) ≤ n := by
  rw [zpow_natCast]
  exact_mod_cast Nat.log2_self_le hn

/-- A power of two above a number. -/
theorem lt_two_pow_log2 (n : Nat) : (n : ℚ) < 2 ^ ((n.log2 : Int) + 1) := by
  rw [← Nat.cast_one, ← Nat.cast_add, zpow_natCast]
  exact_mod_cast Nat.lt_log2_self

/-- A positive quotient lies between the powers of two that the lengths of its numbers give. -/
theorem quotient_bounds {num den : Nat} (hnum : num ≠ 0) (hden : den ≠ 0) :
    (2 : ℚ) ^ ((num.log2 : Int) - den.log2 - 1) < num / den ∧
      (num / den : ℚ) < 2 ^ ((num.log2 : Int) - den.log2 + 1) := by
  have hpos : (0 : ℚ) < den := by
    rw [Nat.cast_pos]
    omega
  rw [lt_div_iff₀ hpos, div_lt_iff₀ hpos]
  constructor
  · calc (2 : ℚ) ^ ((num.log2 : Int) - den.log2 - 1) * den
        < 2 ^ ((num.log2 : Int) - den.log2 - 1) * 2 ^ ((den.log2 : Int) + 1) :=
          mul_lt_mul_of_pos_left (lt_two_pow_log2 den) (zpow_pos two_pos _)
      _ = 2 ^ (num.log2 : Int) := by
          rw [← zpow_add₀ two_ne_zero]
          congr 1
          omega
      _ ≤ num := two_pow_log2_le hnum
  · calc (num : ℚ) < 2 ^ ((num.log2 : Int) + 1) := lt_two_pow_log2 num
      _ = 2 ^ ((num.log2 : Int) - den.log2 + 1) * 2 ^ (den.log2 : Int) := by
          rw [← zpow_add₀ two_ne_zero]
          congr 1
          omega
      _ ≤ 2 ^ ((num.log2 : Int) - den.log2 + 1) * den :=
          mul_le_mul_of_nonneg_left (two_pow_log2_le hden) (zpow_pos two_pos _).le

/-- Fewer than 53 binary digits are seen from the whole part of the quotient. -/
theorem div_inUnits_lt_iff {num den : Nat} (hden : 0 < den) (e : Int) :
    (inUnits num den e).1 / (inUnits num den e).2 < perExponent ↔
      (num / den : ℚ) < perExponent * 2 ^ e := by
  obtain ⟨hpos, hvalue⟩ := inUnits_eq num hden e
  have hcast : (0 : ℚ) < (inUnits num den e).2 := Nat.cast_pos.mpr hpos
  rw [Nat.div_lt_iff_lt_mul hpos, ← div_lt_iff₀ (zpow_pos two_pos e), ← hvalue, div_lt_iff₀ hcast,
    ← Nat.cast_mul, Nat.cast_lt]

/-- The number of doubles that share an exponent, as a power of two. -/
theorem perExponent_eq : (perExponent : ℚ) = 2 ^ (52 : Int) := by
  norm_num [perExponent]

/-- The exponent that is found for a quotient is its exponent. -/
theorem isExponent_exponentFor {num den : Nat} (hnum : num ≠ 0) (hden : 0 < den) :
    IsExponent (num / den) (exponentFor num den) := by
  obtain ⟨hlow, hhigh⟩ := quotient_bounds hnum (by omega : den ≠ 0)
  have hpower (e : Int) : (perExponent : ℚ) * 2 ^ e = 2 ^ (52 + e) := by
    rw [perExponent_eq, ← zpow_add₀ two_ne_zero]
  have hdouble (e : Int) : (2 : ℚ) * perExponent * 2 ^ e = 2 ^ (53 + e) := by
    rw [mul_assoc, hpower, ← zpow_one_add₀ two_ne_zero]
    congr 1
    omega
  have hmono {e e' : Int} (h : e ≤ e') : (2 : ℚ) ^ e ≤ 2 ^ e' := zpow_le_zpow_right₀ one_le_two h
  unfold exponentFor
  dsimp only
  -- The lengths of the numbers give the exponent or one more.
  split
  · next hdigits =>
    rw [div_inUnits_lt_iff hden] at hdigits
    refine ⟨le_max_right _ _, ?_, ?_⟩
    · rw [hdouble]
      rw [hpower] at hdigits
      exact hdigits.trans_le (hmono (by omega))
    · rw [hpower]
      by_cases hleast : max ((num.log2 : Int) - den.log2 - 52) minExponent = minExponent
      · left
        omega
      · right
        exact (hmono (by omega)).trans hlow.le
  · next hdigits =>
    rw [div_inUnits_lt_iff hden, not_lt] at hdigits
    refine ⟨le_max_right _ _, ?_, .inr hdigits⟩
    rw [hdouble]
    exact hhigh.trans_le (hmono (by omega))

/-- Equal quotients have the same nearest double. -/
theorem nearestRank_congr {num den num' den' : Nat} (hden : 0 < den) (hden' : 0 < den')
    (h : num * den' = num' * den) : nearestRank num den = nearestRank num' den' := by
  by_cases hnum : num = 0
  · have hzero : num' = 0 := by
      rw [hnum, Nat.zero_mul] at h
      exact (Nat.mul_eq_zero.mp h.symm).resolve_right (by omega)
    rw [hnum, hzero, nearestRank, nearestRank, if_pos rfl, if_pos rfl]
  · have hnum' : num' ≠ 0 := by
      rintro rfl
      rw [Nat.zero_mul] at h
      exact hnum ((Nat.mul_eq_zero.mp h).resolve_right (by omega))
    have hquotient : (num / den : ℚ) = num' / den' := by
      have hpos : (den : ℚ) ≠ 0 := Nat.cast_ne_zero.mpr (by omega)
      have hpos' : (den' : ℚ) ≠ 0 := Nat.cast_ne_zero.mpr (by omega)
      rw [div_eq_div_iff hpos hpos']
      exact_mod_cast h
    have hexponent : exponentFor num den = exponentFor num' den' := by
      refine (isExponent_exponentFor hnum hden).unique ?_
      rw [hquotient]
      exact isExponent_exponentFor hnum' hden'
    obtain ⟨hunits, hvalue⟩ := inUnits_eq num hden (exponentFor num' den')
    obtain ⟨hunits', hvalue'⟩ := inUnits_eq num' hden' (exponentFor num' den')
    have hround := hvalue.trans ((congrArg (· / _) hquotient).trans hvalue'.symm)
    rw [div_eq_div_iff (Nat.cast_ne_zero.mpr (by omega)) (Nat.cast_ne_zero.mpr (by omega))] at hround
    simp only [nearestRank, if_neg hnum, if_neg hnum', hexponent]
    rw [roundHalfEven_congr hunits hunits' (by exact_mod_cast hround)]

/-- A quotient that is a whole number of units at its exponent is not rounded. -/
theorem nearestRank_of_units {num den m : Nat} {e : Int} (hm : m ≠ 0) (hden : 0 < den)
    (hvalue : (num / den : ℚ) = m * 2 ^ e) (h : IsExponent (m * 2 ^ e) e) :
    nearestRank num den = min infinityRank ((e - minExponent).toNat * perExponent + m) := by
  have hpow : (2 : ℚ) ^ e ≠ 0 := zpow_ne_zero e two_ne_zero
  have hnum : num ≠ 0 := by
    rintro rfl
    rw [Nat.cast_zero, zero_div, eq_comm, mul_eq_zero, Nat.cast_eq_zero] at hvalue
    exact hvalue.elim hm hpow
  have hexponent : exponentFor num den = e := by
    refine (isExponent_exponentFor hnum hden).unique ?_
    rw [hvalue]
    exact h
  obtain ⟨hunits, hround⟩ := inUnits_eq num hden e
  rw [hvalue, mul_div_cancel_right₀ _ hpow, div_eq_iff (Nat.cast_ne_zero.mpr (by omega))] at hround
  simp only [nearestRank, if_neg hnum, hexponent]
  rw [show (inUnits num den e).1 = m * (inUnits num den e).2 by exact_mod_cast hround,
    roundHalfEven_mul _ _ hunits]

/-- The magnitude of a rank is a whole number of units at its exponent. -/
theorem isExponent_ofRank (rank : Nat) :
    IsExponent ((ofRank rank).1 * 2 ^ (ofRank rank).2) (ofRank rank).2 ∧
      ((ofRank rank).2 - minExponent).toNat * perExponent + (ofRank rank).1 = rank := by
  have hparts := Nat.div_add_mod rank perExponent
  have hfraction : rank % perExponent < perExponent := Nat.mod_lt _ (by decide)
  have hscale {m : Nat} {e : Int} (hm : m < 2 * perExponent) :
      (m : ℚ) * 2 ^ e < 2 * perExponent * 2 ^ e :=
    mul_lt_mul_of_pos_right (by exact_mod_cast hm) (zpow_pos two_pos e)
  unfold ofRank
  dsimp only
  split
  · next hfield =>
    refine ⟨⟨le_rfl, hscale (by omega), .inl rfl⟩, ?_⟩
    rw [hfield, Nat.mul_zero, Nat.zero_add] at hparts
    rw [Int.sub_self, Int.toNat_zero, Nat.zero_mul, Nat.zero_add]
    exact hparts
  · next hfield =>
    have hpos : 1 ≤ rank / perExponent := Nat.one_le_iff_ne_zero.mpr hfield
    refine ⟨⟨by omega, hscale (by omega), .inr ?_⟩, ?_⟩
    · refine mul_le_mul_of_nonneg_right ?_ (zpow_pos two_pos _).le
      exact_mod_cast Nat.le_add_right _ _
    · have hexponent : (minExponent + ((rank / perExponent : Nat) - 1 : Int) - minExponent).toNat =
          rank / perExponent - 1 := by
        omega
      obtain ⟨k, hk⟩ := Nat.exists_eq_add_of_le' hpos
      dsimp only
      rw [hexponent, ← Nat.add_assoc, ← Nat.succ_mul, hk, Nat.add_sub_cancel, Nat.succ_eq_add_one,
        ← hk, Nat.mul_comm]
      exact hparts

/-- A double is the one nearest to any quotient that it equals. -/
theorem nearestRank_of_eq {num den rank : Nat} (hrank : rank < infinityRank) (hden : 0 < den)
    (hvalue : (num / den : ℚ) = (ofRank rank).1 * 2 ^ (ofRank rank).2) :
    nearestRank num den = rank := by
  obtain ⟨hexponent, hparts⟩ := isExponent_ofRank rank
  by_cases hm : (ofRank rank).1 = 0
  · have hzero : rank = 0 := by
      have hlower := hexponent.lower
      rw [hm] at hparts hlower
      rcases hlower with hleast | hlower
      · rw [hleast, Int.sub_self] at hparts
        exact hparts.symm
      · have hpos : (0 : ℚ) < perExponent * 2 ^ (ofRank rank).2 :=
          mul_pos (by norm_num [perExponent]) (zpow_pos two_pos _)
        rw [Nat.cast_zero, zero_mul] at hlower
        exact absurd hlower (not_le.mpr hpos)
    have hnum : num = 0 := by
      rw [hm, Nat.cast_zero, zero_mul, div_eq_zero_iff, Nat.cast_eq_zero, Nat.cast_eq_zero] at hvalue
      omega
    rw [hnum, hzero, nearestRank, if_pos rfl]
  · rw [nearestRank_of_units hm hden hvalue hexponent, hparts, min_eq_right hrank.le]

/-- A double is the one nearest to the quotient that it is taken apart into. -/
theorem nearestRank_ofRank {rank : Nat} (hrank : rank < infinityRank) :
    nearestRank (quotient (ofRank rank).1 (ofRank rank).2).1
      (quotient (ofRank rank).1 (ofRank rank).2).2 = rank := by
  obtain ⟨hden, hvalue⟩ := quotient_eq (ofRank rank).1 (ofRank rank).2
  exact nearestRank_of_eq hrank hden hvalue

/-- A double with a finite rank is taken apart into its sign and its magnitude. -/
theorem ofFloat_toFloat (negative : Bool) {rank : Nat} (h : rank < infinityRank) :
    ofFloat (toFloat negative rank) = finite negative (ofRank rank).1 (ofRank rank).2 := by
  have hbits := toNat_toBits_toFloat negative h.le
  unfold ofFloat
  rw [hbits]
  unfold infinityRank signBit perExponent at *
  cases negative with
  | false =>
    have hmod : rank % 9223372036854775808 = rank := Nat.mod_eq_of_lt (by omega)
    have hsign : ¬ 9223372036854775808 ≤ rank := by omega
    simp only [Bool.false_eq_true, if_false, hmod, if_pos h, hsign, decide_false]
  | true =>
    have hmod : (9223372036854775808 + rank) % 9223372036854775808 = rank := by omega
    simp only [if_true, hmod, if_pos h, Nat.le_add_right, decide_true]

/-- A double is known by its bits. -/
theorem eq_of_toBits {x y : Float} (h : x.toBits = y.toBits) : x = y := by
  obtain ⟨x, hx⟩ := x
  obtain ⟨y, hy⟩ := y
  obtain rfl : x = y := h
  rfl

/-- The double with the sign and the rank of a double is that double. -/
theorem toFloat_of_toBits {x : Float} {negative : Bool} {rank : Nat} (hrank : rank ≤ infinityRank)
    (hbits : x.toBits.toNat = if negative then signBit + rank else rank) :
    toFloat negative rank = x := by
  apply eq_of_toBits
  apply UInt64.toNat_inj.mp
  rw [toNat_toBits_toFloat negative hrank, hbits]

/-- The bits of a double are its sign and its rank. -/
theorem toNat_toBits_eq (x : Float) :
    x.toBits.toNat = if decide (signBit ≤ x.toBits.toNat) then signBit + x.toBits.toNat % signBit
      else x.toBits.toNat % signBit := by
  have hlt := x.toBits.toNat_lt
  unfold signBit
  split
  · next hnegative =>
    rw [decide_eq_true_iff] at hnegative
    omega
  · next hpositive =>
    rw [decide_eq_true_iff] at hpositive
    omega

/-- A finite double is the one nearest to its magnitude. -/
theorem toFloat_of_finite {x : Float} {negative : Bool} {m : Nat} {e : Int}
    (h : ofFloat x = finite negative m e) :
    toFloat negative (nearestRank (quotient m e).1 (quotient m e).2) = x := by
  unfold ofFloat at h
  dsimp only at h
  split at h
  · next hrank =>
    obtain ⟨rfl, rfl, rfl⟩ := finite.inj h
    rw [nearestRank_ofRank hrank]
    exact toFloat_of_toBits hrank.le (toNat_toBits_eq x)
  · split at h <;> cases h

/-- An infinite double is the one with its sign. -/
theorem toFloat_of_infinite {x : Float} {negative : Bool} (h : ofFloat x = infinite negative) :
    toFloat negative infinityRank = x := by
  unfold ofFloat at h
  dsimp only at h
  split at h
  · cases h
  · split at h
    · next hrank =>
      obtain rfl := infinite.inj h
      rw [← hrank]
      exact toFloat_of_toBits hrank.le (toNat_toBits_eq x)
    · cases h

/-- A double that is not a number has the bits of the one that is kept. -/
theorem toBits_of_nan {x : Float} (h : ofFloat x = nan) :
    x.toBits.toBitVec = UnpackedFloat.packedNaN .binary64 := by
  have hrank : infinityRank < x.toBits.toNat % signBit := by
    unfold ofFloat at h
    dsimp only at h
    split at h
    · cases h
    · split at h
      · cases h
      · omega
  refine x.toModel.valid.eq_packedNaN ((unpackExponent_eq_neg_one_iff x.toBits).mpr hrank.le) ?_
  intro hzero
  have hmantissa := toNat_unpackMantissa x.toBits
  change @unpackMantissa .binary64 x.toBits.toBitVec = _ at hzero
  rw [hzero] at hmantissa
  change 0 = _ at hmantissa
  have hlt := x.toBits.toNat_lt
  unfold infinityRank signBit perExponent at *
  omega

/-- There is one double that is not a number. -/
theorem eq_of_nan {x y : Float} (hx : ofFloat x = nan) (hy : ofFloat y = nan) : x = y := by
  apply eq_of_toBits
  apply UInt64.toBitVec_inj.mp
  rw [toBits_of_nan hx, toBits_of_nan hy]

/-- A whole number of units at its exponent is the magnitude of a rank. -/
theorem ofRank_units {m : Nat} {e : Int} (h : IsExponent (m * 2 ^ e) e) :
    ofRank ((e - minExponent).toNat * perExponent + m) = (m, e) := by
  have hpow : (0 : ℚ) < 2 ^ e := zpow_pos two_pos e
  have hupper : m < 2 * perExponent := by
    exact_mod_cast lt_of_mul_lt_mul_right h.upper hpow.le
  have hpos : 0 < perExponent := by decide
  unfold ofRank
  dsimp only
  by_cases hm : m < perExponent
  · have hleast : e = minExponent := by
      refine h.lower.resolve_right fun hlower => ?_
      have hle : perExponent ≤ m := by exact_mod_cast le_of_mul_le_mul_right hlower hpow
      omega
    rw [hleast, Int.sub_self, Int.toNat_zero, Nat.zero_mul, Nat.zero_add, Nat.div_eq_of_lt hm,
      if_pos rfl, Nat.mod_eq_of_lt hm]
  · obtain ⟨fraction, rfl⟩ := Nat.exists_eq_add_of_le (Nat.le_of_not_lt hm)
    obtain ⟨k, hk⟩ := Int.eq_ofNat_of_zero_le (Int.sub_nonneg.mpr h.least)
    have hrank : k * perExponent + (perExponent + fraction) = fraction + perExponent * (k + 1) := by
      ring
    have hfraction : fraction < perExponent := by omega
    rw [hk, Int.toNat_natCast, hrank, Nat.add_mul_div_left _ _ hpos, Nat.div_eq_of_lt hfraction,
      Nat.add_mul_mod_self_left, Nat.mod_eq_of_lt hfraction, if_neg (by omega)]
    refine Prod.ext rfl ?_
    dsimp only
    omega

/-- Nothing is rounded beyond infinity. -/
theorem nearestRank_le (num den : Nat) : nearestRank num den ≤ infinityRank := by
  unfold nearestRank
  split
  · exact Nat.zero_le _
  · exact Nat.min_le_left _ _

/-- A natural number is converted without a sign. -/
theorem ofInt_natCast (n : Nat) : ofInt n = toFloat false (nearestRank n 1) := by
  have hsign : decide ((n : Int) < 0) = false := decide_eq_false (by omega)
  rw [ofInt, nearest, hsign, Int.natAbs_natCast]

/-- A whole number of at most 53 binary digits is a double. -/
theorem toInt?_ofInt {n : Nat} (h : n < 2 * perExponent) : toInt? (ofInt n) = some (n : Int) := by
  rw [toInt?_eq_some_iff]
  have hfinite : nearestRank n 1 < infinityRank := by
    rw [nearestRank_one_lt_iff]
    unfold perExponent overflow at *
    omega
  rw [ofInt_natCast, ofFloat_toFloat false hfinite]
  by_cases hn : n = 0
  · subst hn
    simp [nearestRank, ofRank, value?]
  · have hlength : n.log2 < 53 := (log2_lt_iff hn).mpr h
    obtain ⟨k, hk⟩ := Nat.exists_eq_add_of_le (Nat.lt_succ_iff.mp hlength)
    have hexponent : exponentFor n 1 = -k := by
      rw [exponentFor_one hn]
      omega
    have hunits : (n : ℚ) = (n * 2 ^ k : Nat) * 2 ^ (-(k : Int)) := by
      push_cast
      rw [zpow_neg, zpow_natCast, mul_assoc, mul_inv_cancel₀ (pow_ne_zero k two_ne_zero), mul_one]
    have hspec : IsExponent ((n * 2 ^ k : Nat) * 2 ^ (-(k : Int))) (-k) := by
      have hfound := isExponent_exponentFor hn Nat.one_pos
      rw [Nat.cast_one, div_one, hexponent] at hfound
      rwa [← hunits]
    have hquotient : (n : ℚ) / (1 : Nat) = (n * 2 ^ k : Nat) * 2 ^ (-(k : Int)) := by
      rw [Nat.cast_one, div_one]
      exact hunits
    have hrank := nearestRank_of_units (Nat.mul_ne_zero hn (Nat.two_pow_pos k).ne') Nat.one_pos
      hquotient hspec
    rw [hrank] at hfinite ⊢
    rw [min_eq_right (by omega), ofRank_units hspec]
    exact congrArg some hunits.symm

/-- Rounding up to the next power of two is a step to the next exponent, and the value is the same. -/
theorem value_ofRank_units {m : Nat} {e : Int} (he : minExponent ≤ e) (hlow : perExponent ≤ m)
    (hhigh : m ≤ 2 * perExponent) :
    ((ofRank ((e - minExponent).toNat * perExponent + m)).1 : ℚ) *
      2 ^ (ofRank ((e - minExponent).toNat * perExponent + m)).2 = m * 2 ^ e := by
  have hunits {m : Nat} {e : Int} (he : minExponent ≤ e) (hlow : perExponent ≤ m)
      (hhigh : m < 2 * perExponent) : IsExponent (m * 2 ^ e) e := by
    refine ⟨he, mul_lt_mul_of_pos_right ?_ (zpow_pos two_pos e),
      .inr (mul_le_mul_of_nonneg_right ?_ (zpow_pos two_pos e).le)⟩
    · exact_mod_cast hhigh
    · exact_mod_cast hlow
  rcases Nat.lt_or_eq_of_le hhigh with hless | rfl
  · rw [ofRank_units (hunits he hlow hless)]
  · have hnext : (e - minExponent).toNat * perExponent + 2 * perExponent =
        (e + 1 - minExponent).toNat * perExponent + perExponent := by
      rw [show (e + 1 - minExponent).toNat = (e - minExponent).toNat + 1 by omega]
      ring
    rw [hnext, ofRank_units (hunits (by omega) le_rfl (by decide)), zpow_add_one₀ two_ne_zero]
    push_cast
    ring

/-- A whole number of 53 binary digits or more is rounded in the units in which it has 53 of them. -/
theorem toInt?_ofInt_of_le {n : Nat} (h : perExponent ≤ n) (hfinite : n < overflow) :
    toInt? (ofInt n) =
      some ((roundHalfEven n (2 ^ (n.log2 - 52)) * 2 ^ (n.log2 - 52) : Nat) : Int) := by
  have hpos : 0 < perExponent := by decide
  have hn : n ≠ 0 := by omega
  have hlength : 52 ≤ n.log2 := by
    rw [Nat.le_log2 hn]
    exact h
  obtain ⟨k, hk⟩ := Nat.exists_eq_add_of_le hlength
  have hexponent : (n.log2 : Int) - 52 = k := by omega
  have hunits : inUnits n 1 ((n.log2 : Int) - 52) = (n, 2 ^ k) := by
    rw [hexponent, inUnits, if_pos (by omega), Int.toNat_natCast, Nat.one_shiftLeft]
  obtain ⟨hden, hleast, hmost⟩ := inUnits_leading hn
  have hlow := le_roundHalfEven hden hleast
  have hhigh := roundHalfEven_le hden hmost.le
  have hlast := (nearestRank_one_lt_iff n).mpr hfinite
  have hfield : n.log2 + 1022 = ((k : Int) - minExponent).toNat := by
    unfold minExponent
    omega
  have hrank : nearestRank n 1 =
      ((k : Int) - minExponent).toNat * perExponent + roundHalfEven n (2 ^ k) := by
    rw [nearestRank_one hn, hunits, hfield] at hlast ⊢
    exact min_eq_right ((min_lt_iff.mp hlast).resolve_left (lt_irrefl _)).le
  rw [hunits] at hlow hhigh
  have hleast : minExponent ≤ k := by
    unfold minExponent
    omega
  rw [toInt?_eq_some_iff, ofInt_natCast, ofFloat_toFloat false hlast, hrank, value?,
    if_neg Bool.false_ne_true, value_ofRank_units hleast hlow hhigh, hk, Nat.add_sub_cancel_left]
  push_cast
  rfl

end Binary64

end Leapfrog.Decimal
