import Leapfrog.Proofs.UnsignedDoubles

/-!
# Rounded mantissas

A larger quotient has no smaller nearest double. A number of more binary digits than a double has is
rounded to the double nearest to it: the digits that are shifted out decide as half of a unit does,
and a rounded number is packed to its rank, also where it has got one digit too many or none.
-/

namespace Leapfrog

open Float.Model
open Float.Model.UnpackedFloat (ExtendedMantissa Sign)

namespace Decimal

/-- A larger numerator is not rounded to less. -/
theorem roundHalfEven_mono_left {num num' den : Nat} (hden : 0 < den) (h : num ≤ num') :
    roundHalfEven num den ≤ roundHalfEven num' den := by
  rcases (Nat.div_le_div_right (c := den) h).lt_or_eq with hless | hsame
  · calc roundHalfEven num den ≤ num / den + 1 := by
          unfold roundHalfEven
          dsimp only
          split
          · exact Nat.le_succ _
          · split <;> omega
      _ ≤ num' / den := hless
      _ ≤ roundHalfEven num' den := Binary64.le_roundHalfEven hden (Nat.div_mul_le_self num' den)
  · have hparts := Nat.div_add_mod num den
    have hparts' := Nat.div_add_mod num' den
    rw [hsame] at hparts
    unfold roundHalfEven
    simp only [hsame]
    split
    · split <;> [skip; split] <;> omega
    · split
      · split <;> [omega; split] <;> omega
      · split <;> [omega; split] <;> omega

/-- A larger quotient is not rounded to less. -/
theorem roundHalfEven_mono {num den num' den' : Nat} (hden : 0 < den) (hden' : 0 < den')
    (h : num * den' ≤ num' * den) : roundHalfEven num den ≤ roundHalfEven num' den' := by
  rw [← roundHalfEven_extend num den hden', ← roundHalfEven_extend num' den' hden,
    Nat.mul_comm den' den]
  exact roundHalfEven_mono_left (Nat.mul_pos hden hden') h

namespace Binary64

/-- How far a quotient is rounded in the units at its exponent. -/
theorem roundHalfEven_inUnits {num den : Nat} (hden : 0 < den) {e : Int}
    (h : IsExponent (num / den) e) :
    roundHalfEven (inUnits num den e).1 (inUnits num den e).2 ≤ 2 * perExponent ∧
      (e ≠ minExponent →
        perExponent ≤ roundHalfEven (inUnits num den e).1 (inUnits num den e).2) := by
  obtain ⟨hunits, hvalue⟩ := inUnits_eq num hden e
  have hpow : (0 : ℚ) < 2 ^ e := zpow_pos two_pos e
  have hcast : (0 : ℚ) < (inUnits num den e).2 := Nat.cast_pos.mpr hunits
  constructor
  · refine roundHalfEven_le hunits ?_
    have hupper := ((div_lt_iff₀ hpow).mpr h.upper).le
    rw [← hvalue, div_le_iff₀ hcast] at hupper
    exact_mod_cast hupper
  · intro he
    refine le_roundHalfEven hunits ?_
    have hlower := (le_div_iff₀ hpow).mpr (h.lower.resolve_left he)
    rw [← hvalue, le_div_iff₀ hcast] at hlower
    exact_mod_cast hlower

/-- A larger quotient has no smaller nearest double. -/
theorem nearestRank_mono {num den num' den' : Nat} (hden : 0 < den) (hden' : 0 < den')
    (h : (num / den : ℚ) ≤ num' / den') : nearestRank num den ≤ nearestRank num' den' := by
  by_cases hnum : num = 0
  · rw [hnum, nearestRank, if_pos rfl]
    exact Nat.zero_le _
  have hpos : (0 : ℚ) < num / den :=
    div_pos (Nat.cast_pos.mpr (Nat.pos_of_ne_zero hnum)) (Nat.cast_pos.mpr hden)
  have hnum' : num' ≠ 0 := by
    rintro rfl
    rw [Nat.cast_zero, zero_div] at h
    exact absurd hpos h.not_gt
  have hexponent := isExponent_exponentFor hnum hden
  have hexponent' := isExponent_exponentFor hnum' hden'
  simp only [nearestRank, if_neg hnum, if_neg hnum']
  refine min_le_min_left _ ?_
  rcases (hexponent.mono hexponent' h).lt_or_eq with hless | hsame
  · -- The next exponent begins where the last one ends, so the rounded digits do not matter.
    have hhigh := (roundHalfEven_inUnits hden hexponent).1
    have hleast := hexponent.least
    have hlow := (roundHalfEven_inUnits hden' hexponent').2 (by omega)
    calc (exponentFor num den - minExponent).toNat * perExponent + _
        ≤ (exponentFor num den - minExponent).toNat * perExponent + 2 * perExponent :=
          Nat.add_le_add_left hhigh _
      _ = (exponentFor num den + 1 - minExponent).toNat * perExponent + perExponent := by
          rw [show (exponentFor num den + 1 - minExponent).toNat =
            (exponentFor num den - minExponent).toNat + 1 by omega]
          ring
      _ ≤ (exponentFor num' den' - minExponent).toNat * perExponent + _ :=
          Nat.add_le_add (Nat.mul_le_mul_right _ (by omega)) hlow
  · rw [hsame]
    refine Nat.add_le_add_left ?_ _
    obtain ⟨hunits, hvalue⟩ := inUnits_eq num hden (exponentFor num' den')
    obtain ⟨hunits', hvalue'⟩ := inUnits_eq num' hden' (exponentFor num' den')
    refine roundHalfEven_mono hunits hunits' ?_
    have hscaled := div_le_div_of_nonneg_right h (zpow_pos two_pos (exponentFor num' den')).le
    rw [← hvalue, ← hvalue', div_le_div_iff₀ (Nat.cast_pos.mpr hunits) (Nat.cast_pos.mpr hunits')]
      at hscaled
    exact_mod_cast hscaled

end Binary64

end Decimal

/-- What is left of a whole number that loses its last binary digits: the digits before them, the
first digit that is lost and whether any other lost digit is set. -/
theorem shiftRight_exact (m k : Nat) :
    ExtendedMantissa.ofMantissaAndAccuracy m .exact >>> k =
      ⟨m / 2 ^ k, decide (2 ^ k ≤ 2 * (m % 2 ^ k)),
        decide (m % 2 ^ k ≠ 0 ∧ 2 * (m % 2 ^ k) ≠ 2 ^ k)⟩ := by
  induction k with
  | zero => simp [HShiftRight.hShiftRight, Nat.repeat, ExtendedMantissa.ofMantissaAndAccuracy,
      Nat.mod_one]
  | succ k ih =>
    change ExtendedMantissa.shiftRightOne
      (ExtendedMantissa.ofMantissaAndAccuracy m .exact >>> k) = _
    have hpos : 0 < 2 ^ k := Nat.two_pow_pos k
    have hrest : m % 2 ^ (k + 1) = m % 2 ^ k + 2 ^ k * (m / 2 ^ k % 2) := Nat.mod_pow_succ
    have hsmall : m % 2 ^ k < 2 ^ k := Nat.mod_lt _ hpos
    rw [ih, ExtendedMantissa.shiftRightOne, hrest, Nat.div_div_eq_div_mul, ← Nat.pow_succ,
      Nat.pow_succ 2 k]
    rcases Nat.mod_two_eq_zero_or_one (m / 2 ^ k) with hbit | hbit
    · rw [hbit]
      congr 1
      · simp
        omega
      · rw [← Bool.decide_or, decide_eq_decide]
        omega
    · rw [hbit]
      congr 1
      · simp
        omega
      · rw [← Bool.decide_or, decide_eq_decide]
        omega

/-- The lost digits are rounded to the nearest whole number, half of a unit to the even one. -/
theorem roundedMantissa_shiftRight (m k : Nat) :
    (ExtendedMantissa.ofMantissaAndAccuracy m .exact >>> k).roundedMantissa =
      Decimal.roundHalfEven m (2 ^ k) := by
  have hpos : 0 < 2 ^ k := Nat.two_pow_pos k
  rw [shiftRight_exact, ExtendedMantissa.roundedMantissa]
  unfold Decimal.roundHalfEven
  dsimp only
  rcases Nat.lt_trichotomy (2 * (m % 2 ^ k)) (2 ^ k) with hless | hhalf | hmore
  · have hround : decide (2 ^ k ≤ 2 * (m % 2 ^ k)) = false := decide_eq_false (by omega)
    rw [if_pos hless, hround]
    cases decide (m % 2 ^ k ≠ 0 ∧ 2 * (m % 2 ^ k) ≠ 2 ^ k) <;> rfl
  · have hround : decide (2 ^ k ≤ 2 * (m % 2 ^ k)) = true := decide_eq_true (by omega)
    have hsticky : decide (m % 2 ^ k ≠ 0 ∧ 2 * (m % 2 ^ k) ≠ 2 ^ k) = false :=
      decide_eq_false (by omega)
    rw [if_neg (by omega), if_neg (by omega), hround, hsticky]
    rfl
  · have hround : decide (2 ^ k ≤ 2 * (m % 2 ^ k)) = true := decide_eq_true (by omega)
    have hsticky : decide (m % 2 ^ k ≠ 0 ∧ 2 * (m % 2 ^ k) ≠ 2 ^ k) = true :=
      decide_eq_true (by omega)
    rw [if_neg (by omega), if_pos hmore, hround, hsticky]
    rfl

namespace Decimal.Binary64

/-- The parts of a double without a sign, as one number. -/
theorem toNat_packComponents (exponent : BitVec 11) (mantissa : BitVec 52) :
    (UnpackedFloat.packComponents .binary64 .positive exponent mantissa).toNat =
      exponent.toNat * perExponent + mantissa.toNat := by
  change (Sign.toBitVec .positive ++ exponent ++ mantissa).toNat = _
  rw [BitVec.toNat_append, ← Nat.shiftLeft_add_eq_or_of_lt mantissa.isLt, BitVec.toNat_append,
    Nat.shiftLeft_eq]
  change (0 <<< 11 ||| exponent.toNat) * perExponent + _ = _
  rw [Nat.zero_shiftLeft, Nat.zero_or]

/-- A magnitude that is a whole number of units at its exponent is packed to its rank. -/
theorem toNat_pack {m : Nat} {e : Int} (hm : 0 < m) (h : IsExponent (m * 2 ^ e) e) :
    (UnpackedFloat.pack .binary64 (.finite .positive m e hm)).toNat =
      min infinityRank ((e - minExponent).toNat * perExponent + m) := by
  have hpow : (0 : ℚ) < 2 ^ e := zpow_pos two_pos e
  have hleast : -1074 ≤ e := h.least
  have hupper : m < 2 * perExponent := by
    exact_mod_cast lt_of_mul_lt_mul_right h.upper hpow.le
  have hlower : e ≠ minExponent → perExponent ≤ m := fun he => by
    exact_mod_cast le_of_mul_le_mul_right (h.lower.resolve_left he) hpow
  have hbias : (e + Format.binary64.exponentBias +
      Format.binary64.mantissaBitsWithoutImplicit).toNat = (e - minExponent).toNat + 1 := by
    change (e + 1023 + 52).toNat = _
    unfold minExponent
    omega
  unfold UnpackedFloat.pack
  dsimp only
  rw [hbias]
  change (if 2048 ≤ (e - minExponent).toNat + 1 + 1 then _ else _ : BitVec 64).toNat = _
  split
  · next hlarge =>
    have hlow := hlower fun he => by
      rw [he, Int.sub_self] at hlarge
      exact absurd hlarge (by decide)
    have hinfinity : infinityRank ≤ (e - minExponent).toNat * perExponent + m :=
      calc infinityRank = 2046 * perExponent + perExponent := by rfl
        _ ≤ (e - minExponent).toNat * perExponent + m :=
          Nat.add_le_add (Nat.mul_le_mul_right _ (by omega)) hlow
    rw [min_eq_left hinfinity]
    rfl
  · next hsmall =>
    have hfinite : (e - minExponent).toNat * perExponent + m ≤ infinityRank :=
      calc (e - minExponent).toNat * perExponent + m
          ≤ 2045 * perExponent + 2 * perExponent :=
            Nat.add_le_add (Nat.mul_le_mul_right _ (by omega)) hupper.le
        _ = infinityRank := by rfl
    rw [min_eq_right hfinite]
    change (if m.log2 + 1 = 53 then _ else _ : BitVec 64).toNat = _
    have hlength := log2_lt_iff (k := 52) hm.ne'
    change _ ↔ m < perExponent at hlength
    split
    · next hdigits =>
      obtain ⟨fraction, rfl⟩ :=
        Nat.exists_eq_add_of_le (Nat.le_of_not_lt (mt hlength.mpr (by omega)))
      have hfield : 2 ^ Format.binary64.exponentBits = 2048 := rfl
      have hunits : 2 ^ Format.binary64.mantissaBitsWithoutImplicit = perExponent := rfl
      rw [toNat_packComponents, BitVec.toNat_ofNat, BitVec.toNat_ofNat, hfield, hunits,
        Nat.mod_eq_of_lt (by omega), Nat.add_mod_left, Nat.mod_eq_of_lt (by omega)]
      ring
    · next hdigits =>
      have hlog : m.log2 < 53 := (log2_lt_iff hm.ne').mpr hupper
      have hshort : m < perExponent := hlength.mp (by omega)
      have hleast : e = minExponent := by
        by_contra he
        exact absurd (hlower he) (by omega)
      rw [toNat_packComponents, BitVec.toNat_ofNat, hleast, Int.sub_self]
      change 0 * perExponent + m % perExponent = 0 * perExponent + m
      rw [Nat.mod_eq_of_lt hshort]

/-- The exponent that a number is rounded at. -/
def target (m : Nat) (e : Int) : Int := Format.binary64.targetExponent (totalExponent m e)

/-- A number is rounded at its exponent. -/
theorem isExponent_target {m : Nat} (hm : m ≠ 0) (e : Int) :
    IsExponent (m * 2 ^ e) (target m e) := by
  have htarget : target m e = max ((m.log2 : Int) + 1 + e - 53) minExponent := rfl
  have hpow : (0 : ℚ) < 2 ^ e := zpow_pos two_pos e
  rw [htarget]
  refine ⟨le_max_right _ _, ?_, ?_⟩
  · rw [perExponent_eq, ← zpow_one_add₀ two_ne_zero, ← zpow_add₀ two_ne_zero]
    calc (m : ℚ) * 2 ^ e < 2 ^ ((m.log2 : Int) + 1) * 2 ^ e :=
          mul_lt_mul_of_pos_right (lt_two_pow_log2 m) hpow
      _ = 2 ^ ((m.log2 : Int) + 1 + e) := (zpow_add₀ two_ne_zero _ _).symm
      _ ≤ _ := zpow_le_zpow_right₀ one_le_two (by omega)
  · rcases le_total ((m.log2 : Int) + 1 + e - 53) minExponent with hleast | hlarge
    · exact .inl (max_eq_right hleast)
    · right
      rw [max_eq_left hlarge, perExponent_eq, ← zpow_add₀ two_ne_zero]
      calc (2 : ℚ) ^ ((52 : Int) + ((m.log2 : Int) + 1 + e - 53)) = 2 ^ ((m.log2 : Int) + e) := by
            congr 1
            omega
        _ = 2 ^ (m.log2 : Int) * 2 ^ e := zpow_add₀ two_ne_zero _ _
        _ ≤ m * 2 ^ e := mul_le_mul_of_nonneg_right (two_pow_log2_le hm) hpow.le

/-- What a rounded number becomes: without its last binary digits if it got too long. -/
def settle (r : Nat) (e : Int) : UnpackedFloat :=
  if h : r / 2 ^ (target r e - e).toNat = 0 then .zero .positive
  else .finite .positive (r / 2 ^ (target r e - e).toNat) (e + (target r e - e).toNat)
    (Nat.pos_of_ne_zero h)

/-- A number is rounded to a whole number of units, and then its exponent is found again. -/
theorem roundWithAccuracy_eq (m : Nat) (e : Int) :
    UnpackedFloat.roundWithAccuracy .binary64 .positive m e .exact =
      settle (roundHalfEven m (2 ^ (target m e - e).toNat)) (e + (target m e - e).toNat) := by
  unfold UnpackedFloat.roundWithAccuracy UnpackedFloat.shiftToTargetExponent
    UnpackedFloat.shiftToExponent
  simp only [roundedMantissa_shiftRight]
  simp only [shiftRight_exact]
  rfl

/-- A rounded number is packed to its rank, also where it has one digit too many. -/
theorem toNat_pack_settle {r : Nat} {e : Int} (hleast : minExponent ≤ e)
    (hlower : e ≠ minExponent → perExponent ≤ r) (hupper : r ≤ 2 * perExponent) :
    (Float.Model.pack (settle r e)).toBits.toNat =
      min infinityRank ((e - minExponent).toNat * perExponent + r) := by
  have hpow : (0 : ℚ) < 2 ^ e := zpow_pos two_pos e
  have hpos : 0 < perExponent := by decide
  rcases Nat.eq_zero_or_pos r with rfl | hr
  · obtain rfl : e = minExponent := by
      by_contra he
      exact absurd (hlower he) (by omega)
    have hzero : settle 0 minExponent = .zero .positive := dif_pos (Nat.zero_div _)
    rw [hzero, Int.sub_self]
    rfl
  rcases hupper.lt_or_eq with hless | rfl
  · have hexponent : IsExponent (r * 2 ^ e) e := by
      refine ⟨hleast, mul_lt_mul_of_pos_right ?_ hpow, ?_⟩
      · exact_mod_cast hless
      · by_cases he : e = minExponent
        · exact .inl he
        · exact .inr (mul_le_mul_of_nonneg_right (by exact_mod_cast hlower he) hpow.le)
    have htarget : target r e = e := (isExponent_target hr.ne' e).unique hexponent
    have hsettle : settle r e = .finite .positive r e hr := by
      simp [settle, htarget, hr.ne']
    rw [hsettle]
    exact toNat_pack hr hexponent
  · have hvalue : ((2 * perExponent : Nat) : ℚ) * 2 ^ e = perExponent * 2 ^ (e + 1) := by
      rw [zpow_add_one₀ two_ne_zero]
      push_cast
      ring
    have hexponent : IsExponent (perExponent * 2 ^ (e + 1)) (e + 1) := by
      refine ⟨by omega, mul_lt_mul_of_pos_right ?_ (zpow_pos two_pos _), .inr le_rfl⟩
      exact_mod_cast (by omega : perExponent < 2 * perExponent)
    have htarget : target (2 * perExponent) e = e + 1 := by
      have hfound := isExponent_target hr.ne' e
      rw [hvalue] at hfound
      exact hfound.unique hexponent
    have hsettle : settle (2 * perExponent) e = .finite .positive perExponent (e + 1) hpos := by
      simp [settle, htarget, hpos.ne']
    have hrank : (e + 1 - minExponent).toNat * perExponent + perExponent =
        (e - minExponent).toNat * perExponent + 2 * perExponent := by
      rw [show (e + 1 - minExponent).toNat = (e - minExponent).toNat + 1 by omega]
      ring
    rw [hsettle, ← hrank]
    exact toNat_pack hpos hexponent

/-- A number of more digits than a double has is rounded to the double nearest to it. -/
theorem toNat_pack_roundWithAccuracy {m : Nat} {e : Int} (hm : m ≠ 0) (he : e ≤ target m e) :
    (Float.Model.pack
        (UnpackedFloat.roundWithAccuracy .binary64 .positive m e .exact)).toBits.toNat =
      nearestRank (quotient m e).1 (quotient m e).2 := by
  obtain ⟨hden, hquotient⟩ := quotient_eq m e
  have hexponent := isExponent_target hm e
  have hnum : (quotient m e).1 ≠ 0 := by
    intro hzero
    rw [hzero, Nat.cast_zero, zero_div, eq_comm, mul_eq_zero, Nat.cast_eq_zero] at hquotient
    exact hquotient.elim hm (zpow_ne_zero e two_ne_zero)
  rw [← hquotient] at hexponent
  have hfound : exponentFor (quotient m e).1 (quotient m e).2 = target m e :=
    (isExponent_exponentFor hnum hden).unique hexponent
  -- The units at the target are the digits that the rounding loses.
  obtain ⟨hunits, hvalue⟩ := inUnits_eq (quotient m e).1 hden (target m e)
  have hround : roundHalfEven m (2 ^ (target m e - e).toNat) =
      roundHalfEven (inUnits (quotient m e).1 (quotient m e).2 (target m e)).1
        (inUnits (quotient m e).1 (quotient m e).2 (target m e)).2 := by
    refine roundHalfEven_congr (Nat.two_pow_pos _) hunits ?_
    have hshift : (2 : ℚ) ^ (target m e - e).toNat * 2 ^ e = 2 ^ target m e := by
      rw [← zpow_natCast, ← zpow_add₀ two_ne_zero]
      congr 1
      omega
    have hcast : ((inUnits (quotient m e).1 (quotient m e).2 (target m e)).2 : ℚ) ≠ 0 :=
      Nat.cast_ne_zero.mpr hunits.ne'
    rw [hquotient, ← hshift, mul_div_mul_right _ _ (zpow_ne_zero e two_ne_zero),
      div_eq_div_iff hcast (pow_ne_zero _ two_ne_zero)] at hvalue
    exact_mod_cast hvalue.symm
  obtain ⟨hupper, hlower⟩ := roundHalfEven_inUnits hden hexponent
  have htarget : e + (target m e - e).toNat = target m e := by omega
  rw [roundWithAccuracy_eq, htarget, hround, toNat_pack_settle hexponent.least hlower hupper]
  simp only [nearestRank, if_neg hnum, hfound]

end Decimal.Binary64

end Leapfrog
