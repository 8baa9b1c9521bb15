import Leapfrog.Decimal.Digits
import Leapfrog.Proofs.NearestDouble
import Mathlib.Tactic.Positivity

/-!
# Reading decimals

A decimal is read as the double nearest to its value, and two decimals of the same value are read as
the same double. The guards against large exponents answer as the rounding of the exact value would:
past the largest double there is only infinity, and far below the smallest one only zero.
-/

namespace Leapfrog.Decimal.Binary64

/-- A decimal as a quotient. -/
theorem tenfold_eq (digits : Nat) (exponent : Int) :
    0 < (tenfold digits exponent).2 ∧
      ((tenfold digits exponent).1 : ℚ) / (tenfold digits exponent).2 = digits * 10 ^ exponent :=
  multiple_eq (b := 10) (by decide) digits exponent

/-- The nearest double depends on the value of a quotient alone. -/
theorem nearestRank_of_value {num den num' den' : Nat} (hden : 0 < den) (hden' : 0 < den')
    (h : (num / den : ℚ) = num' / den') : nearestRank num den = nearestRank num' den' := by
  refine nearestRank_congr hden hden' ?_
  rw [div_eq_div_iff (Nat.cast_ne_zero.mpr hden.ne') (Nat.cast_ne_zero.mpr hden'.ne')] at h
  exact_mod_cast h

/-- Quotients past the largest double are infinite. -/
theorem nearestRank_eq_infinityRank {num den : Nat} (hden : 0 < den)
    (h : (2 : ℚ) ^ (1024 : Int) ≤ num / den) : nearestRank num den = infinityRank := by
  have hpos : (0 : ℚ) < num / den := lt_of_lt_of_le (zpow_pos two_pos _) h
  have hnum : num ≠ 0 := by
    rintro rfl
    rw [Nat.cast_zero, zero_div] at hpos
    exact lt_irrefl _ hpos
  have hexponent := isExponent_exponentFor hnum hden
  have hleast : 972 ≤ exponentFor num den := by
    have hlt := h.trans_lt hexponent.upper
    rw [perExponent_eq, mul_assoc, ← zpow_add₀ two_ne_zero, ← zpow_one_add₀ two_ne_zero,
      zpow_lt_zpow_iff_right₀ one_lt_two] at hlt
    omega
  obtain ⟨hunits, hvalue⟩ := inUnits_eq num hden (exponentFor num den)
  have hmantissa : perExponent ≤ roundHalfEven (inUnits num den (exponentFor num den)).1
      (inUnits num den (exponentFor num den)).2 := by
    refine le_roundHalfEven hunits ?_
    by_contra hlt
    have hdiv := (Nat.div_lt_iff_lt_mul hunits).mpr (Nat.lt_of_not_le hlt)
    rw [div_inUnits_lt_iff hden] at hdiv
    rcases hexponent.lower with hmin | hlower
    · rw [hmin] at hleast
      exact absurd hleast (by decide)
    · exact absurd hdiv (not_lt.mpr hlower)
  unfold nearestRank
  rw [if_neg hnum]
  dsimp only
  refine Nat.min_eq_left ?_
  have hfield : 2046 ≤ (exponentFor num den - minExponent).toNat := by
    unfold minExponent
    omega
  have := Nat.mul_le_mul_right perExponent hfield
  unfold infinityRank
  omega

/-- Quotients far below the smallest double are zero. -/
theorem nearestRank_eq_zero {num den : Nat} (hden : 0 < den)
    (h : (num / den : ℚ) < 2 ^ (-1075 : Int)) : nearestRank num den = 0 := by
  unfold nearestRank
  split
  · rfl
  next hnum =>
  have hexponent := isExponent_exponentFor hnum hden
  have hleast : exponentFor num den = minExponent := by
    refine hexponent.lower.resolve_right fun hlower => ?_
    have hlt := hlower.trans_lt h
    rw [perExponent_eq, ← zpow_add₀ two_ne_zero, zpow_lt_zpow_iff_right₀ one_lt_two] at hlt
    have := hexponent.least
    unfold minExponent at this
    omega
  obtain ⟨hunits, hvalue⟩ := inUnits_eq num hden minExponent
  have hcast : (0 : ℚ) < (inUnits num den minExponent).2 := Nat.cast_pos.mpr hunits
  have hlt : ((inUnits num den minExponent).1 : ℚ) / (inUnits num den minExponent).2 < 2⁻¹ := by
    rw [hvalue, div_lt_iff₀ (zpow_pos two_pos _), ← zpow_neg_one, ← zpow_add₀ two_ne_zero]
    exact h
  have hhalf : 2 * (inUnits num den minExponent).1 < (inUnits num den minExponent).2 := by
    rw [div_lt_iff₀ hcast, ← div_eq_inv_mul, lt_div_iff₀ two_pos, mul_comm] at hlt
    exact_mod_cast hlt
  have hquotient : (inUnits num den minExponent).1 / (inUnits num den minExponent).2 = 0 :=
    Nat.div_eq_of_lt (by omega)
  have hround : roundHalfEven (inUnits num den minExponent).1 (inUnits num den minExponent).2 = 0 := by
    unfold roundHalfEven
    dsimp only
    rw [Nat.mod_eq_of_lt (by omega), if_pos hhalf, hquotient]
  rw [hleast]
  dsimp only
  rw [hround]
  rfl

/-- The guards against large exponents lie beyond all doubles. -/
theorem two_pow_le_ten_pow : (2 : ℚ) ^ (1088 : Int) ≤ 10 ^ (400 : Int) :=
  calc (2 : ℚ) ^ (1088 : Int) = (2 ^ 68) ^ 16 := by
        rw [← pow_mul]
        exact zpow_natCast 2 1088
    _ ≤ (10 ^ 25) ^ 16 := by
        gcongr
        norm_num
    _ = 10 ^ (400 : Int) := by
        rw [← pow_mul]
        exact (zpow_natCast 10 400).symm

/-- A decimal is read as the double nearest to it. -/
theorem rankOfDecimal_eq (digits : Nat) (exponent : Int) :
    rankOfDecimal digits exponent =
      nearestRank (tenfold digits exponent).1 (tenfold digits exponent).2 := by
  obtain ⟨hden, hvalue⟩ := tenfold_eq digits exponent
  have hten : (1 : ℚ) ≤ 10 := by norm_num
  unfold rankOfDecimal
  -- Behind each guard the value is past the doubles, where its rounding is known.
  split
  · next hzero =>
    rw [hzero, Nat.cast_zero, zero_mul] at hvalue
    rw [nearestRank_eq_zero hden]
    rw [hzero, hvalue]
    exact zpow_pos two_pos _
  · next hdigits =>
    split
    · next hlarge =>
      rw [nearestRank_eq_infinityRank hden]
      rw [hvalue]
      calc (2 : ℚ) ^ (1024 : Int) ≤ 2 ^ (1088 : Int) := zpow_le_zpow_right₀ one_le_two (by decide)
        _ ≤ 10 ^ (400 : Int) := two_pow_le_ten_pow
        _ ≤ 10 ^ exponent := zpow_le_zpow_right₀ hten hlarge.le
        _ ≤ digits * 10 ^ exponent := le_mul_of_one_le_left (by positivity)
          (by exact_mod_cast Nat.pos_of_ne_zero hdigits)
    · split
      · next hsmall =>
        rw [nearestRank_eq_zero hden]
        rw [hvalue]
        calc (digits : ℚ) * 10 ^ exponent
            < 2 ^ ((digits.log2 : Int) + 1) * 10 ^ exponent :=
              mul_lt_mul_of_pos_right (lt_two_pow_log2 digits) (by positivity)
          _ ≤ 10 ^ ((digits.log2 : Int) + 1) * 10 ^ exponent :=
              mul_le_mul_of_nonneg_right (zpow_le_zpow_left₀ (by omega) (by norm_num) (by norm_num))
                (by positivity)
          _ = 10 ^ ((digits.log2 : Int) + 1 + exponent) := (zpow_add₀ (by norm_num) _ _).symm
          _ ≤ 10 ^ (-400 : Int) := zpow_le_zpow_right₀ hten (by omega)
          _ ≤ 2 ^ (-1088 : Int) := by
              rw [zpow_neg, zpow_neg]
              exact inv_anti₀ (zpow_pos two_pos _) two_pow_le_ten_pow
          _ ≤ 2 ^ (-1075 : Int) := zpow_le_zpow_right₀ one_le_two (by decide)
      · rfl

/-- A decimal with the value of a quotient is read as the double nearest to the quotient. -/
theorem rankOfDecimal_of_value {digits num den : Nat} {exponent : Int} (hden : 0 < den)
    (h : (digits : ℚ) * 10 ^ exponent = num / den) :
    rankOfDecimal digits exponent = nearestRank num den := by
  obtain ⟨hpos, hvalue⟩ := tenfold_eq digits exponent
  rw [rankOfDecimal_eq]
  exact nearestRank_of_value hpos hden (hvalue.trans h)

/-- Decimals of the same value are read as the same double. -/
theorem rankOfDecimal_congr {digits digits' : Nat} {exponent exponent' : Int}
    (h : (digits : ℚ) * 10 ^ exponent = digits' * 10 ^ exponent') :
    rankOfDecimal digits exponent = rankOfDecimal digits' exponent' := by
  obtain ⟨hpos, hvalue⟩ := tenfold_eq digits' exponent'
  rw [rankOfDecimal_eq digits']
  exact rankOfDecimal_of_value hpos (h.trans hvalue.symm)

end Leapfrog.Decimal.Binary64
