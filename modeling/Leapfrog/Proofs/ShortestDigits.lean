import Leapfrog.Proofs.DecimalValue

/-!
# The digits of a double

The digits that are written for a positive double are a proper row, the first digit not zero, and they
are read as the same double. A row is taken only if it is read so, and all digits of a double have its
exact value.
-/

namespace Leapfrog.Decimal

/-- A number has at least one digit. -/
theorem digitCount_pos (n : Nat) : 0 < digitCount n := Nat.length_toDigits_pos

/-- How many digits a number has at most. -/
theorem digitCount_le_iff {n k : Nat} (hk : 0 < k) : digitCount n ≤ k ↔ n < 10 ^ k :=
  Nat.length_toDigits_le_iff (by decide) hk

/-- A number is below the power of ten with one digit more. -/
theorem lt_pow_digitCount (n : Nat) : n < 10 ^ digitCount n :=
  (digitCount_le_iff (digitCount_pos n)).mp (Nat.le_refl _)

/-- A number is at least the power of ten with as many digits. -/
theorem pow_digitCount_le {n : Nat} (hn : n ≠ 0) : 10 ^ (digitCount n - 1) ≤ n := by
  rcases Nat.eq_or_lt_of_le (digitCount_pos n) with hone | hmore
  · rw [← hone]
    exact Nat.pos_of_ne_zero hn
  · by_contra hlt
    have hle := (digitCount_le_iff (by omega)).mpr (Nat.lt_of_not_le hlt)
    omega

/-- The power of ten of the first digit of a quotient. -/
structure IsLeading (q : ℚ) (e : Int) : Prop where
  least : (10 : ℚ) ^ e ≤ q
  below : q < 10 ^ (e + 1)

namespace Digits

/-- A power of ten is reached or not, on either side of the point. -/
theorem reached_iff {num den : Nat} (hden : 0 < den) (gap : Int) :
    (if 0 ≤ gap then decide (den * Nat.pow 10 gap.toNat ≤ num)
      else decide (den ≤ num * Nat.pow 10 (-gap).toNat)) = true ↔ (10 : ℚ) ^ gap ≤ num / den := by
  have hpow : ((10 ^ gap.toNat : Nat) : ℚ) = (10 : ℚ) ^ gap * (10 ^ (-gap).toNat : Nat) :=
    natPow_eq (by decide) gap
  have hcast : (0 : ℚ) < den := Nat.cast_pos.mpr hden
  simp only [Nat.pow_eq]
  rw [le_div_iff₀ hcast]
  split
  · next hgap =>
    have hneg : (-gap).toNat = 0 := by omega
    rw [hneg, pow_zero, Nat.cast_one, mul_one] at hpow
    rw [decide_eq_true_iff, ← hpow, mul_comm]
    exact_mod_cast Iff.rfl
  · next hgap =>
    have hpos : gap.toNat = 0 := by omega
    have hten : (0 : ℚ) < (10 ^ (-gap).toNat : Nat) := Nat.cast_pos.mpr (Nat.pow_pos (by decide))
    rw [hpos, pow_zero, Nat.cast_one] at hpow
    rw [decide_eq_true_iff, ← mul_le_mul_iff_left₀ hten, mul_right_comm, ← hpow, one_mul]
    exact_mod_cast Iff.rfl

/-- The numbers of digits tell the exponent of the first digit up to one. -/
theorem leadingExponent_eq {num den : Nat} (hden : 0 < den) :
    leadingExponent num den =
      if (10 : ℚ) ^ ((digitCount num : Int) - digitCount den) ≤ num / den then
        (digitCount num : Int) - digitCount den
      else (digitCount num : Int) - digitCount den - 1 := by
  unfold leadingExponent
  exact if_congr (reached_iff hden _) rfl rfl

/-- The exponent of the first digit of a quotient. -/
theorem isLeading_leadingExponent {num den : Nat} (hnum : num ≠ 0) (hden : 0 < den) :
    IsLeading (num / den) (leadingExponent num den) := by
  have hcast : (0 : ℚ) < den := Nat.cast_pos.mpr hden
  have hten : (10 : ℚ) ≠ 0 := by norm_num
  have hlow {n : Nat} (hn : n ≠ 0) : (10 : ℚ) ^ ((digitCount n : Int) - 1) ≤ n := by
    have hpos := digitCount_pos n
    have hexponent : (digitCount n : Int) - 1 = (digitCount n - 1 : Nat) := by omega
    rw [hexponent, zpow_natCast]
    exact_mod_cast pow_digitCount_le hn
  have hhigh (n : Nat) : (n : ℚ) < 10 ^ (digitCount n : Int) := by
    rw [zpow_natCast]
    exact_mod_cast lt_pow_digitCount n
  rw [leadingExponent_eq hden]
  split
  · next hreached =>
    refine ⟨hreached, ?_⟩
    rw [div_lt_iff₀ hcast]
    calc (num : ℚ) < 10 ^ (digitCount num : Int) := hhigh num
      _ = 10 ^ ((digitCount num : Int) - digitCount den + 1) * 10 ^ ((digitCount den : Int) - 1) := by
        rw [← zpow_add₀ hten]
        congr 1
        omega
      _ ≤ 10 ^ ((digitCount num : Int) - digitCount den + 1) * den :=
        mul_le_mul_of_nonneg_left (hlow hden.ne') (by positivity)
  · next hbelow =>
    constructor
    · rw [le_div_iff₀ hcast]
      calc (10 : ℚ) ^ ((digitCount num : Int) - digitCount den - 1) * den
          ≤ 10 ^ ((digitCount num : Int) - digitCount den - 1) * 10 ^ (digitCount den : Int) :=
            mul_le_mul_of_nonneg_left (hhigh den).le (by positivity)
        _ = 10 ^ ((digitCount num : Int) - 1) := by
          rw [← zpow_add₀ hten]
          congr 1
          omega
        _ ≤ num := hlow hnum
    · rw [Int.sub_add_cancel]
      exact not_le.mp hbelow

/-- A quotient in units of a power of ten. -/
theorem inTens_eq (num : Nat) {den : Nat} (hden : 0 < den) (unit : Int) :
    0 < (inTens num den unit).2 ∧
      ((inTens num den unit).1 : ℚ) / (inTens num den unit).2 = num / den / 10 ^ unit :=
  scaled_eq (b := 10) (by decide) num hden unit

/-- The power of ten that the last digit of a row stands for. -/
def unit (d : Digits) : Int := d.exponent + 1 - d.places

/-- A row with as many digits as it has places. -/
structure IsProper (d : Digits) : Prop where
  pos : 0 < d.places
  least : 10 ^ (d.places - 1) ≤ d.significand
  below : d.significand < 10 ^ d.places

/-- A proper row has no digits but those of its places. -/
theorem IsProper.digitCount_eq {d : Digits} (h : d.IsProper) : digitCount d.significand = d.places := by
  have hmost := (digitCount_le_iff h.pos).mpr h.below
  have hleast := h.least.trans_lt (lt_pow_digitCount d.significand)
  rw [Nat.pow_lt_pow_iff_right (by decide)] at hleast
  omega

/-- Units that fill the places, or carry into one more, are a proper row of the same value. -/
theorem ofUnits_spec {n places : Nat} (unit : Int) (hpos : 0 < places)
    (hleast : 10 ^ (places - 1) ≤ n) (hmost : n ≤ 10 ^ places) :
    (ofUnits n places unit).IsProper ∧
      ((ofUnits n places unit).significand : ℚ) * 10 ^ (ofUnits n places unit).unit =
        n * 10 ^ unit := by
  unfold ofUnits
  simp only [Nat.pow_eq]
  split
  · next hcarry =>
    refine ⟨⟨hpos, Nat.le_refl _, Nat.pow_lt_pow_right (by decide) (Nat.sub_one_lt hpos.ne')⟩, ?_⟩
    have hexponent : unit + places + 1 - places = 1 + unit := by omega
    rw [Digits.unit, hexponent, zpow_one_add₀ (by norm_num), hcarry, ← mul_assoc]
    congr 1
    exact_mod_cast Nat.pow_pred_mul hpos
  · next hkept =>
    refine ⟨⟨hpos, hleast, Nat.lt_of_le_of_ne hmost hkept⟩, ?_⟩
    have hexponent : unit + places - 1 + 1 - places = unit := by omega
    rw [Digits.unit, hexponent]

/-- A proper row of digits that is read as the double of a rank. -/
structure Spells (d : Digits) (rank : Nat) : Prop extends d.IsProper where
  reads : Binary64.rankOfDecimal d.significand d.unit = rank

/-- Units that are read as a double are digits that spell it. -/
theorem spells_ofUnits {n places rank : Nat} {unit : Int} (hpos : 0 < places)
    (hleast : 10 ^ (places - 1) ≤ n) (hmost : n ≤ 10 ^ places)
    (hreads : (Binary64.rankOfDecimal n unit == rank) = true) :
    (ofUnits n places unit).Spells rank := by
  obtain ⟨hproper, hvalue⟩ := ofUnits_spec unit hpos hleast hmost
  exact ⟨hproper, (Binary64.rankOfDecimal_congr hvalue).trans (beq_iff_eq.mp hreads)⟩

/-- In units of its last place, a quotient has as many digits as there are places. -/
theorem inTens_bounds {num den places : Nat} {leading : Int} (hden : 0 < den)
    (hleading : IsLeading (num / den) leading) (hpos : 0 < places) :
    0 < (inTens num den (leading - (places - 1 : Nat))).2 ∧
      10 ^ (places - 1) * (inTens num den (leading - (places - 1 : Nat))).2 ≤
        (inTens num den (leading - (places - 1 : Nat))).1 ∧
      (inTens num den (leading - (places - 1 : Nat))).1 <
        10 ^ places * (inTens num den (leading - (places - 1 : Nat))).2 := by
  have hten : (10 : ℚ) ≠ 0 := by norm_num
  have hscale : (0 : ℚ) < 10 ^ (leading - (places - 1 : Nat)) := zpow_pos (by norm_num) _
  obtain ⟨hunits, hvalue⟩ := inTens_eq num hden (leading - (places - 1 : Nat))
  have hcast : (0 : ℚ) < (inTens num den (leading - (places - 1 : Nat))).2 := Nat.cast_pos.mpr hunits
  have hpower (k : Nat) (e : Int) : (10 : ℚ) ^ k * 10 ^ e = 10 ^ (k + e) := by
    rw [← zpow_natCast, ← zpow_add₀ hten]
  have hleast : (10 : ℚ) ^ (places - 1) ≤
      (inTens num den (leading - (places - 1 : Nat))).1 /
        (inTens num den (leading - (places - 1 : Nat))).2 := by
    rw [hvalue, le_div_iff₀ hscale, hpower, add_sub_cancel]
    exact hleading.least
  have hbelow : ((inTens num den (leading - (places - 1 : Nat))).1 : ℚ) /
      (inTens num den (leading - (places - 1 : Nat))).2 < 10 ^ places := by
    have hexponent : (places : Int) + (leading - (places - 1 : Nat)) = leading + 1 := by omega
    rw [hvalue, div_lt_iff₀ hscale, hpower, hexponent]
    exact hleading.below
  rw [le_div_iff₀ hcast] at hleast
  rw [div_lt_iff₀ hcast] at hbelow
  exact ⟨hunits, by exact_mod_cast hleast, by exact_mod_cast hbelow⟩

/-- Digits are taken only if they spell the double. -/
theorem spells_of_readingBack? {rank num den places : Nat} {leading : Int} {d : Digits}
    (hden : 0 < den) (hleading : IsLeading (num / den) leading) (hpos : 0 < places)
    (h : readingBack? rank num den leading places = some d) : d.Spells rank := by
  obtain ⟨hunits, hleast, hbelow⟩ := inTens_bounds hden hleading hpos
  have hquotient := (Nat.le_div_iff_mul_le hunits).mpr hleast
  have hquotient' := (Nat.div_lt_iff_lt_mul hunits).mpr hbelow
  have hnearer := Binary64.le_roundHalfEven hunits hleast
  have hnearer' := Binary64.roundHalfEven_le hunits hbelow.le
  unfold readingBack? at h
  dsimp only at h
  split at h
  · next hreads =>
    obtain rfl := Option.some_inj.mp h
    exact spells_ofUnits hpos hnearer hnearer' hreads
  · obtain ⟨hreads, hd⟩ := Option.ite_none_right_eq_some.mp h
    obtain rfl := Option.some_inj.mp hd
    refine spells_ofUnits hpos ?_ ?_ hreads
    · split <;> omega
    · split <;> omega

/-- All digits of a positive double spell it. -/
theorem spells_exact {m : Nat} (hm : m ≠ 0) (e : Int) :
    (exact m e).Spells
      (Binary64.nearestRank (Binary64.quotient m e).1 (Binary64.quotient m e).2) := by
  obtain ⟨hden, hquotient⟩ := Binary64.quotient_eq m e
  have hproper {n : Nat} (hn : n ≠ 0) (unit : Int) :
      (⟨n, digitCount n, unit + digitCount n - 1⟩ : Digits).IsProper :=
    ⟨digitCount_pos n, pow_digitCount_le hn, lt_pow_digitCount n⟩
  have hunit (n : Nat) (unit : Int) :
      (⟨n, digitCount n, unit + digitCount n - 1⟩ : Digits).unit = unit := by
    change unit + digitCount n - 1 + 1 - digitCount n = unit
    omega
  unfold exact
  simp only [Nat.pow_eq]
  split
  · next he =>
    have hn : m <<< e.toNat ≠ 0 := by
      rw [Nat.shiftLeft_eq]
      exact Nat.mul_ne_zero hm (Nat.two_pow_pos _).ne'
    refine ⟨hproper hn 0, ?_⟩
    rw [hunit, Binary64.rankOfDecimal_of_value hden]
    rw [hquotient, zpow_zero, mul_one, Nat.shiftLeft_eq]
    push_cast
    rw [← zpow_natCast, Int.toNat_of_nonneg he]
  · next he =>
    have hn : m * 5 ^ (-e).toNat ≠ 0 := Nat.mul_ne_zero hm (Nat.pow_pos (by decide)).ne'
    refine ⟨hproper hn e, ?_⟩
    rw [hunit, Binary64.rankOfDecimal_of_value hden]
    have hexponent : e = -((-e).toNat : Int) := by omega
    have hten : (10 : ℚ) = 5 * 2 := by norm_num
    rw [hquotient]
    push_cast
    rw [mul_assoc, hten, mul_zpow, ← mul_assoc ((5 : ℚ) ^ (-e).toNat), ← zpow_natCast,
      ← zpow_add₀ (by norm_num : (5 : ℚ) ≠ 0), Int.toNat_of_nonneg (by omega), neg_add_cancel,
      zpow_zero, one_mul]

/-- The digits that are written for a positive double spell it. -/
theorem spells_shortest {m : Nat} (hm : m ≠ 0) (e : Int) :
    (shortest m e).Spells
      (Binary64.nearestRank (Binary64.quotient m e).1 (Binary64.quotient m e).2) := by
  obtain ⟨hden, hquotient⟩ := Binary64.quotient_eq m e
  have hnum : (Binary64.quotient m e).1 ≠ 0 := by
    intro hzero
    rw [hzero, Nat.cast_zero, zero_div, eq_comm, mul_eq_zero, Nat.cast_eq_zero] at hquotient
    exact hquotient.elim hm (zpow_ne_zero e two_ne_zero)
  have hleading := isLeading_leadingExponent hnum hden
  -- Which numbers of places are tried makes no difference: a row is taken only if it is read back.
  have hspells (places : List Nat) (hplaces : ∀ k ∈ places, 0 < k) :
      ((places.findSome? (readingBack?
        (Binary64.nearestRank (Binary64.quotient m e).1 (Binary64.quotient m e).2)
        (Binary64.quotient m e).1 (Binary64.quotient m e).2
        (leadingExponent (Binary64.quotient m e).1 (Binary64.quotient m e).2))).getD
          (exact m e)).Spells
        (Binary64.nearestRank (Binary64.quotient m e).1 (Binary64.quotient m e).2) := by
    cases hfound : places.findSome? _ with
    | none => exact spells_exact hm e
    | some d =>
      obtain ⟨k, hk, hd⟩ := List.exists_of_findSome?_eq_some hfound
      exact spells_of_readingBack? hden hleading (hplaces k hk) hd
  unfold shortest
  refine hspells _ fun k hk => ?_
  split at hk
  · exact (List.mem_range'_1.mp hk).1
  · simp only [List.mem_cons, List.not_mem_nil, or_false] at hk
    omega

end Digits

end Leapfrog.Decimal
