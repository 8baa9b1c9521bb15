import Leapfrog.Proofs.RoundedMantissas

/-!
# Rounded products

The product of two positive doubles is the double nearest to the exact product. As doubles without a
sign are in the order of their ranks, a product with a factor that does not lie below zero does not
become smaller when the other factor grows, even where it is rounded to infinity or to zero.
-/

namespace Leapfrog

open Float.Model
open Float.Model.UnpackedFloat (Sign unpackExponent unpackMantissa)

namespace Decimal.Binary64

/-- The mantissa of a normal double begins with a digit that is not stored. -/
theorem toNat_leading (fraction : BitVec 52) :
    (1#1 ++ fraction).toNat = perExponent + fraction.toNat := by
  rw [BitVec.toNat_append, ← Nat.shiftLeft_add_eq_or_of_lt fraction.isLt]
  rfl

/-- The magnitude of a finite double is a whole number of units at its exponent. -/
theorem isExponent_unpack {x : Float} {sign : Sign} {m : Nat} {e : Int} {hm : 0 < m}
    (h : x.toModel.unpack = .finite sign m e hm) : IsExponent (m * 2 ^ e) e := by
  have hfraction : (@unpackMantissa .binary64 x.toBits.toBitVec).toNat < perExponent :=
    (@unpackMantissa .binary64 x.toBits.toBitVec).isLt
  have hscale {m : Nat} {e : Int} (hm : m < 2 * perExponent) :
      (m : ℚ) * 2 ^ e < 2 * perExponent * 2 ^ e :=
    mul_lt_mul_of_pos_right (by exact_mod_cast hm) (zpow_pos two_pos e)
  change UnpackedFloat.unpack .binary64 x.toBits.toBitVec = _ at h
  unfold UnpackedFloat.unpack at h
  dsimp only at h
  split at h
  · split at h
    · cases h
    · cases h
  · split at h
    · next hfield =>
      split at h
      · cases h
      · obtain ⟨-, rfl, rfl⟩ := UnpackedFloat.finite.injEq .. ▸ h
        rw [hfield]
        exact ⟨le_rfl, hscale (by omega), .inl rfl⟩
    · next hfield =>
      obtain ⟨-, rfl, rfl⟩ := UnpackedFloat.finite.injEq .. ▸ h
      have hpos : (@unpackExponent .binary64 x.toBits.toBitVec).toNat ≠ 0 := fun hzero =>
        hfield (BitVec.eq_of_toNat_eq hzero)
      refine ⟨?_, hscale ?_, .inr ?_⟩
      · change -1074 ≤ ((@unpackExponent .binary64 x.toBits.toBitVec).toNat : Int) - (1023 + 52)
        omega
      · rw [toNat_leading]
        omega
      · refine mul_le_mul_of_nonneg_right ?_ (zpow_pos two_pos _).le
        rw [toNat_leading]
        exact_mod_cast Nat.le_add_right _ _

/-- The product of two positive doubles is the double nearest to the exact product. -/
theorem toNat_toBits_mul {x y : Float} {m m' : Nat} {e e' : Int} {hm : 0 < m} {hm' : 0 < m'}
    (hx : x.toModel.unpack = .finite .positive m e hm)
    (hy : y.toModel.unpack = .finite .positive m' e' hm') :
    (x * y).toBits.toNat =
      nearestRank (quotient (m * m') (e + e')).1 (quotient (m * m') (e + e')).2 := by
  have hproduct : x * y = Float.ofModel (Float.Model.pack
      (UnpackedFloat.mul .binary64 x.toModel.unpack y.toModel.unpack)) := rfl
  have hlong {m m' : Nat} {e : Int} (hm : 0 < m) (hm' : 0 < m') (h : perExponent ≤ m) :
      e ≤ target (m * m') e := by
    have hdigits : 52 ≤ (m * m').log2 :=
      (Nat.le_log2 (Nat.mul_pos hm hm').ne').mpr (h.trans (Nat.le_mul_of_pos_right m hm'))
    change e ≤ max (((m * m').log2 : Int) + 1 + e - 53) (-1074)
    omega
  rw [hproduct, hx, hy]
  refine toNat_pack_roundWithAccuracy (Nat.mul_pos hm hm').ne' ?_
  have hdigits {m : Nat} {e : Int} (h : IsExponent (m * 2 ^ e) e) :
      e = minExponent ∨ perExponent ≤ m :=
    h.lower.imp_right fun hlower => by
      exact_mod_cast le_of_mul_le_mul_right hlower (zpow_pos two_pos e)
  -- Only factors that are both below the normal ones could have a product of too few digits.
  rcases hdigits (isExponent_unpack hx) with rfl | hleft
  · rcases hdigits (isExponent_unpack hy) with rfl | hright
    · refine le_trans ?_ (isExponent_target (Nat.mul_pos hm hm').ne' _).least
      decide
    · rw [Nat.mul_comm]
      exact hlong hm' hm hright
  · exact hlong hm hm' hleft

/-- The place of a double without a sign, by its rank. -/
def placeOf (rank : Nat) : Int ×ₗ Int ×ₗ Int :=
  if rank = 0 then toLex (0, toLex (0, 0))
  else if rank = infinityRank then toLex (2, toLex (0, 0))
  else toLex (1, toLex ((ofRank rank).2, ((ofRank rank).1 : Int)))

/-- A higher rank has no lower exponent, and at the same exponent no smaller mantissa. -/
theorem ofRank_mono {rank rank' : Nat} (h : rank ≤ rank') :
    (ofRank rank).2 < (ofRank rank').2 ∨
      (ofRank rank).2 = (ofRank rank').2 ∧ (ofRank rank).1 ≤ (ofRank rank').1 := by
  unfold ofRank perExponent
  dsimp only
  split
  · split <;> dsimp only <;> omega
  · rw [if_neg (by omega)]
    dsimp only
    omega

/-- A higher rank has no lower place. -/
theorem placeOf_mono {rank rank' : Nat} (h : rank ≤ rank') (h' : rank' ≤ infinityRank) :
    placeOf rank ≤ placeOf rank' := by
  have horder := ofRank_mono h
  unfold placeOf
  split
  · split <;> [skip; split] <;> simp [Prod.Lex.le_iff]
  · rw [if_neg (by omega : ¬ rank' = 0)]
    split
    · rw [if_pos (by omega : rank' = infinityRank)]
    · split
      · simp [Prod.Lex.le_iff]
      · simpa [Prod.Lex.le_iff] using horder

/-- A rank is no more than infinity where the sign bit is not set. -/
theorem unpackSign_eq_positive {bits : UInt64} (h : bits.toNat ≤ infinityRank) :
    @UnpackedFloat.unpackSign .binary64 bits.toBitVec = Sign.toBitVec .positive := by
  apply BitVec.eq_of_toNat_eq
  change (bits.toBitVec.extractLsb 63 63).toNat = 0
  rw [BitVec.extractLsb_toNat, Nat.shiftRight_eq_div_pow]
  change bits.toNat / signBit % 2 = 0
  rw [Nat.div_eq_of_lt (h.trans_lt (by decide))]

/-- A double without a sign has the place of its rank. -/
theorem place?_eq {x : Float} (h : x.toBits.toNat ≤ infinityRank) :
    Float.place? x = some (placeOf x.toBits.toNat) := by
  have hmod : x.toBits.toNat % signBit = x.toBits.toNat := by
    refine Nat.mod_eq_of_lt (h.trans_lt ?_)
    decide
  have hpositive : Sign.ofBitVec (Sign.toBitVec .positive) = .positive := rfl
  have hinfinite := unpackExponent_eq_neg_one_iff x.toBits
  have hfield := toNat_unpackExponent x.toBits
  have hfraction := toNat_unpackMantissa x.toBits
  have hparts := Nat.div_add_mod x.toBits.toNat perExponent
  rw [hmod] at hinfinite
  change place? (UnpackedFloat.unpack .binary64 x.toBits.toBitVec) = _
  unfold UnpackedFloat.unpack
  dsimp only
  rw [unpackSign_eq_positive h, hpositive]
  split
  · next hlast =>
    obtain hrank : x.toBits.toNat = infinityRank := le_antisymm h (hinfinite.mp hlast)
    have hzero : @unpackMantissa .binary64 x.toBits.toBitVec = 0#52 := by
      apply BitVec.eq_of_toNat_eq
      rw [hfraction, hrank]
      rfl
    rw [if_pos hzero, hrank]
    rfl
  · next hlast =>
    have hfinite : x.toBits.toNat < infinityRank :=
      lt_of_le_of_ne h fun hrank => hlast (hinfinite.mpr hrank.ge)
    have hquotient : x.toBits.toNat / perExponent < 2047 :=
      Nat.div_lt_of_lt_mul (by rwa [Nat.mul_comm])
    rw [Nat.mod_eq_of_lt (by omega)] at hfield
    split
    · next hfirst =>
      rw [hfirst] at hfield
      change 0 = _ at hfield
      rw [← hfield, Nat.mul_zero, Nat.zero_add] at hparts
      split
      · next hzero =>
        rw [hzero, hparts] at hfraction
        change 0 = _ at hfraction
        rw [placeOf, if_pos hfraction.symm]
        rfl
      · next hpos =>
        have hne : x.toBits.toNat ≠ 0 := fun hzero => hpos <| by
          apply BitVec.eq_of_toNat_eq
          rw [hfraction, hzero]
          rfl
        rw [placeOf, if_neg hne, if_neg hfinite.ne, ofRank, if_pos hfield.symm, ← hfraction,
          hfirst]
        rfl
    · next hfirst =>
      have hpos : x.toBits.toNat / perExponent ≠ 0 := fun hzero => hfirst <| by
        apply BitVec.eq_of_toNat_eq
        rw [hfield, hzero]
        rfl
      have hne : x.toBits.toNat ≠ 0 := by
        intro hzero
        rw [hzero, Nat.zero_div] at hpos
        exact hpos rfl
      have hexponent : minExponent + ((x.toBits.toNat / perExponent : Nat) - 1 : Int) =
          (x.toBits.toNat / perExponent : Nat) - (1023 + 52 : Int) := by
        unfold minExponent
        omega
      simp only [place?, toNat_leading, hfield, hfraction]
      rw [placeOf, if_neg hne, if_neg hfinite.ne, ofRank, if_neg hpos, hexponent]
      rfl

/-- Doubles without a sign are in the order of their ranks. -/
theorem le_of_toNat_toBits {x y : Float} (h : x.toBits.toNat ≤ y.toBits.toNat)
    (h' : y.toBits.toNat ≤ infinityRank) : Scalar.le x y = true :=
  le_iff_place?.mpr ⟨_, _, place?_eq (h.trans h'), place?_eq h', placeOf_mono h h'⟩

/-- What has no smaller place has no smaller magnitude. -/
theorem magnitude_le {m m' : Nat} {e e' : Int} (h : IsExponent (m * 2 ^ e) e)
    (h' : IsExponent (m' * 2 ^ e') e') (hplace : e < e' ∨ e = e' ∧ m ≤ m') :
    (m * 2 ^ e : ℚ) ≤ m' * 2 ^ e' := by
  rcases hplace with hless | ⟨rfl, hm⟩
  · exact (h.lt_of_lt h' hless).le
  · exact mul_le_mul_of_nonneg_right (by exact_mod_cast hm) (zpow_pos two_pos e).le

end Decimal.Binary64

/-- A product with zero is zero. -/
theorem place?_mul_zero {u v : UnpackedFloat} (hu : IsNonnegative u) (hv : IsNonnegative v)
    (hfinite : u.isFinite = true) (hfinite' : v.isFinite = true)
    (h : (∃ sign, u = .zero sign) ∨ ∃ sign, v = .zero sign) :
    place? (Float.Model.pack (UnpackedFloat.mul .binary64 u v)).unpack =
      some (toLex (0, toLex (0, 0))) := by
  have hzero (sign : Sign) : place? (Float.Model.pack (.zero sign)).unpack =
      some (toLex (0, toLex (0, 0))) := by
    cases sign <;> rfl
  rcases h with ⟨sign, rfl⟩ | ⟨sign, rfl⟩
  · rcases hv.cases hfinite' with ⟨sign', rfl⟩ | ⟨m, e, hm, rfl⟩ <;> exact hzero _
  · rcases hu.cases hfinite with ⟨sign', rfl⟩ | ⟨m, e, hm, rfl⟩ <;> exact hzero _

open Decimal.Binary64 in
/-- A product with a factor that does not lie below zero does not become smaller when the other
factor grows. -/
theorem Scalar.mul_le_mul_left {x a b : Float} (hx : le (ofInt 0) x = true)
    (ha : le (ofInt 0) a = true) (hle : le a b = true) (hxfinite : x.isFinite = true)
    (hafinite : a.isFinite = true) (hbfinite : b.isFinite = true) :
    le (x * a) (x * b) = true := by
  have hb := le_trans ha hle
  have hproduct := zero_le_mul hx hb hxfinite hbfinite
  rw [zero_le_iff] at hx ha hb hproduct
  by_cases hzero : (∃ sign, x.toModel.unpack = .zero sign) ∨ ∃ sign, a.toModel.unpack = .zero sign
  · obtain ⟨p, hp, hpos⟩ := hproduct
    exact le_iff_place?.mpr ⟨_, p, place?_mul_zero hx ha hxfinite hafinite hzero, hp, hpos⟩
  rw [not_or] at hzero
  obtain ⟨m, e, hm, hux⟩ := (hx.cases hxfinite).resolve_left hzero.1
  obtain ⟨ma, ea, hma, hua⟩ := (ha.cases hafinite).resolve_left hzero.2
  obtain ⟨p, q, hp, hq, hpq⟩ := le_iff_place?.mp hle
  rw [Float.place?, hua] at hp
  obtain rfl := Option.some.inj hp
  rcases hb.cases hbfinite with ⟨sign, hub⟩ | ⟨mb, eb, hmb, hub⟩
  · rw [Float.place?, hub] at hq
    obtain rfl := Option.some.inj hq
    simp [Prod.Lex.le_iff] at hpq
  · rw [Float.place?, hub] at hq
    obtain rfl := Option.some.inj hq
    have hplace : ea < eb ∨ ea = eb ∧ ma ≤ mb := by simpa [Prod.Lex.le_iff] using hpq
    have hmagnitude := magnitude_le (isExponent_unpack hua) (isExponent_unpack hub) hplace
    have hfactor : (0 : ℚ) ≤ m * 2 ^ e := by positivity
    obtain ⟨hden, hvalue⟩ := quotient_eq (m * ma) (e + ea)
    obtain ⟨hden', hvalue'⟩ := quotient_eq (m * mb) (e + eb)
    refine le_of_toNat_toBits ?_ ?_
    · rw [toNat_toBits_mul hux hua, toNat_toBits_mul hux hub]
      refine nearestRank_mono hden hden' ?_
      have hsplit (k : Nat) (f : Int) : ((m * k : Nat) : ℚ) * 2 ^ (e + f) =
          m * 2 ^ e * (k * 2 ^ f) := by
        rw [zpow_add₀ two_ne_zero]
        push_cast
        ring
      rw [hvalue, hvalue', hsplit, hsplit]
      exact mul_le_mul_of_nonneg_left hmagnitude hfactor
    · rw [toNat_toBits_mul hux hub]
      exact nearestRank_le _ _

end Leapfrog
