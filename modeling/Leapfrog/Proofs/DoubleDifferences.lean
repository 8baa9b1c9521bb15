import Leapfrog.Mismatch
import Leapfrog.Proofs.UnsignedDoubles

/-!
# Differences of doubles

The distance between two doubles is the same from either side: the two differences have one
magnitude, whatever is rounded, and a magnitude is packed alike under both signs. The distance of a
double from itself is zero if it is finite and not a number otherwise, so a bound that does not lie
below zero holds it back exactly if it is not finite.
-/

namespace Leapfrog

open Float.Model
open Float.Model.UnpackedFloat (Sign Accuracy unpackExponent unpackMantissa)

/-- Numbers are rounded alike under both signs. -/
theorem abs_roundWithAccuracy (sign : Sign) (m : Nat) (e : Int) (accuracy : Accuracy) :
    (UnpackedFloat.roundWithAccuracy .binary64 sign m e accuracy).abs =
      UnpackedFloat.roundWithAccuracy .binary64 .positive m e accuracy := by
  unfold UnpackedFloat.roundWithAccuracy
  dsimp only
  split
  · rfl
  · rfl

/-- A whole number of units and its negative are rounded to one magnitude. -/
theorem abs_normalize_neg (m e : Int) (sign : Sign) :
    (UnpackedFloat.normalize .binary64 (-m) e sign).abs =
      (UnpackedFloat.normalize .binary64 m e sign).abs := by
  unfold UnpackedFloat.normalize UnpackedFloat.round
  rcases lt_trichotomy m 0 with hm | rfl | hm
  · rw [compare_lt_iff_lt.mpr hm, compare_gt_iff_gt.mpr (by omega : -m > 0)]
    exact (abs_roundWithAccuracy _ _ _ _).trans (abs_roundWithAccuracy _ _ _ _).symm
  · rfl
  · rw [compare_gt_iff_gt.mpr hm, compare_lt_iff_lt.mpr (by omega : -m < 0), Int.neg_neg]
    exact (abs_roundWithAccuracy _ _ _ _).trans (abs_roundWithAccuracy _ _ _ _).symm

/-- The two differences of unpacked doubles have one magnitude. -/
theorem abs_sub_unpacked_comm (u v : UnpackedFloat) :
    (UnpackedFloat.sub .binary64 u v).abs = (UnpackedFloat.sub .binary64 v u).abs := by
  match u, v with
  | .notANumber, .notANumber | .notANumber, .infinity _ | .notANumber, .zero _
  | .notANumber, .finite _ _ _ _ | .infinity _, .notANumber | .zero _, .notANumber
  | .finite _ _ _ _, .notANumber => rfl
  | .infinity sign, .infinity sign' => cases sign <;> cases sign' <;> rfl
  | .infinity _, .zero _ | .infinity _, .finite _ _ _ _ | .zero _, .infinity _
  | .finite _ _ _ _, .infinity _ => rfl
  | .zero sign, .zero sign' => cases sign <;> cases sign' <;> rfl
  | .zero _, .finite _ _ _ _ | .finite _ _ _ _, .zero _ => rfl
  | .finite sign m e _, .finite sign' m' e' _ =>
    simp only [UnpackedFloat.sub, Int.min_comm e' e]
    rw [← abs_normalize_neg, Int.neg_sub]

/-- Parts are unpacked to one magnitude under both signs. -/
theorem abs_unpack_packComponents (sign : Sign) (exponent : BitVec 11) (mantissa : BitVec 52) :
    (UnpackedFloat.unpack .binary64
        (UnpackedFloat.packComponents .binary64 sign exponent mantissa)).abs =
      (UnpackedFloat.unpack .binary64
        (UnpackedFloat.packComponents .binary64 .positive exponent mantissa)).abs := by
  unfold UnpackedFloat.unpack
  simp only [UnpackedFloat.unpackExponent_packComponents,
    UnpackedFloat.unpackMantissa_packComponents]
  split
  · split <;> simp only [UnpackedFloat.abs]
  · split
    · split <;> simp only [UnpackedFloat.abs]
    · simp only [UnpackedFloat.abs]

/-- What has one magnitude is packed to one magnitude. -/
theorem abs_unpack_pack (u : UnpackedFloat) :
    (Float.Model.pack u).unpack.abs = (Float.Model.pack u.abs).unpack.abs := by
  match u with
  | .notANumber => rfl
  | .infinity sign | .zero sign => cases sign <;> rfl
  | .finite sign m e hm =>
    change (UnpackedFloat.unpack .binary64
        (UnpackedFloat.pack .binary64 (.finite sign m e hm))).abs =
      (UnpackedFloat.unpack .binary64
        (UnpackedFloat.pack .binary64 (.finite .positive m e hm))).abs
    unfold UnpackedFloat.pack
    dsimp only
    split
    · exact abs_unpack_packComponents _ _ _
    · split
      · exact abs_unpack_packComponents _ _ _
      · exact abs_unpack_packComponents _ _ _

/-- The distance between two doubles is the same from either side. -/
theorem abs_sub_comm_float (x y : Float) : (x - y).abs = (y - x).abs := by
  have habs (x y : Float) : (x - y).abs = Float.ofModel (Float.Model.pack (Float.Model.pack
      (UnpackedFloat.sub .binary64 x.toModel.unpack y.toModel.unpack)).unpack.abs) := rfl
  rw [habs, habs, abs_unpack_pack, abs_sub_unpacked_comm, ← abs_unpack_pack]

/-- What is not finite has no distance from itself. -/
theorem isNaN_sub_self {x : Float} (h : x.isFinite = false) : (x - x).isNaN = true := by
  change x.toModel.unpack.isFinite = false at h
  change (Float.Model.pack (UnpackedFloat.sub .binary64 x.toModel.unpack
    x.toModel.unpack)).unpack.isNaN = true
  match hx : x.toModel.unpack with
  | .notANumber => rfl
  | .infinity sign => cases sign <;> rfl
  | .zero _ | .finite _ _ _ _ =>
    rw [hx] at h
    cases h

/-- A finite double lies at a distance of zero from itself. -/
theorem abs_sub_self {x : Float} (h : x.isFinite = true) : (x - x).abs = Scalar.ofInt 0 := by
  change x.toModel.unpack.isFinite = true at h
  change Float.ofModel (Float.Model.pack (Float.Model.pack (UnpackedFloat.sub .binary64
    x.toModel.unpack x.toModel.unpack)).unpack.abs) = _
  match hx : x.toModel.unpack with
  | .notANumber | .infinity _ =>
    rw [hx] at h
    cases h
  | .zero sign =>
    cases sign <;> rfl
  | .finite sign m e hm =>
    have hzero : UnpackedFloat.sub .binary64 (.finite sign m e hm) (.finite sign m e hm) =
        .zero .positive := by
      simp only [UnpackedFloat.sub, Int.sub_self]
      rfl
    rw [hzero]
    rfl

/-- Two values are as near to one another as the other way round. -/
theorem isWithin_comm (x y tolerance : Float) :
    isWithin x y tolerance = isWithin y x tolerance := by
  change Scalar.le (x - y).abs tolerance = Scalar.le (y - x).abs tolerance
  rw [abs_sub_comm_float]

/-- A value is within a bound of itself exactly if it is finite. -/
theorem isWithin_self {tolerance : Float} (h : Scalar.le (Scalar.ofInt 0) tolerance = true)
    (x : Float) : isWithin x x tolerance = x.isFinite := by
  cases hx : x.isFinite with
  | true =>
    change Scalar.le (x - x).abs tolerance = true
    rw [abs_sub_self hx]
    exact h
  | false => exact decide_eq_false (not_abs_le_of_isNaN (isNaN_sub_self hx) tolerance)

end Leapfrog
