import Leapfrog.Proofs.DoubleOrder

/-!
# Doubles without a sign

A count and a timestep have no sign, and neither has their product, however it is rounded. To add
what has no sign to zero changes nothing about it, so a clock that starts at zero shows the product
itself. A double whose value is a count is the count converted, unless it is the negative zero.
-/

namespace Leapfrog

open Float.Model

/-- A product of two finite doubles without a sign has none, rounded or not. -/
theorem IsUnsigned.mul {u v : UnpackedFloat} (hu : IsUnsigned u) (hv : IsUnsigned v)
    (hfinite : u.isFinite = true) (hfinite' : v.isFinite = true) :
    IsUnsigned (Float.Model.pack (UnpackedFloat.mul .binary64 u v)).unpack := by
  match u, v with
  | .zero _, .zero _ | .zero _, .finite _ _ _ _ | .finite _ _ _ _, .zero _ =>
    obtain rfl := hu
    obtain rfl := hv
    exact IsUnsigned.pack rfl
  | .finite _ m e _, .finite _ m' e' _ =>
    obtain rfl := hu
    obtain rfl := hv
    exact isUnsigned_pack_round (m * m') (e + e')

/-- Zero added to what has no sign leaves it as it is. -/
theorem IsUnsigned.zero_add {u : UnpackedFloat} (h : IsUnsigned u) :
    UnpackedFloat.add .binary64 (.zero .positive) u = u := by
  match u with
  | .infinity _ => rfl
  | .zero _ =>
    obtain rfl := h
    rfl
  | .finite _ _ _ _ => rfl

/-- A double is packed again as it was. -/
theorem pack_unpack_float (x : Float) : Float.ofModel (Float.Model.pack x.toModel.unpack) = x := by
  have hbits : (UnpackedFloat.unpack .binary64 x.toBits.toBitVec).pack .binary64 =
      x.toBits.toBitVec := by
    rw [UnpackedFloat.pack_unpack]
    split
    · next hnan =>
      obtain ⟨hexponent, hmantissa⟩ := of_decide_eq_true hnan
      exact (x.toModel.valid.eq_packedNaN hexponent hmantissa).symm
    · rfl
  exact Decimal.Binary64.eq_of_toBits (congrArg UInt64.ofBitVec hbits)

/-- To add a double without a sign to zero does not change it. -/
theorem zero_add_of_isUnsigned {x : Float} (h : IsUnsigned x.toModel.unpack) :
    Scalar.ofInt 0 + x = x := by
  have hzero : (Scalar.ofInt 0 : Float).toModel.unpack = .zero .positive := by rfl
  have hsum : Scalar.ofInt 0 + x = Float.ofModel (Float.Model.pack
      (UnpackedFloat.add .binary64 (Scalar.ofInt 0 : Float).toModel.unpack x.toModel.unpack)) := rfl
  rw [hsum, hzero, h.zero_add, pack_unpack_float]

/-- A positive double is finite and has no sign. -/
theorem Scalar.unpack_of_isPositive {x : Float} (h : isPositive x = true) :
    ∃ m e hm, x.toModel.unpack = .finite .positive m e hm := by
  have hfinite : x.toModel.unpack.isFinite = true := (Bool.and_eq_true_iff.mp h).1
  have habove : ¬ le x (ofInt 0) = true := by
    simpa using (Bool.and_eq_true_iff.mp h).2
  have hzero : Float.place? (ofInt 0) = some (toLex (0, toLex (0, 0))) := by decide +kernel
  rw [le_iff_place?, hzero, Float.place?] at habove
  match hx : x.toModel.unpack with
  | .finite .positive m e hm => exact ⟨m, e, hm, rfl⟩
  | .infinity _ | .notANumber =>
    rw [hx] at hfinite
    cases hfinite
  | .zero _ | .finite .negative _ _ _ =>
    rw [hx] at habove
    refine absurd ⟨_, _, rfl, rfl, ?_⟩ habove
    simp [Prod.Lex.le_iff]

/-- Time that has not passed is zero, without a sign or with one. -/
theorem zero_mul_of_isPositive {timestep : Float} (h : Scalar.isPositive timestep = true) :
    Scalar.ofInt 0 * timestep = Scalar.ofInt 0 ∧ -0.0 * timestep = -0.0 := by
  obtain ⟨m, e, hm, hunpack⟩ := Scalar.unpack_of_isPositive h
  have hproduct (x : Float) : x * timestep = Float.ofModel (Float.Model.pack
      (UnpackedFloat.mul .binary64 x.toModel.unpack timestep.toModel.unpack)) := rfl
  have hzero : (Scalar.ofInt 0 : Float).toModel.unpack = .zero .positive := by rfl
  have hneg : (-0.0 : Float).toModel.unpack = .zero .negative := by rfl
  constructor
  · rw [hproduct, hzero, hunpack]
    rfl
  · rw [hproduct, hneg, hunpack]
    rfl

/-- The time after a count of steps has no sign. -/
theorem isUnsigned_time {n : Nat} (hn : (Scalar.ofInt n : Float).isFinite = true) {timestep : Float}
    (h : Scalar.isPositive timestep = true) :
    IsUnsigned (Scalar.ofInt n * timestep).toModel.unpack := by
  obtain ⟨m, e, hm, hunpack⟩ := Scalar.unpack_of_isPositive h
  refine (isUnsigned_ofInt hn).mul ?_ hn ?_
  · rw [hunpack]
    rfl
  · rw [hunpack]
    rfl

/-- A double whose value is a count is the count converted, or it is the negative zero. -/
theorem eq_ofInt_of_value? {x : Float} {n : Nat}
    (h : (Decimal.Binary64.ofFloat x).value? = some (n : ℚ)) :
    x = Scalar.ofInt n ∨ x = -0.0 ∧ n = 0 := by
  open Decimal.Binary64 in
  cases hx : ofFloat x with
  | nan | infinite _ =>
    rw [hx] at h
    cases h
  | finite negative m e =>
    have hrank := toFloat_of_finite hx
    obtain ⟨hden, hquotient⟩ := quotient_eq m e
    have hcast : ((quotient m e).2 : ℚ) ≠ 0 := Nat.cast_ne_zero.mpr hden.ne'
    rw [hx] at h
    cases negative with
    | false =>
      left
      have hvalue : (m : ℚ) * 2 ^ e = n := Option.some.inj h
      have hnum : (quotient m e).1 * 1 = n * (quotient m e).2 := by
        rw [hvalue, div_eq_iff hcast] at hquotient
        rw [Nat.mul_one]
        exact_mod_cast hquotient
      rw [← hrank, nearestRank_congr hden Nat.one_pos hnum]
      exact (ofInt_natCast n).symm
    | true =>
      right
      have hvalue : -((m : ℚ) * 2 ^ e) = n := Option.some.inj h
      have hpos : (0 : ℚ) ≤ m * 2 ^ e := by positivity
      have hn : (0 : ℚ) ≤ n := Nat.cast_nonneg n
      have hnum : (quotient m e).1 = 0 := by
        rw [show (m : ℚ) * 2 ^ e = 0 by linarith, div_eq_zero_iff, or_iff_left hcast] at hquotient
        exact_mod_cast hquotient
      have hzero : toFloat true 0 = -0.0 := by decide +kernel
      refine ⟨?_, ?_⟩
      · rw [← hrank, hnum, ← hzero]
        rfl
      · exact_mod_cast (show (n : ℚ) = 0 by linarith)

end Leapfrog
