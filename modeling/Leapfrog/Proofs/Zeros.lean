import Leapfrog.Proofs.DoubleDifferences

/-!
# The two zeros

There is a zero without a sign and one with it, and rounded arithmetic may turn one into the other.
Nothing else happens to them: a zero times a finite double is a zero, and so are a sum and a
difference of zeros. A double to which a zero is added stays what it is, unless it is a zero itself.
So two doubles count as the same number if they are equal or if both of them are zeros.
-/

namespace Leapfrog

open Float.Model

/-- A zero, without a sign or with one. -/
def IsZero (x : Float) : Prop := x = Scalar.ofInt 0 ∨ x = -0.0

/-- The same number: the same double, or two zeros. -/
def IsSameNumber (x y : Float) : Prop := x = y ∨ IsZero x ∧ IsZero y

instance : DecidablePred IsZero := fun x =>
  inferInstanceAs (Decidable (x = Scalar.ofInt 0 ∨ x = -0.0))

instance (x y : Float) : Decidable (IsSameNumber x y) :=
  inferInstanceAs (Decidable (x = y ∨ IsZero x ∧ IsZero y))

/-- What is packed from a zero is a zero. -/
theorem isZero_pack (sign : UnpackedFloat.Sign) :
    IsZero (Float.ofModel (Float.Model.pack (.zero sign))) := by
  cases sign with
  | positive => exact .inl rfl
  | negative => exact .inr rfl

/-- A double is a zero if it is unpacked to one. -/
theorem isZero_iff {x : Float} : IsZero x ↔ ∃ sign, x.toModel.unpack = .zero sign := by
  constructor
  · rintro (rfl | rfl)
    · exact ⟨.positive, rfl⟩
    · exact ⟨.negative, rfl⟩
  · rintro ⟨sign, hunpack⟩
    rw [← pack_unpack_float x, hunpack]
    exact isZero_pack sign

/-- A zero is finite. -/
theorem IsZero.isFinite {x : Float} (h : IsZero x) : x.isFinite = true := by
  rcases h with rfl | rfl <;> rfl

/-- What is finite is a zero or has a mantissa. -/
theorem unpack_of_isFinite {x : Float} (h : x.isFinite = true) :
    (∃ sign, x.toModel.unpack = .zero sign) ∨
      ∃ sign m e hm, x.toModel.unpack = .finite sign m e hm := by
  change x.toModel.unpack.isFinite = true at h
  match hx : x.toModel.unpack with
  | .zero sign => exact .inl ⟨sign, rfl⟩
  | .finite sign m e hm => exact .inr ⟨sign, m, e, hm, rfl⟩
  | .notANumber | .infinity _ =>
    rw [hx] at h
    cases h

section

variable {x y : Float}

/-- A zero times a finite double is a zero. -/
theorem IsZero.mul_finite (hx : IsZero x) (hy : y.isFinite = true) : IsZero (x * y) := by
  obtain ⟨sign, hzero⟩ := isZero_iff.mp hx
  change IsZero (Float.ofModel (Float.Model.pack
    (UnpackedFloat.mul .binary64 x.toModel.unpack y.toModel.unpack)))
  rcases unpack_of_isFinite hy with ⟨sign', hunpack⟩ | ⟨sign', m, e, hm, hunpack⟩ <;>
    rw [hzero, hunpack] <;> exact isZero_pack _

/-- A finite double times a zero is a zero. -/
theorem IsZero.finite_mul (hx : x.isFinite = true) (hy : IsZero y) : IsZero (x * y) := by
  obtain ⟨sign, hzero⟩ := isZero_iff.mp hy
  change IsZero (Float.ofModel (Float.Model.pack
    (UnpackedFloat.mul .binary64 x.toModel.unpack y.toModel.unpack)))
  rcases unpack_of_isFinite hx with ⟨sign', hunpack⟩ | ⟨sign', m, e, hm, hunpack⟩ <;>
    rw [hzero, hunpack] <;> exact isZero_pack _

/-- A sum of zeros is a zero. -/
theorem IsZero.add (hx : IsZero x) (hy : IsZero y) : IsZero (x + y) := by
  rcases hx with rfl | rfl <;> rcases hy with rfl | rfl <;> decide +kernel

/-- A difference of zeros is a zero. -/
theorem IsZero.sub (hx : IsZero x) (hy : IsZero y) : IsZero (x - y) := by
  rcases hx with rfl | rfl <;> rcases hy with rfl | rfl <;> decide +kernel

/-- To add a zero to a double leaves the number that it is. -/
theorem IsZero.isSameNumber_add (hy : IsZero y) : IsSameNumber x (x + y) := by
  obtain ⟨sign, hzero⟩ := isZero_iff.mp hy
  have hsum : x + y = Float.ofModel (Float.Model.pack
      (UnpackedFloat.add .binary64 x.toModel.unpack y.toModel.unpack)) := rfl
  match hx : x.toModel.unpack with
  | .zero sign' =>
    have hzero' := isZero_iff.mpr ⟨sign', hx⟩
    exact .inr ⟨hzero', hzero'.add hy⟩
  | .notANumber | .infinity _ | .finite _ _ _ _ =>
    have hadd : UnpackedFloat.add .binary64 x.toModel.unpack (.zero sign) = x.toModel.unpack := by
      rw [hx]
      rfl
    exact .inl (by rw [hsum, hzero, hadd, pack_unpack_float])

/-- A product of unpacked doubles is finite only if both of them are. -/
theorem isFinite_mul_unpacked {u v : UnpackedFloat}
    (h : (UnpackedFloat.mul .binary64 u v).isFinite = true) :
    u.isFinite = true ∧ v.isFinite = true := by
  cases u <;> cases v <;> simp_all [UnpackedFloat.mul, UnpackedFloat.isFinite]

/-- A product is finite only if both of its factors are. -/
theorem isFinite_of_mul (h : (x * y).isFinite = true) : x.isFinite = true ∧ y.isFinite = true := by
  refine isFinite_mul_unpacked (by_contra fun hinfinite => ?_)
  -- What is not finite is packed and unpacked as it is.
  have hkept := unpack_pack_of_not_isFinite (by simpa using hinfinite)
  change (Float.Model.pack (UnpackedFloat.mul .binary64 x.toModel.unpack
    y.toModel.unpack)).unpack.isFinite = true at h
  rw [hkept] at h
  exact hinfinite h

end

namespace IsSameNumber

variable {x y z : Float}

/-- A double is the same number as itself. -/
theorem refl (x : Float) : IsSameNumber x x := .inl rfl

/-- Zeros are the same number. -/
theorem of_isZero (hx : IsZero x) (hy : IsZero y) : IsSameNumber x y := .inr ⟨hx, hy⟩

theorem symm (h : IsSameNumber x y) : IsSameNumber y x := h.imp Eq.symm And.symm

theorem trans (h : IsSameNumber x y) (h' : IsSameNumber y z) : IsSameNumber x z := by
  rcases h with rfl | ⟨hx, hy⟩
  · exact h'
  · rcases h' with rfl | ⟨-, hz⟩
    · exact .inr ⟨hx, hy⟩
    · exact .inr ⟨hx, hz⟩

/-- What is the same number as a finite double is finite. -/
theorem isFinite (h : IsSameNumber x y) (hx : x.isFinite = true) : y.isFinite = true := by
  rcases h with rfl | ⟨-, hzero⟩
  · exact hx
  · exact hzero.isFinite

/-- The same numbers are within every bound that does not lie below zero, if they are finite. -/
theorem isWithin (h : IsSameNumber x y) (hx : x.isFinite = true) {bound : Float}
    (hbound : Scalar.le (Scalar.ofInt 0) bound = true) : Leapfrog.isWithin x y bound = true := by
  rcases h with rfl | ⟨hzero, hzero'⟩
  · rw [isWithin_self hbound, hx]
  · have hdistance : (x - y).abs = Scalar.ofInt 0 := by
      rcases hzero.sub hzero' with heq | heq <;> rw [heq] <;> rfl
    change Scalar.le (x - y).abs bound = true
    rw [hdistance]
    exact hbound

end IsSameNumber

end Leapfrog
