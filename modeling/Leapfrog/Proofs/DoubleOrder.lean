import Leapfrog.Proofs.NearestDouble

/-!
# The order of doubles

Doubles that are numbers are in a linear order, in which the two zeros stand at one place; what is
not a number has no place and compares with nothing. The largest of some scalars is therefore within
a bound exactly if each of them is, also when one of them is not a number. A product of doubles that
do not lie below zero does not lie below zero either, whatever was rounded on the way.
-/

namespace Leapfrog

open Float.Model
open Float.Model.UnpackedFloat (Sign unpackExponent unpackSign)

/-- The place of an unpacked double in the order, by its sign, its exponent and its mantissa. What is
not a number has none. -/
def place? : UnpackedFloat → Option (Int ×ₗ Int ×ₗ Int)
  | .notANumber => none
  | .infinity .negative => some (toLex (-2, toLex (0, 0)))
  | .finite .negative m e _ => some (toLex (-1, toLex (-e, -(m : Int))))
  | .zero _ => some (toLex (0, toLex (0, 0)))
  | .finite .positive m e _ => some (toLex (1, toLex (e, (m : Int))))
  | .infinity .positive => some (toLex (2, toLex (0, 0)))

/-- The exponents decide before the mantissas do. -/
theorem isLE_then_compare (e e' : Int) (m m' : Nat) :
    ((compare e e').then (compare m m')).isLE = true ↔ e < e' ∨ e = e' ∧ m ≤ m' := by
  rcases lt_trichotomy e e' with h | h | h
  · simp [compare_lt_iff_lt.mpr h, h]
  · simp [h, Nat.isLE_compare]
  · have hlt : ¬ e < e' := by omega
    have hne : ¬ e = e' := by omega
    simp [compare_gt_iff_gt.mpr h, hlt, hne]

/-- Below zero the order is turned around. -/
theorem isGE_then_compare (e e' : Int) (m m' : Nat) :
    ((compare e e').then (compare m m')).isGE = true ↔ e' < e ∨ e = e' ∧ m' ≤ m := by
  rcases lt_trichotomy e e' with h | h | h
  · have hlt : ¬ e' < e := by omega
    have hne : ¬ e = e' := by omega
    simp [compare_lt_iff_lt.mpr h, hlt, hne]
  · simp [h, Nat.isGE_compare]
  · simp [compare_gt_iff_gt.mpr h, h]

/-- Doubles are compared by their places. -/
theorem unpacked_le_iff (u v : UnpackedFloat) :
    u.le v = true ↔ ∃ p q, place? u = some p ∧ place? v = some q ∧ p ≤ q := by
  have hsigns : compare Sign.negative .negative = .eq ∧ compare Sign.negative .positive = .lt ∧
      compare Sign.positive .negative = .gt ∧ compare Sign.positive .positive = .eq :=
    ⟨rfl, rfl, rfl, rfl⟩
  rcases u with (_ | _) | _ | _ | ⟨(_ | _), m, e, hm⟩ <;>
    rcases v with (_ | _) | _ | _ | ⟨(_ | _), m', e', hm'⟩ <;>
    simp [UnpackedFloat.le, UnpackedFloat.compare, place?, Prod.Lex.le_iff, isLE_then_compare,
      isGE_then_compare, hsigns]

/-- The place of a double in the order. -/
def Float.place? (x : Float) : Option (Int ×ₗ Int ×ₗ Int) := Leapfrog.place? x.toModel.unpack

/-- Doubles are compared by their places. -/
theorem le_iff_place? {x y : Float} :
    Scalar.le x y = true ↔ ∃ p q, Float.place? x = some p ∧ Float.place? y = some q ∧ p ≤ q := by
  change decide (x ≤ y) = true ↔ _
  rw [decide_eq_true_iff, le_iff_unpack, unpacked_le_iff]
  rfl

/-- A double is a number if it has a place. -/
theorem isNaN_iff_place? {x : Float} : Scalar.isNaN x = true ↔ Float.place? x = none := by
  rw [Scalar.isNaN, Bool.not_eq_true', ← Bool.not_eq_true, le_iff_place?]
  cases Float.place? x with
  | none => simp
  | some p => simp

namespace Scalar

/-- The order of doubles is transitive. -/
theorem le_trans {a b c : Float} (h : le a b = true) (h' : le b c = true) : le a c = true := by
  rw [le_iff_place?] at *
  obtain ⟨p, q, hp, hq, hpq⟩ := h
  obtain ⟨q', r, hq', hr, hqr⟩ := h'
  obtain rfl := Option.some.inj (hq.symm.trans hq')
  exact ⟨p, r, hp, hr, hpq.trans hqr⟩

/-- What compares with something is a number. -/
theorem not_isNaN_of_le {a b : Float} (h : le a b = true) : ¬ isNaN a = true := by
  obtain ⟨p, -, hp, -⟩ := le_iff_place?.mp h
  simp [isNaN_iff_place?, hp]

/-- Of two numbers one is not above the other. -/
theorem le_of_not_le {a b : Float} (ha : ¬ isNaN a = true) (hb : ¬ isNaN b = true)
    (h : ¬ le a b = true) : le b a = true := by
  rw [isNaN_iff_place?, Option.eq_none_iff_forall_ne_some] at ha hb
  push Not at ha hb
  obtain ⟨p, hp⟩ := ha
  obtain ⟨q, hq⟩ := hb
  rw [le_iff_place?] at *
  refine ⟨q, p, hq, hp, ?_⟩
  by_contra hlt
  exact h ⟨p, q, hp, hq, (not_le.mp hlt).le⟩

/-- The larger of two doubles is within a bound if both are. -/
theorem larger_le_iff (a b c : Float) :
    le (larger a b) c = true ↔ le a c = true ∧ le b c = true := by
  unfold larger
  -- What is not a number is kept, and it is within no bound.
  split
  · next ha => exact ⟨fun h => absurd ha (not_isNaN_of_le h), And.left⟩
  · next ha =>
    split
    · next hb => exact ⟨fun h => absurd hb (not_isNaN_of_le h), And.right⟩
    · next hb =>
      split
      · next hle => exact ⟨fun h => ⟨le_trans hle h, h⟩, And.right⟩
      · next hle => exact ⟨fun h => ⟨h, le_trans (le_of_not_le ha hb hle) h⟩, And.left⟩

/-- The largest of some doubles is within a bound that is not below zero if all of them are. -/
theorem largest_le_iff (values : List Float) {bound : Float} (h : le (ofInt 0) bound = true) :
    le (largest values) bound = true ↔ ∀ a ∈ values, le a bound = true := by
  have hfold (values : List Float) (first : Float) :
      le (values.foldl larger first) bound = true ↔
        le first bound = true ∧ ∀ a ∈ values, le a bound = true := by
    induction values generalizing first with
    | nil => simp
    | cons a rest ih => rw [List.foldl_cons, ih, larger_le_iff, List.forall_mem_cons, and_assoc]
  rw [largest, hfold, and_iff_right h]

end Scalar

/-- The sign of what was packed from its parts. -/
theorem unpackSign_packComponents (sign : Sign) (exponent : BitVec 11) (mantissa : BitVec 52) :
    @unpackSign .binary64 (UnpackedFloat.packComponents .binary64 sign exponent mantissa) =
      sign.toBitVec := by
  change (sign.toBitVec ++ exponent ++ mantissa).extractLsb 63 63 = sign.toBitVec
  have hbit (v : BitVec (1 + 11 + 52)) : v.extractLsb 63 63 = BitVec.ofBool (v.getLsbD 63) := by
    apply BitVec.eq_of_getLsbD_eq
    intro i hi
    obtain rfl : i = 0 := by omega
    simp
  rw [hbit, BitVec.getLsbD_append, BitVec.getLsbD_append]
  cases sign <;> rfl

/-- Whether an unpacked double is a number without a sign. The negative zero has one. -/
def IsUnsigned : UnpackedFloat → Prop
  | .notANumber => False
  | .infinity sign | .zero sign | .finite sign _ _ _ => sign = .positive

/-- Bits without a sign are those of a number without one, unless their exponent is the last one. -/
theorem isUnsigned_unpack {bits : BitVec 64}
    (hsign : @unpackSign .binary64 bits = Sign.toBitVec .positive)
    (hexponent : @unpackExponent .binary64 bits ≠ -1#11) :
    IsUnsigned (.unpack .binary64 bits) := by
  have hpositive : Sign.ofBitVec (Sign.toBitVec .positive) = .positive := rfl
  unfold UnpackedFloat.unpack
  dsimp only
  rw [hsign, hpositive, if_neg hexponent]
  split
  · split
    · rfl
    · rfl
  · rfl

/-- Parts without a sign are packed to a number without one, unless their exponent is the last one. -/
theorem isUnsigned_packComponents {exponent : BitVec 11} (mantissa : BitVec 52)
    (h : exponent ≠ -1#11) :
    IsUnsigned (.unpack .binary64
      (UnpackedFloat.packComponents .binary64 .positive exponent mantissa)) := by
  refine isUnsigned_unpack (unpackSign_packComponents _ _ _) ?_
  rw [UnpackedFloat.unpackExponent_packComponents]
  exact h

/-- Packing gives no sign to a number that has none. -/
theorem IsUnsigned.pack {u : UnpackedFloat} (h : IsUnsigned u) :
    IsUnsigned (Float.Model.pack u).unpack := by
  match u with
  | .infinity _ =>
    obtain rfl := h
    rfl
  | .zero _ =>
    obtain rfl := h
    rfl
  | .finite sign m e hm =>
    obtain rfl : sign = .positive := h
    change IsUnsigned (.unpack .binary64 (UnpackedFloat.pack .binary64 (.finite .positive m e hm)))
    unfold UnpackedFloat.pack
    dsimp only
    split
    · rfl
    · next hexponent =>
      split
      · refine isUnsigned_packComponents _ fun hlast => hexponent ?_
        have hbits := congrArg BitVec.toNat hlast
        have hallOnes : (-1#11).toNat = 2047 := rfl
        rw [BitVec.toNat_ofNat, hallOnes] at hbits
        omega
      · exact isUnsigned_packComponents _ (by decide)

/-- A number that is rounded without a sign stays without one. -/
theorem isUnsigned_pack_round (m : Nat) (e : Int) :
    IsUnsigned (Float.Model.pack
      (UnpackedFloat.roundWithAccuracy .binary64 .positive m e .exact)).unpack := by
  refine IsUnsigned.pack ?_
  unfold UnpackedFloat.roundWithAccuracy
  dsimp only
  split
  · rfl
  · rfl

/-- Whether an unpacked double is a number that does not lie below zero. -/
def IsNonnegative (u : UnpackedFloat) : Prop :=
  ∃ p, place? u = some p ∧ toLex (0, toLex (0, 0)) ≤ p

/-- Zero does not lie below zero, whichever sign it has. -/
theorem isNonnegative_zero (sign : Sign) : IsNonnegative (.zero sign) := ⟨_, rfl, le_rfl⟩

/-- What has no sign does not lie below zero. -/
theorem IsUnsigned.isNonnegative {u : UnpackedFloat} (h : IsUnsigned u) : IsNonnegative u := by
  match u with
  | .infinity _ =>
    obtain rfl := h
    exact ⟨_, rfl, by simp [Prod.Lex.le_iff]⟩
  | .zero sign => exact isNonnegative_zero sign
  | .finite _ m e hm =>
    obtain rfl := h
    exact ⟨_, rfl, by simp [Prod.Lex.le_iff]⟩

/-- Zero does not get below zero when it is packed. -/
theorem isNonnegative_pack_zero (sign : Sign) :
    IsNonnegative (Float.Model.pack (.zero sign)).unpack := by
  have hunpack : (Float.Model.pack (.zero sign)).unpack = .zero sign := by
    cases sign <;> rfl
  rw [hunpack]
  exact isNonnegative_zero sign

/-- What is finite and does not lie below zero is a zero or has no sign. -/
theorem IsNonnegative.cases {u : UnpackedFloat} (h : IsNonnegative u) (hfinite : u.isFinite = true) :
    (∃ sign, u = .zero sign) ∨ ∃ m e hm, u = .finite .positive m e hm := by
  obtain ⟨p, hp, hle⟩ := h
  match u with
  | .notANumber => cases hfinite
  | .infinity _ => cases hfinite
  | .zero sign => exact .inl ⟨sign, rfl⟩
  | .finite .positive m e hm => exact .inr ⟨m, e, hm, rfl⟩
  | .finite .negative m e hm =>
    obtain rfl := Option.some.inj hp
    simp [Prod.Lex.le_iff] at hle

/-- A product of two finite doubles that do not lie below zero does not lie below zero, rounded or
not. -/
theorem isNonnegative_mul {u v : UnpackedFloat} (hu : IsNonnegative u) (hv : IsNonnegative v)
    (hfinite : u.isFinite = true) (hfinite' : v.isFinite = true) :
    IsNonnegative (Float.Model.pack (UnpackedFloat.mul .binary64 u v)).unpack := by
  rcases hu.cases hfinite with ⟨sign, rfl⟩ | ⟨m, e, hm, rfl⟩ <;>
    rcases hv.cases hfinite' with ⟨sign', rfl⟩ | ⟨m', e', hm', rfl⟩
  · exact isNonnegative_pack_zero _
  · exact isNonnegative_pack_zero _
  · exact isNonnegative_pack_zero _
  · exact (isUnsigned_pack_round _ _).isNonnegative

/-- A double does not lie below zero if it is a number whose place does not. -/
theorem zero_le_iff {x : Float} :
    Scalar.le (Scalar.ofInt 0) x = true ↔ IsNonnegative x.toModel.unpack := by
  have hzero : Float.place? (Scalar.ofInt 0) = some (toLex (0, toLex (0, 0))) := by
    decide +kernel
  rw [le_iff_place?, hzero]
  constructor
  · rintro ⟨p, q, hp, hq, hle⟩
    obtain rfl := Option.some.inj hp
    exact ⟨q, hq, hle⟩
  · rintro ⟨q, hq, hle⟩
    exact ⟨_, q, rfl, hq, hle⟩

/-- A finite double is a number. -/
theorem not_isNaN_of_isFinite {x : Float} (h : x.isFinite = true) : ¬ Scalar.isNaN x = true := by
  have hself : Scalar.le x x = true := decide_eq_true (le_self_of_isFinite h)
  exact Scalar.not_isNaN_of_le hself

/-- A count that is converted to a finite double has no sign. -/
theorem isUnsigned_ofInt {n : Nat} (h : (Scalar.ofInt n : Float).isFinite = true) :
    IsUnsigned (Scalar.ofInt n : Float).toModel.unpack := by
  have hrank := (Decimal.Binary64.isFinite_iff _).mp h
  have hbits := Decimal.Binary64.toNat_toBits_toFloat false
    (Decimal.Binary64.nearestRank_le n 1)
  rw [← Decimal.Binary64.ofInt_natCast, if_neg Bool.false_ne_true] at hbits
  have hle := Decimal.Binary64.nearestRank_le n 1
  change (Decimal.Binary64.ofInt n).toBits.toNat % _ < _ at hrank
  refine @isUnsigned_unpack (Decimal.Binary64.ofInt n).toBits.toBitVec ?_ ?_
  · apply BitVec.eq_of_toNat_eq
    change ((Decimal.Binary64.ofInt n).toBits.toBitVec.extractLsb 63 63).toNat = 0
    rw [BitVec.extractLsb_toNat, Nat.shiftRight_eq_div_pow]
    change (Decimal.Binary64.ofInt n).toBits.toNat / 2 ^ 63 % 2 = 0
    rw [hbits]
    unfold Decimal.Binary64.infinityRank Decimal.Binary64.perExponent at hle
    omega
  · intro hlast
    have hlarge := (Decimal.Binary64.unpackExponent_eq_neg_one_iff _).mp hlast
    omega

/-- A count does not lie below zero when it is converted to a finite double. -/
theorem zero_le_ofInt {n : Nat} (h : (Scalar.ofInt n : Float).isFinite = true) :
    Scalar.le (Scalar.ofInt 0) (Scalar.ofInt n : Float) = true :=
  zero_le_iff.mpr (isUnsigned_ofInt h).isNonnegative

/-- A product of two finite doubles that do not lie below zero does not lie below zero. -/
theorem zero_le_mul {x y : Float} (hx : Scalar.le (Scalar.ofInt 0) x = true)
    (hy : Scalar.le (Scalar.ofInt 0) y = true) (hfinite : x.isFinite = true)
    (hfinite' : y.isFinite = true) : Scalar.le (Scalar.ofInt 0) (x * y) = true := by
  rw [zero_le_iff] at *
  exact isNonnegative_mul hx hy hfinite hfinite'

end Leapfrog
