import Leapfrog.Proofs.DoubleSigns
import Leapfrog.Proofs.NumberText
import Leapfrog.Text.Line
import Mathlib.Algebra.Order.Round

/-!
# A fixed number of decimals

A finite double is written with all its whole digits and a fixed number of decimals. The units of the
last decimal are the whole number nearest to the exact value in these units, and the even one of two
that are equally near. They are found in whole numbers, in one division, so that no size of the double
makes a difference.

A decimal is read back as the exact value it shows. That value is within half a unit of the double, and
a larger double never shows a smaller one.
-/

namespace Leapfrog

/-- The whole number nearest to a rational one; of two that are equally near, the even one. -/
structure IsNearestEven (q : ℚ) (n : ℤ) : Prop where
  nearest : ∀ k : ℤ, |q - n| ≤ |q - k|
  even : ∀ k : ℤ, k ≠ n → |q - k| = |q - n| → Even n

namespace IsNearestEven

variable {q q' : ℚ} {n n' : ℤ}

/-- A whole number that is less than half a unit away, or half a unit and even, is the nearest one. -/
theorem of_abs_sub_le_half (h : |q - n| ≤ 1 / 2) (htie : |q - n| = 1 / 2 → Even n) :
    IsNearestEven q n := by
  have hdistance {k : ℤ} (hk : k ≠ n) : 1 ≤ |q - n| + |q - k| := by
    have hapart : (1 : ℤ) ≤ |k - n| := Int.one_le_abs (sub_ne_zero.mpr hk)
    calc (1 : ℚ) ≤ |(k : ℚ) - n| := by exact_mod_cast hapart
      _ ≤ |(k : ℚ) - q| + |q - n| := abs_sub_le _ _ _
      _ = |q - n| + |q - k| := by rw [abs_sub_comm, add_comm]
  constructor
  · intro k
    rcases eq_or_ne k n with rfl | hk
    · exact le_rfl
    · linarith [hdistance hk]
  · intro k hk heq
    exact htie (by linarith [hdistance hk])

/-- The nearest whole number is at most half a unit away. -/
theorem abs_sub_le_half (h : IsNearestEven q n) : |q - n| ≤ 1 / 2 :=
  (h.nearest (round q)).trans (abs_sub_round q)

/-- In larger units, the nearest whole number is at most half a unit away. -/
theorem abs_div_sub_le {c : ℚ} (hc : 0 < c) (h : IsNearestEven (q * c) n) :
    |n / c - q| ≤ 1 / 2 / c := by
  have hscaled : |n / c - q| * c = |q * c - n| := by
    rw [← abs_of_pos hc, ← abs_mul, abs_of_pos hc, sub_mul, div_mul_cancel₀ _ hc.ne', abs_sub_comm]
  rw [le_div_iff₀ hc, hscaled]
  exact h.abs_sub_le_half

/-- The nearest whole number of a negated number is negated. -/
theorem neg (h : IsNearestEven q n) : IsNearestEven (-q) (-n) := by
  have hsame (k : ℤ) : |-q - (k : ℤ)| = |q - (-k : ℤ)| := by
    rw [← abs_neg]
    push_cast
    ring_nf
  constructor
  · intro k
    rw [hsame, hsame, neg_neg]
    exact h.nearest _
  · intro k hk heq
    rw [hsame, hsame, neg_neg] at heq
    exact (h.even (-k) (fun hn => hk (by rw [← hn, neg_neg])) heq).neg

/-- There is one nearest whole number. -/
theorem unique (h : IsNearestEven q n) (h' : IsNearestEven q n') : n = n' := by
  by_contra hne
  -- Two of them would be even neighbours.
  have hsame : |q - n| = |q - n'| := le_antisymm (h.nearest n') (h'.nearest n)
  obtain ⟨i, hi⟩ := h.even n' (Ne.symm hne) hsame.symm
  obtain ⟨j, hj⟩ := h'.even n hne hsame
  have hnear : |(n : ℚ) - n'| ≤ 1 :=
    calc |(n : ℚ) - n'| ≤ |(n : ℚ) - q| + |q - n'| := abs_sub_le _ _ _
      _ = |q - n| + |q - n'| := by rw [abs_sub_comm]
      _ ≤ 1 / 2 + 1 / 2 := add_le_add h.abs_sub_le_half h'.abs_sub_le_half
      _ = 1 := add_halves 1
  have hnext : |n - n'| ≤ 1 := by exact_mod_cast hnear
  rw [abs_le] at hnext
  omega

/-- The larger of two whole numbers is nearer at most from their middle on. -/
theorem middle_le (h : IsNearestEven q n) (hlt : n' < n) : ((n' : ℚ) + n) / 2 ≤ q := by
  have hcast : (n' : ℚ) < n := by exact_mod_cast hlt
  have hsquares := sq_le_sq.mpr (h.nearest n')
  nlinarith

/-- The smaller of two whole numbers is nearer at most up to their middle. -/
theorem le_middle (h : IsNearestEven q n) (hlt : n < n') : q ≤ ((n : ℚ) + n') / 2 := by
  have hcast : (n : ℚ) < n' := by exact_mod_cast hlt
  have hsquares := sq_le_sq.mpr (h.nearest n')
  nlinarith

/-- A larger number has no smaller nearest whole number. -/
theorem mono (h : IsNearestEven q n) (h' : IsNearestEven q' n') (hle : q ≤ q') : n ≤ n' := by
  by_contra hnot
  have hlt : n' < n := not_le.mp hnot
  obtain rfl : q = q' := le_antisymm hle ((h'.le_middle hlt).trans (h.middle_le hlt))
  exact hnot (h.unique h').le

end IsNearestEven

namespace Decimal

open Json (IsRow digitsValue takeMinus takeDigits? takeDecimals? isDigit_zeros isRow_digitChars
  isCanonical_digitChars digitsValue_append digitsValue_zeros digitsValue_digitChars)

/-- Unless there is a tie, a quotient is rounded by less than half a unit. -/
theorem roundHalfEven_of_not_tie {num den : Nat} (hden : 0 < den) (h : 2 * (num % den) ≠ den) :
    2 * (roundHalfEven num den * den) < 2 * num + den ∧
      2 * num < 2 * (roundHalfEven num den * den) + den := by
  have hparts := Nat.div_add_mod num den
  have hmod := Nat.mod_lt num hden
  rw [Nat.mul_comm] at hparts
  unfold roundHalfEven
  dsimp only
  split
  · omega
  · split
    · rw [Nat.add_mul]
      omega
    · omega

/-- A quotient is rounded to the nearest whole number. -/
theorem isNearestEven_roundHalfEven (num : Nat) {den : Nat} (hden : 0 < den) :
    IsNearestEven ((num : ℚ) / den) (roundHalfEven num den : ℕ) := by
  have hcast : (0 : ℚ) < den := Nat.cast_pos.mpr hden
  have hscale : |(num : ℚ) / den - (roundHalfEven num den : ℕ)| =
      |(num : ℚ) - roundHalfEven num den * den| / den := by
    rw [← abs_of_pos hcast, ← abs_div, abs_of_pos hcast, sub_div, mul_div_cancel_right₀ _ hcast.ne']
  refine .of_abs_sub_le_half ?_ fun htie => ?_
  · have habove : 2 * ((roundHalfEven num den : ℚ) * den) ≤ 2 * num + den := by
      exact_mod_cast two_mul_roundHalfEven_le num den hden
    have hbelow : 2 * (num : ℚ) ≤ 2 * (roundHalfEven num den * den) + den := by
      exact_mod_cast le_two_mul_roundHalfEven num den hden
    rw [Int.cast_natCast, hscale, div_le_iff₀ hcast, abs_le]
    constructor <;> linarith
  · have hrest : 2 * (num % den) = den := by
      by_contra hnot
      obtain ⟨habove, hbelow⟩ := roundHalfEven_of_not_tie hden hnot
      have habove : 2 * ((roundHalfEven num den : ℚ) * den) < 2 * num + den := by
        exact_mod_cast habove
      have hbelow : 2 * (num : ℚ) < 2 * (roundHalfEven num den * den) + den := by
        exact_mod_cast hbelow
      have hless : |(num : ℚ) - roundHalfEven num den * den| < 1 / 2 * den := by
        rw [abs_lt]
        constructor <;> linarith
      rw [Int.cast_natCast, hscale, div_eq_iff hcast.ne'] at htie
      exact hless.ne htie
    exact (Int.even_coe_nat _).mpr (Nat.even_iff.mpr (roundHalfEven_tie_even num den hrest))

/-- The digits of a number as a row of at least a given width, zeros in front. -/
def paddedDigits (width n : Nat) : List Char :=
  List.replicate (width - (digitChars n).length) '0' ++ digitChars n

/-- Padded digits are digits. -/
theorem isRow_paddedDigits (width n : Nat) : IsRow (paddedDigits width n) :=
  ⟨List.append_ne_nil_of_right_ne_nil _ (isRow_digitChars n).ne_nil,
    List.forall_mem_append.mpr ⟨isDigit_zeros _, (isRow_digitChars n).isDigit⟩⟩

/-- Zeros in front do not change what digits stand for. -/
theorem digitsValue_paddedDigits (width n : Nat) : digitsValue (paddedDigits width n) = n := by
  rw [paddedDigits, digitsValue_append, digitsValue_zeros, digitsValue_digitChars, Nat.mul_zero,
    Nat.zero_add]

/-- A number has the digits of a row that is wide enough. -/
theorem length_paddedDigits {width n : Nat} (hwidth : 0 < width) (h : n < 10 ^ width) :
    (paddedDigits width n).length = width := by
  have hcount : (digitChars n).length ≤ width := (digitCount_le_iff hwidth).mpr h
  rw [paddedDigits, List.length_append, List.length_replicate]
  omega

/-- The last digit of a row that is longer than one digit. -/
theorem paddedDigits_succ {width : Nat} (hwidth : 0 < width) (n : Nat) :
    paddedDigits (width + 1) n = paddedDigits width (n / 10) ++ [(n % 10).digitChar] := by
  rcases Nat.lt_or_ge n 10 with hsmall | hlarge
  · obtain ⟨k, rfl⟩ := Nat.exists_eq_add_of_le' hwidth
    have hone : digitChars n = [n.digitChar] := Nat.toDigits_of_lt_base hsmall
    rw [Nat.div_eq_of_lt hsmall, Nat.mod_eq_of_lt hsmall, paddedDigits, hone]
    change List.replicate (k + 1) '0' ++ _ = List.replicate k '0' ++ ['0'] ++ _
    rw [List.replicate_succ']
  · have hmore : digitChars n = digitChars (n / 10) ++ [(n % 10).digitChar] :=
      Nat.toDigits_of_base_le (by decide) hlarge
    have hwidths : width + 1 - ((digitChars (n / 10)).length + 1) =
        width - (digitChars (n / 10)).length := by omega
    rw [paddedDigits, hmore, List.length_append, List.length_singleton, hwidths, paddedDigits,
      List.append_assoc]

/-- The last digits of a row are those of the remainder, and what stands before them are those of the
quotient. -/
theorem paddedDigits_add {width last : Nat} (hwidth : 0 < width) (hlast : 0 < last) (n : Nat) :
    paddedDigits (width + last) n =
      paddedDigits width (n / 10 ^ last) ++ paddedDigits last (n % 10 ^ last) := by
  induction last, hlast using Nat.le_induction generalizing n with
  | base =>
    have hdigit : paddedDigits 1 (n % 10) = [(n % 10).digitChar] := by
      have hlt : n % 10 < 10 := Nat.mod_lt n (by decide)
      have hone : digitChars (n % 10) = [(n % 10).digitChar] := Nat.toDigits_of_lt_base hlt
      rw [paddedDigits, hone]
      rfl
    rw [Nat.succ_eq_one_add, Nat.add_zero, pow_one, hdigit]
    exact paddedDigits_succ hwidth n
  | succ last hlast ih =>
    have hquotient : n / 10 / 10 ^ last = n / 10 ^ (last + 1) := by
      rw [Nat.div_div_eq_div_mul, ← pow_succ']
    have hrest : n % 10 ^ (last + 1) / 10 = n / 10 % 10 ^ last := by
      rw [pow_succ', Nat.mod_mul_right_div_self]
    have hdigit : n % 10 ^ (last + 1) % 10 = n % 10 :=
      Nat.mod_mod_of_dvd n (dvd_pow_self 10 (Nat.succ_ne_zero last))
    rw [← Nat.add_assoc, paddedDigits_succ (by omega), ih, hquotient,
      paddedDigits_succ hlast (n % 10 ^ (last + 1)), hrest, hdigit, List.append_assoc]

/-- Units of the last decimal as a text: all whole digits, and the decimals behind a point. -/
def fixedText (decimals : Nat) (negative : Bool) (units : Nat) : String :=
  String.ofList (signChars negative) ++ whole (units / 10 ^ decimals : Nat) ++ "." ++
    Text.padZeros decimals (units % 10 ^ decimals)

/-- The exact value that a decimal shows, if a text is one. -/
def shownValue? (text : String) : Option ℚ := do
  let (negative, rest) := takeMinus text.toList
  let (wholeDigits, rest) ← takeDigits? rest
  let (decimals, rest) ← takeDecimals? rest
  guard rest.isEmpty
  let fraction := decimals.getD []
  let magnitude : ℚ := digitsValue (wholeDigits ++ fraction) / 10 ^ fraction.length
  return if negative then -magnitude else magnitude

/-- Units of the last decimal as a numeral. -/
def unitsNumeral (decimals units : Nat) : Json.Numeral where
  whole := digitChars (units / 10 ^ decimals)
  decimals := some (paddedDigits decimals (units % 10 ^ decimals))
  exponent := none
  whole_row := isRow_digitChars _
  whole_canonical := isCanonical_digitChars _
  decimals_row := fun _ hmem => Option.some_inj.mp hmem ▸ isRow_paddedDigits _ _

section

variable {decimals : Nat}

/-- Units of the last decimal are written as their numeral. -/
theorem fixedText_eq (negative : Bool) (units : Nat) :
    fixedText decimals negative units =
      String.ofList (signChars negative ++ (unitsNumeral decimals units).chars) := by
  have hpadded (width n : Nat) : Text.padZeros width n = String.ofList (paddedDigits width n) := rfl
  have hwhole (n : Nat) : whole n = String.ofList (digitChars n) := rfl
  have hpoint : "." = String.ofList ['.'] := rfl
  rw [fixedText, hpadded, hwhole, hpoint, ← String.ofList_append, ← String.ofList_append,
    ← String.ofList_append]
  simp [unitsNumeral, Json.Numeral.chars, Json.decimalsChars, Json.powerChars]

/-- The row behind the point has as many digits as there are decimals. -/
theorem length_fraction (hdecimals : 0 < decimals) (units : Nat) :
    (paddedDigits decimals (units % 10 ^ decimals)).length = decimals :=
  length_paddedDigits hdecimals (Nat.mod_lt _ (Nat.pow_pos (by decide)))

/-- The text behind the point has as many characters as there are decimals. -/
theorem length_padZeros (hdecimals : 0 < decimals) (units : Nat) :
    (Text.padZeros decimals (units % 10 ^ decimals)).length = decimals := by
  change (String.ofList (paddedDigits decimals (units % 10 ^ decimals))).length = decimals
  rw [String.length_ofList, length_fraction hdecimals]

/-- A magnitude with a fixed number of decimals is the numeral of its nearest units. -/
theorem fixedMagnitude_eq (hdecimals : 0 < decimals) (m : Nat) (e : Int) :
    fixedMagnitude decimals m e =
      (unitsNumeral decimals (roundHalfEven ((Binary64.quotient m e).1 * 10 ^ decimals)
        (Binary64.quotient m e).2)).chars := by
  let units := roundHalfEven ((Binary64.quotient m e).1 * 10 ^ decimals) (Binary64.quotient m e).2
  let row := paddedDigits (decimals + 1) units
  have hjoined : fixedMagnitude decimals m e =
      joinPoint (row.take (row.length - decimals)) (row.drop (row.length - decimals)) := rfl
  have hwhole : paddedDigits 1 (units / 10 ^ decimals) = digitChars (units / 10 ^ decimals) := by
    have hnone : 1 - (digitChars (units / 10 ^ decimals)).length = 0 :=
      Nat.sub_eq_zero_of_le Nat.length_toDigits_pos
    rw [paddedDigits, hnone]
    rfl
  have hrow : row =
      digitChars (units / 10 ^ decimals) ++ paddedDigits decimals (units % 10 ^ decimals) := by
    change paddedDigits (decimals + 1) units = _
    rw [Nat.add_comm, paddedDigits_add Nat.one_pos hdecimals, hwhole]
  have hkept : (paddedDigits decimals (units % 10 ^ decimals)).isEmpty = false :=
    List.isEmpty_eq_false_iff.mpr (isRow_paddedDigits _ _).ne_nil
  rw [hjoined, hrow, List.length_append, length_fraction hdecimals, Nat.add_sub_cancel,
    List.take_left, List.drop_left, joinPoint, hkept]
  exact congrArg (digitChars (units / 10 ^ decimals) ++ ·) (List.append_nil _).symm

/-- A numeral without an exponent shows its digits in units of the last one. -/
theorem shownValue?_chars {n : Json.Numeral} (h : n.exponent = none) (negative : Bool) :
    shownValue? (String.ofList (signChars negative ++ n.chars)) =
      some (if negative then -((n.digits : ℚ) / 10 ^ (n.decimals.getD []).length)
        else n.digits / 10 ^ (n.decimals.getD []).length) := by
  have htaken := n.takeDecimals?_chars
  rw [h] at htaken
  unfold shownValue? Json.Numeral.chars
  rw [String.toList_ofList, Json.takeMinus_signChars negative n.whole_row]
  dsimp only
  rw [Json.takeDigits?_append n.whole_row n.head?_rest]
  simp only [h, Option.bind_eq_bind, Option.bind_some, htaken]
  rfl

/-- Units of the last decimal show their value. -/
theorem shownValue?_fixedText (hdecimals : 0 < decimals) (negative : Bool) (units : Nat) :
    shownValue? (fixedText decimals negative units) =
      some (if negative then -((units : ℚ) / 10 ^ decimals) else units / 10 ^ decimals) := by
  have hlength : ((unitsNumeral decimals units).decimals.getD []).length = decimals :=
    length_fraction hdecimals units
  have hdigits : (unitsNumeral decimals units).digits = units := by
    change digitsValue (digitChars (units / 10 ^ decimals) ++
      paddedDigits decimals (units % 10 ^ decimals)) = units
    rw [digitsValue_append, digitsValue_digitChars, digitsValue_paddedDigits,
      length_fraction hdecimals, Nat.div_add_mod]
  rw [fixedText_eq, shownValue?_chars rfl, hdigits, hlength]

/-- A finite double is written as the units that are nearest to its magnitude, after its sign. -/
theorem fixed_of_finite (hdecimals : 0 < decimals) {x : Float} {negative : Bool} {m : Nat} {e : Int}
    (h : Binary64.ofFloat x = .finite negative m e) :
    ∃ units : ℕ, fixed decimals x = fixedText decimals negative units ∧
      IsNearestEven (m * 2 ^ e * 10 ^ decimals) units := by
  obtain ⟨hden, hvalue⟩ := Binary64.quotient_eq m e
  have hnearest := isNearestEven_roundHalfEven ((Binary64.quotient m e).1 * 10 ^ decimals) hden
  push_cast at hnearest
  refine ⟨_, ?_, by rwa [← hvalue, div_mul_eq_mul_div]⟩
  rw [fixed, writeWith, h, fixedText_eq]
  dsimp only
  rw [fixedMagnitude_eq hdecimals]

/-- What is written for a finite double shows the decimal that is nearest to its exact value. -/
theorem exists_shownValue?_fixed (hdecimals : 0 < decimals) {x : Float} {v : ℚ}
    (h : (Binary64.ofFloat x).value? = some v) :
    ∃ n : ℤ, shownValue? (fixed decimals x) = some ((n : ℚ) / 10 ^ decimals) ∧
      IsNearestEven (v * 10 ^ decimals) n := by
  obtain ⟨negative, m, e, hx⟩ := Binary64.exists_ofFloat_of_isFinite (Binary64.isFinite_of_value? h)
  obtain ⟨units, htext, hnearest⟩ := fixed_of_finite hdecimals hx
  rw [hx] at h
  obtain rfl := Option.some.inj h
  rw [htext, shownValue?_fixedText hdecimals]
  cases negative with
  | false => exact ⟨units, rfl, hnearest⟩
  | true =>
    refine ⟨-units, ?_, ?_⟩
    · rw [Int.cast_neg, neg_div]
      rfl
    · rw [if_pos rfl, neg_mul]
      exact hnearest.neg

/-- A larger double does not show a smaller value. -/
theorem shownValue?_fixed_mono (hdecimals : 0 < decimals) {x y : Float} {v w p q : ℚ}
    (hx : (Binary64.ofFloat x).value? = some v) (hy : (Binary64.ofFloat y).value? = some w)
    (hle : v ≤ w) (hp : shownValue? (fixed decimals x) = some p)
    (hq : shownValue? (fixed decimals y) = some q) : p ≤ q := by
  obtain ⟨n, hn, hnearest⟩ := exists_shownValue?_fixed hdecimals hx
  obtain ⟨k, hk, hnearest'⟩ := exists_shownValue?_fixed hdecimals hy
  have hpow : (0 : ℚ) < 10 ^ decimals := by positivity
  obtain rfl := Option.some.inj (hn.symm.trans hp)
  obtain rfl := Option.some.inj (hk.symm.trans hq)
  rw [div_le_div_iff_of_pos_right hpow, Int.cast_le]
  exact hnearest.mono hnearest' (mul_le_mul_of_nonneg_right hle hpow.le)

end

/-- A double that is not finite is written as a word. -/
theorem fixed_of_not_isFinite (decimals : Nat) {x : Float} (h : x.isFinite = false) :
    fixed decimals x =
      if Scalar.isNaN x then "nan" else if Scalar.lt x (Scalar.ofInt 0) then "-inf" else "inf" := by
  cases hx : Binary64.ofFloat x with
  | finite negative m e =>
    rw [(Binary64.bounds_of_ofFloat hx).1] at h
    cases h
  | nan =>
    have hnan : Binary64.ofFloat (0.0 / 0.0) = .nan := by decide +kernel
    have hone : Scalar.isNaN (0.0 / 0.0 : Float) = true := by decide +kernel
    rw [Binary64.eq_of_nan hx hnan, if_pos hone, fixed, writeWith, hnan]
    rfl
  | infinite negative =>
    have hsigned : Scalar.isNaN (Binary64.toFloat negative Binary64.infinityRank) = false ∧
        Scalar.lt (Binary64.toFloat negative Binary64.infinityRank) (Scalar.ofInt 0) = negative := by
      cases negative <;> decide +kernel
    rw [Binary64.toFloat_of_infinite hx] at hsigned
    rw [hsigned.1, hsigned.2, fixed, writeWith, hx]
    cases negative <;> rfl

end Decimal

end Leapfrog
