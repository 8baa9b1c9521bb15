import Leapfrog.Json.Reader
import Leapfrog.Proofs.ShortestDigits

/-!
# The texts of numbers

A number is written as a numeral: whole digits, decimals after a point and an exponent, the last two
optional. A numeral is read back part by part, and its value is that of all its digits in units of the
last one. What is written for a number has the value of the number, so every whole number and every
double is read back as itself.
-/

namespace Leapfrog.Json

open Leapfrog.Decimal (Binary64 Digits Style digitChars digitCount signChars exponentChars joinPoint
  trimZeros wholeChars)

/-- A row of decimal digits, at least one. -/
structure IsRow (cs : List Char) : Prop where
  ne_nil : cs ≠ []
  isDigit : ∀ c ∈ cs, c.isDigit = true

/-- Zeros are digits. -/
theorem isDigit_zeros (k : Nat) : ∀ c ∈ List.replicate k '0', c.isDigit = true := by
  intro c hc
  rw [List.eq_of_mem_replicate hc]
  rfl

/-- The digits of a number are a row. -/
theorem isRow_digitChars (n : Nat) : IsRow (digitChars n) :=
  ⟨Nat.toDigits_ne_nil, fun _ => Nat.isDigit_of_mem_toDigits (by decide) (by decide)⟩

/-- The digits of a number have its value. -/
theorem digitsValue_digitChars (n : Nat) : digitsValue (digitChars n) = n :=
  Nat.ofDigitChars_ten_toDigits

/-- The value of one row after another. -/
theorem digitsValue_append (cs ds : List Char) :
    digitsValue (cs ++ ds) = 10 ^ ds.length * digitsValue cs + digitsValue ds := by
  change Nat.ofDigitChars 10 (cs ++ ds) 0 = _
  rw [Nat.ofDigitChars_append, Nat.ofDigitChars_eq_ofDigitChars_zero]
  rfl

/-- Zeros have no value. -/
theorem digitsValue_zeros (k : Nat) : digitsValue (List.replicate k '0') = 0 :=
  Nat.ofDigitChars_replicate_zero.trans (Nat.mul_zero _)

/-- A row has a value below the power of ten with one digit more. -/
theorem digitsValue_lt {cs : List Char} (h : ∀ c ∈ cs, c.isDigit = true) :
    digitsValue cs < 10 ^ cs.length := by
  induction cs using List.reverseRecOn with
  | nil => decide
  | append_singleton cs c ih =>
    have hdigit := Char.isDigit_iff_toNat.mp (h c (by simp))
    have hvalue : digitsValue [c] ≤ 9 := by
      change 10 * 0 + (c.toNat - '0'.toNat) ≤ 9
      have hnine : '9'.toNat = 57 := rfl
      have hzero : '0'.toNat = 48 := rfl
      omega
    have hrest := ih fun d hd => h d (List.mem_append_left _ hd)
    rw [digitsValue_append, List.length_append, List.length_singleton, pow_succ]
    omega

/-- Whether a row may stand before the point: it has one digit or does not begin with zero. -/
def IsCanonical (cs : List Char) : Prop := cs.length = 1 ∨ cs.head? ≠ some '0'

/-- The digits of a number do not begin with zero unless the number is zero. -/
theorem head?_digitChars {n : Nat} (hn : n ≠ 0) : (digitChars n).head? ≠ some '0' := by
  intro hhead
  obtain ⟨rest, hrest⟩ := List.head?_eq_some_iff.mp hhead
  have hvalue := digitsValue_digitChars n
  have hleast := Decimal.pow_digitCount_le hn
  have hdigits := (isRow_digitChars n).isDigit
  rw [hrest] at hdigits
  have hlt := digitsValue_lt fun c hc => hdigits c (List.mem_cons_of_mem _ hc)
  have hcount : digitCount n - 1 = rest.length := by
    rw [digitCount, hrest, List.length_cons, Nat.add_sub_cancel]
  rw [hrest] at hvalue
  change digitsValue ([ '0' ] ++ rest) = n at hvalue
  rw [digitsValue_append] at hvalue
  change 10 ^ rest.length * 0 + digitsValue rest = n at hvalue
  rw [hcount] at hleast
  omega

/-- The digits of a number may stand before a point. -/
theorem isCanonical_digitChars (n : Nat) : IsCanonical (digitChars n) := by
  rcases Nat.eq_zero_or_pos n with rfl | hpos
  · exact .inl rfl
  · exact .inr (head?_digitChars hpos.ne')

/-- The reader takes a row of digits up to the first other character. -/
theorem takeDigits?_append {digits rest : List Char} (hdigits : IsRow digits)
    (hrest : ∀ c ∈ rest.head?, c.isDigit = false) :
    takeDigits? (digits ++ rest) = some (digits, rest) := by
  have htake : (digits ++ rest).takeWhile Char.isDigit = digits ∧
      (digits ++ rest).dropWhile Char.isDigit = rest := by
    rw [List.takeWhile_append_of_pos hdigits.isDigit, List.dropWhile_append_of_pos hdigits.isDigit]
    cases rest with
    | nil => simp
    | cons c rest => simp [hrest c rfl]
  unfold takeDigits?
  rw [htake.1, htake.2]
  cases digits with
  | nil => exact absurd rfl hdigits.ne_nil
  | cons c digits => rfl

/-- The sign of a number is taken from in front of its digits. -/
theorem takeMinus_signChars (negative : Bool) {digits rest : List Char} (hdigits : IsRow digits) :
    takeMinus (signChars negative ++ (digits ++ rest)) = (negative, digits ++ rest) := by
  cases negative with
  | true => rfl
  | false =>
    obtain ⟨c, cs, rfl⟩ := List.exists_cons_of_ne_nil hdigits.ne_nil
    have hc := hdigits.isDigit c List.mem_cons_self
    change takeMinus (c :: (cs ++ rest)) = _
    unfold takeMinus
    split
    · next heq =>
      obtain rfl := (List.cons.inj heq).1
      cases hc
    · rfl

/-- The decimals of a numeral, after their point. -/
def decimalsChars : Option (List Char) → List Char
  | none => []
  | some digits => '.' :: digits

/-- The exponent of a numeral. -/
def powerChars : Option Int → List Char
  | none => []
  | some e => exponentChars e

/-- An exponent does not begin with a digit or a point. -/
theorem head?_powerChars (exponent : Option Int) :
    ∀ c ∈ (powerChars exponent).head?, c.isDigit = false ∧ c ≠ '.' := by
  intro c hc
  cases exponent with
  | none => cases hc
  | some e =>
    obtain rfl := Option.some_inj.mp hc
    exact ⟨rfl, by decide⟩

/-- An exponent is read back. -/
theorem takeExponent?_powerChars (exponent : Option Int) :
    takeExponent? (powerChars exponent) = some (exponent, []) := by
  cases exponent with
  | none => rfl
  | some e =>
    obtain ⟨row, hrow⟩ : ∃ row,
        row = List.replicate (2 - (digitChars e.natAbs).length) '0' ++ digitChars e.natAbs := ⟨_, rfl⟩
    have htake : takeDigits? row = some (row, []) := by
      have hdigits : IsRow row := by
        rw [hrow]
        exact ⟨List.append_ne_nil_of_right_ne_nil _ (isRow_digitChars _).ne_nil, fun c hc =>
          (List.mem_append.mp hc).elim (isDigit_zeros _ c) ((isRow_digitChars _).isDigit c)⟩
      have hend : ∀ c ∈ ([] : List Char).head?, c.isDigit = false := fun c hc => nomatch hc
      have happend := takeDigits?_append hdigits hend
      rwa [List.append_nil] at happend
    have hvalue : digitsValue row = e.natAbs := by
      rw [hrow, digitsValue_append, digitsValue_zeros, digitsValue_digitChars, Nat.mul_zero,
        Nat.zero_add]
    have hplus : signedExponent? ('+' :: row) = some ((digitsValue row : Int), []) := by
      change (takeDigits? row).map _ = _
      rw [htake]
      rfl
    have hminus : signedExponent? ('-' :: row) = some (-(digitsValue row : Int), []) := by
      change (takeDigits? row).map _ = _
      rw [htake]
      rfl
    have hchars : powerChars (some e) = 'e' :: (if e < 0 then '-' else '+') :: row := by
      rw [hrow]
      rfl
    rw [hchars]
    change (signedExponent? _).map _ = _
    split
    · next he =>
      have habs : -(e.natAbs : Int) = e := by omega
      rw [hminus, hvalue, habs]
      rfl
    · next he =>
      have habs : (e.natAbs : Int) = e := by omega
      rw [hplus, hvalue, habs]
      rfl

/-- A number as it is written. -/
structure Numeral where
  /-- The digits before the point. -/
  whole : List Char
  /-- The digits after the point, if there is one. -/
  decimals : Option (List Char)
  exponent : Option Int
  whole_row : IsRow whole
  whole_canonical : IsCanonical whole
  decimals_row : ∀ digits ∈ decimals, IsRow digits

namespace Numeral

/-- The text of a numeral. -/
def chars (n : Numeral) : List Char := n.whole ++ (decimalsChars n.decimals ++ powerChars n.exponent)

/-- All digits of a numeral as one whole number. -/
def digits (n : Numeral) : Nat := digitsValue (n.whole ++ n.decimals.getD [])

/-- The power of ten that the last digit of a numeral stands for. -/
def unit (n : Numeral) : Int := n.exponent.getD 0 - (n.decimals.getD []).length

/-- Whether a numeral shows that it is a double: it has a point or an exponent. -/
def IsReal (n : Numeral) : Prop := n.decimals.isSome = true ∨ n.exponent.isSome = true

/-- What follows the whole digits is not a digit. -/
theorem head?_rest (n : Numeral) :
    ∀ c ∈ (decimalsChars n.decimals ++ powerChars n.exponent).head?, c.isDigit = false := by
  intro c hc
  cases hdecimals : n.decimals with
  | none =>
    rw [hdecimals] at hc
    exact (head?_powerChars n.exponent c hc).1
  | some digits =>
    rw [hdecimals] at hc
    obtain rfl := Option.some_inj.mp hc
    rfl

/-- The decimals of a numeral are read back. -/
theorem takeDecimals?_chars (n : Numeral) :
    takeDecimals? (decimalsChars n.decimals ++ powerChars n.exponent) =
      some (n.decimals, powerChars n.exponent) := by
  cases hdecimals : n.decimals with
  | none =>
    change takeDecimals? (powerChars n.exponent) = _
    unfold takeDecimals?
    split
    · next heq => exact absurd rfl (head?_powerChars n.exponent '.' (by rw [heq]; rfl)).2
    · rfl
  | some digits =>
    change (takeDigits? (digits ++ powerChars n.exponent)).map _ = _
    rw [takeDigits?_append (n.decimals_row digits hdecimals) fun c hc =>
      (head?_powerChars n.exponent c hc).1]
    rfl

/-- A numeral is read part by part. -/
theorem number?_chars (n : Numeral) (negative : Bool) :
    number? (signChars negative ++ n.chars) =
      match n.decimals, n.exponent with
      | none, none =>
        let k : Int := digitsValue n.whole
        some (.whole (if negative then -k else k))
      | _, _ => some (.real (Binary64.ofDecimal negative n.digits n.unit)) := by
  unfold number? chars
  rw [takeMinus_signChars negative n.whole_row]
  dsimp only
  rw [takeDigits?_append n.whole_row n.head?_rest]
  have hcanonical : n.whole.length = 1 ∨ n.whole.head? ≠ some '0' := n.whole_canonical
  simp only [Option.bind_eq_bind, Option.bind_some, guard, if_pos hcanonical, Option.pure_def,
    n.takeDecimals?_chars, takeExponent?_powerChars, List.isEmpty_nil, if_true]
  rfl

/-- A numeral that shows that it is a double is read as the double nearest to its value. -/
theorem number?_of_isReal {n : Numeral} (h : n.IsReal) (negative : Bool) :
    number? (signChars negative ++ n.chars) =
      some (.real (Binary64.ofDecimal negative n.digits n.unit)) := by
  rw [number?_chars]
  split
  · next hdecimals hexponent =>
    rw [IsReal, hdecimals, hexponent] at h
    exact absurd h (by decide)
  · rfl

end Numeral

/-- Zeros at the end of a row do not change what it stands for. -/
theorem value_zeros (cs : List Char) (k : Nat) (e : Int) :
    (digitsValue (cs ++ List.replicate k '0') : ℚ) * 10 ^ (e - k) = digitsValue cs * 10 ^ e := by
  have hten : (10 : ℚ) ≠ 0 := by norm_num
  rw [digitsValue_append, digitsValue_zeros, List.length_replicate, Nat.add_zero]
  push_cast
  rw [mul_comm ((10 : ℚ) ^ k), mul_assoc, ← zpow_natCast, ← zpow_add₀ hten, add_sub_cancel]

/-- Decimals that differ in zeros at their ends stand for the same number. -/
theorem value_decimals (whole : List Char) {kept decimals : List Char} {i j : Nat} (e : Int)
    (h : kept ++ List.replicate i '0' = decimals ++ List.replicate j '0') :
    (digitsValue (whole ++ kept) : ℚ) * 10 ^ (e - kept.length) =
      digitsValue (whole ++ decimals) * 10 ^ (e - decimals.length) := by
  have hlength := congrArg List.length h
  rw [List.length_append, List.length_append, List.length_replicate, List.length_replicate] at hlength
  have hexponent : e - kept.length - i = e - decimals.length - j := by omega
  rw [← value_zeros _ i, List.append_assoc, h, ← List.append_assoc, hexponent, value_zeros]

/-- What is trimmed are zeros. -/
theorem exists_trimZeros_append (digits : List Char) :
    ∃ k, trimZeros digits ++ List.replicate k '0' = digits := by
  have hzeros : (digits.reverse.takeWhile (· == '0')).reverse =
      List.replicate (digits.reverse.takeWhile (· == '0')).length '0' := by
    rw [← List.reverse_replicate, List.reverse_inj, List.eq_replicate_iff]
    refine ⟨rfl, fun c hc => ?_⟩
    have hzero := List.mem_takeWhile_imp hc
    exact beq_iff_eq.mp hzero
  refine ⟨(digits.reverse.takeWhile (· == '0')).length, ?_⟩
  rw [trimZeros, ← hzeros, ← List.reverse_append, List.takeWhile_append_dropWhile, List.reverse_reverse]

/-- Trimmed digits are digits. -/
theorem isDigit_trimZeros {digits : List Char} (h : ∀ c ∈ digits, c.isDigit = true) :
    ∀ c ∈ trimZeros digits, c.isDigit = true := by
  obtain ⟨k, hk⟩ := exists_trimZeros_append digits
  intro c hc
  exact h c (hk ▸ List.mem_append_left _ hc)

/-- The digits on either side of the point of a number. -/
structure Splits (whole decimals : List Char) (q : ℚ) : Prop where
  row : IsRow whole
  canonical : IsCanonical whole
  isDigit : ∀ c ∈ decimals, c.isDigit = true
  value : (digitsValue (whole ++ decimals) : ℚ) * 10 ^ (0 - decimals.length : Int) = q

/-- Positional digits with a point are a numeral of their value. -/
theorem Splits.exists_numeral {whole decimals : List Char} {q : ℚ} (h : Splits whole decimals q) :
    ∃ n : Numeral,
      n.chars = joinPoint whole (if (trimZeros decimals).isEmpty then ['0'] else trimZeros decimals) ∧
      n.IsReal ∧ (n.digits : ℚ) * 10 ^ n.unit = q := by
  obtain ⟨k, hk⟩ := exists_trimZeros_append decimals
  have hnumeral {kept : List Char} {i j : Nat} (hkept : IsRow kept)
      (hzeros : kept ++ List.replicate i '0' = decimals ++ List.replicate j '0') :
      ∃ n : Numeral, n.chars = joinPoint whole kept ∧ n.IsReal ∧
        (n.digits : ℚ) * 10 ^ n.unit = q := by
    refine ⟨⟨whole, some kept, none, h.row, h.canonical, fun _ hmem => ?_⟩, ?_, .inl rfl,
      (value_decimals whole 0 hzeros).trans h.value⟩
    · obtain rfl := Option.some_inj.mp hmem
      exact hkept
    · have hempty : kept.isEmpty = false := List.isEmpty_eq_false_iff.mpr hkept.ne_nil
      rw [joinPoint, hempty]
      exact congrArg (whole ++ ·) (List.append_nil _)
  split
  · next hempty =>
    rw [List.isEmpty_iff] at hempty
    rw [hempty, List.nil_append] at hk
    refine hnumeral (i := k) (j := 1) ⟨List.cons_ne_nil _ _, isDigit_zeros 1⟩ ?_
    rw [← hk, List.replicate_append_replicate]
    rfl
  · next hkept =>
    refine hnumeral (i := k) (j := 0) ⟨fun hnil => hkept (by rw [hnil]; rfl),
      isDigit_trimZeros h.isDigit⟩ ?_
    rw [hk]
    exact (List.append_nil _).symm

/-- Digits in exponential notation are a numeral of their value. -/
theorem exists_numeral_exponential {first rest : List Char} (hfirst : IsRow first)
    (hone : first.length = 1) (hrest : ∀ c ∈ rest, c.isDigit = true) (e : Int) :
    ∃ n : Numeral, n.chars = joinPoint first (trimZeros rest) ++ exponentChars e ∧ n.IsReal ∧
      (n.digits : ℚ) * 10 ^ n.unit = digitsValue (first ++ rest) * 10 ^ (e - rest.length) := by
  obtain ⟨k, hk⟩ := exists_trimZeros_append rest
  have hvalue := value_decimals first (j := 0) e (hk.trans (List.append_nil _).symm)
  by_cases hempty : trimZeros rest = []
  · refine ⟨⟨first, none, some e, hfirst, .inl hone, fun _ hmem => nomatch hmem⟩, ?_, .inr rfl, ?_⟩
    · rw [hempty]
      rfl
    · rw [hempty] at hvalue
      exact hvalue
  · refine ⟨⟨first, some (trimZeros rest), some e, hfirst, .inl hone, fun _ hmem => ?_⟩, ?_, .inr rfl,
      hvalue⟩
    · obtain rfl := Option.some_inj.mp hmem
      exact ⟨hempty, isDigit_trimZeros hrest⟩
    · have hkept : (trimZeros rest).isEmpty = false := List.isEmpty_eq_false_iff.mpr hempty
      rw [joinPoint, hkept]
      exact (List.append_assoc first _ _).symm

/-- The characters of proper digits. -/
theorem chars_of_isProper {d : Digits} (h : d.IsProper) :
    d.chars = digitChars d.significand ∧ d.chars.length = d.places := by
  have hcount : (digitChars d.significand).length = d.places := h.digitCount_eq
  have hchars : d.chars = digitChars d.significand := by
    unfold Digits.chars
    dsimp only
    rw [hcount, Nat.sub_self]
    rfl
  exact ⟨hchars, hchars ▸ hcount⟩

/-- The digits of a number below one follow zeros. -/
theorem splits_of_neg {d : Digits} (h : d.IsProper) (hexponent : d.exponent < 0) :
    Splits ['0'] (List.replicate (-d.exponent - 1).toNat '0' ++ d.chars)
      (d.significand * 10 ^ d.unit) := by
  obtain ⟨hchars, hlength⟩ := chars_of_isProper h
  have hvalue : digitsValue d.chars = d.significand := hchars ▸ digitsValue_digitChars _
  have hunit : (0 : Int) - (List.replicate (-d.exponent - 1).toNat '0' ++ d.chars).length =
      d.unit := by
    rw [List.length_append, List.length_replicate, hlength, Digits.unit]
    omega
  refine ⟨⟨List.cons_ne_nil _ _, isDigit_zeros 1⟩, .inl rfl, fun c hc => ?_, ?_⟩
  · exact (List.mem_append.mp hc).elim (isDigit_zeros _ c) ((hchars ▸ isRow_digitChars _).isDigit c)
  · rw [hunit, digitsValue_append, digitsValue_append, digitsValue_zeros, hvalue, Nat.mul_zero,
      Nat.zero_add]
    change ((_ * 0 + d.significand : Nat) : ℚ) * _ = _
    rw [Nat.mul_zero, Nat.zero_add]

/-- The first digits of a number from one up stand before the point, zeros in the place of those that
are missing. -/
theorem splits_of_nonneg {d : Digits} (h : d.IsProper) (hexponent : 0 ≤ d.exponent) :
    Splits (d.chars.take (d.exponent.toNat + 1) ++
        List.replicate (d.exponent.toNat + 1 - d.chars.length) '0')
      (d.chars.drop (d.exponent.toNat + 1)) (d.significand * 10 ^ d.unit) := by
  obtain ⟨hchars, hlength⟩ := chars_of_isProper h
  have hrow : IsRow d.chars := hchars ▸ isRow_digitChars _
  have hvalue : digitsValue d.chars = d.significand := hchars ▸ digitsValue_digitChars _
  have hsignificand : d.significand ≠ 0 :=
    (Nat.lt_of_lt_of_le (Nat.pow_pos (by decide)) h.least).ne'
  obtain ⟨first, rest, hcons⟩ := List.exists_cons_of_ne_nil hrow.ne_nil
  refine ⟨⟨?_, fun c hc => ?_⟩, .inr ?_, fun c hc => hrow.isDigit c (List.mem_of_mem_drop hc), ?_⟩
  · rw [hcons]
    exact List.cons_ne_nil _ _
  · exact (List.mem_append.mp hc).elim (fun hc => hrow.isDigit c (List.mem_of_mem_take hc))
      (isDigit_zeros _ c)
  · have hhead : (d.chars.take (d.exponent.toNat + 1) ++
        List.replicate (d.exponent.toNat + 1 - d.chars.length) '0').head? = d.chars.head? := by
      rw [hcons]
      rfl
    rw [hhead, hchars]
    exact head?_digitChars hsignificand
  · -- All digits stand before the point and zeros follow them, or none is missing there.
    rcases Nat.le_total d.places (d.exponent.toNat + 1) with hle | hle
    · have hzeros := value_zeros d.chars (d.exponent.toNat + 1 - d.places)
        (d.exponent.toNat + 1 - d.places : Nat)
      have hunit : ((d.exponent.toNat + 1 - d.places : Nat) : Int) = d.unit := by
        unfold Digits.unit
        omega
      rw [sub_self, hvalue] at hzeros
      rw [List.take_of_length_le (by omega), List.drop_of_length_le (by omega), hlength,
        List.append_nil, List.length_nil, Nat.cast_zero, sub_zero, hzeros, hunit]
    · have hunit : (0 : Int) - (d.chars.drop (d.exponent.toNat + 1)).length = d.unit := by
        rw [List.length_drop, hlength, Digits.unit]
        omega
      have hnone : d.exponent.toNat + 1 - d.chars.length = 0 := by omega
      rw [hunit, hnone, List.replicate_zero, List.append_nil, List.take_append_drop, hvalue]

/-- Proper digits on either side of the point. -/
theorem splits_of_isProper {d : Digits} (h : d.IsProper) :
    Splits d.split.1 d.split.2 (d.significand * 10 ^ d.unit) := by
  unfold Digits.split
  split
  · next hexponent => exact splits_of_neg h hexponent
  · next hexponent => exact splits_of_nonneg h (not_lt.mp hexponent)

/-- Proper digits are written as a numeral of their value. -/
theorem exists_numeral_of_isProper {d : Digits} (h : d.IsProper) :
    ∃ n : Numeral, n.chars = Style.plain.write d ∧ n.IsReal ∧
      (n.digits : ℚ) * 10 ^ n.unit = d.significand * 10 ^ d.unit := by
  unfold Style.write
  split
  · obtain ⟨n, hchars, hreal, hvalue⟩ := (splits_of_isProper h).exists_numeral
    refine ⟨n, ?_, hreal, hvalue⟩
    rw [hchars]
    simp only [Style.plain, Bool.and_true]
  · obtain ⟨hchars, hlength⟩ := chars_of_isProper h
    have hrow : IsRow d.chars := hchars ▸ isRow_digitChars _
    have hpos := h.pos
    have hone : (d.chars.take 1).length = 1 := by
      rw [List.length_take]
      omega
    have hunit : d.exponent - (d.chars.drop 1).length = d.unit := by
      rw [List.length_drop, hlength, Digits.unit]
      omega
    have hfirst : IsRow (d.chars.take 1) := by
      refine ⟨fun hnil => ?_, fun c hc => hrow.isDigit c (List.mem_of_mem_take hc)⟩
      rw [hnil] at hone
      cases hone
    obtain ⟨n, hn, hreal, hvalue⟩ := exists_numeral_exponential hfirst hone
      (fun c hc => hrow.isDigit c (List.mem_of_mem_drop hc)) d.exponent
    refine ⟨n, hn, hreal, hvalue.trans ?_⟩
    rw [List.take_append_drop, hunit, hchars, digitsValue_digitChars]

/-- The magnitude of a double is written as a numeral that is read as the double. -/
theorem exists_numeral_plainMagnitude (m : Nat) (e : Int) :
    ∃ n : Numeral, n.chars = Decimal.plainMagnitude m e ∧ n.IsReal ∧
      Binary64.rankOfDecimal n.digits n.unit =
        Binary64.nearestRank (Binary64.quotient m e).1 (Binary64.quotient m e).2 := by
  unfold Decimal.plainMagnitude
  split
  · next hm =>
    have hzero : Binary64.nearestRank (Binary64.quotient m e).1 (Binary64.quotient m e).2 = 0 := by
      obtain ⟨hden, hvalue⟩ := Binary64.quotient_eq m e
      refine Binary64.nearestRank_eq_zero hden ?_
      rw [hvalue, hm, Nat.cast_zero, zero_mul]
      exact zpow_pos two_pos _
    refine ⟨⟨['0'], some ['0'], none, ⟨List.cons_ne_nil _ _, isDigit_zeros 1⟩, .inl rfl,
      fun _ hmem => ?_⟩, rfl, .inl rfl, ?_⟩
    · obtain rfl := Option.some_inj.mp hmem
      exact ⟨List.cons_ne_nil _ _, isDigit_zeros 1⟩
    · rw [hzero]
      rfl
  · next hm =>
    have hspells := Digits.spells_shortest hm e
    obtain ⟨n, hchars, hreal, hvalue⟩ := exists_numeral_of_isProper hspells.toIsProper
    exact ⟨n, hchars, hreal, (Binary64.rankOfDecimal_congr hvalue).trans hspells.reads⟩

/-- What begins with a digit, after a sign or not, is read as a number. -/
theorem word?_eq_number? (negative : Bool) {cs : List Char} (hne : cs ≠ [])
    (hdigit : ∀ c ∈ cs.head?, c.isDigit = true) :
    word? (signChars negative ++ cs) = number? (signChars negative ++ cs) := by
  obtain ⟨c, cs, rfl⟩ := List.exists_cons_of_ne_nil hne
  have hother {d : Char} (hd : d.isDigit = false) : c ≠ d := by
    rintro rfl
    rw [hdigit c rfl] at hd
    cases hd
  cases negative with
  | true => simp [word?, signChars, tokens, hother (d := 'I') rfl]
  | false =>
    simp [word?, signChars, tokens, hother (d := 'n') rfl, hother (d := 't') rfl,
      hother (d := 'f') rfl, hother (d := 'N') rfl, hother (d := 'I') rfl, hother (d := '-') rfl]

/-- A numeral begins with a digit. -/
theorem Numeral.head?_chars (n : Numeral) :
    n.chars ≠ [] ∧ ∀ c ∈ n.chars.head?, c.isDigit = true := by
  obtain ⟨first, rest, hcons⟩ := List.exists_cons_of_ne_nil n.whole_row.ne_nil
  unfold chars
  rw [hcons]
  refine ⟨List.cons_ne_nil _ _, fun c hc => ?_⟩
  obtain rfl := Option.some_inj.mp hc
  exact n.whole_row.isDigit _ (hcons ▸ List.mem_cons_self)

/-- What is written for a double is read as the double. -/
theorem word?_realChars (x : Float) : word? (realChars x) = some (.real x) := by
  unfold realChars Decimal.writeWith
  cases hx : Binary64.ofFloat x with
  | nan =>
    have hnan : Binary64.ofFloat (0.0 / 0.0) = .nan := by decide +kernel
    rw [Binary64.eq_of_nan hx hnan]
    rfl
  | infinite negative =>
    have hinfinite := Binary64.toFloat_of_infinite hx
    cases negative with
    | true => exact congrArg (fun y => some (real y)) hinfinite
    | false => exact congrArg (fun y => some (real y)) hinfinite
  | finite negative m e =>
    obtain ⟨n, hchars, hreal, hrank⟩ := exists_numeral_plainMagnitude m e
    obtain ⟨hne, hdigit⟩ := n.head?_chars
    dsimp only
    rw [← hchars, word?_eq_number? negative hne hdigit, Numeral.number?_of_isReal hreal,
      Binary64.ofDecimal, hrank, Binary64.toFloat_of_finite hx]

/-- The digits of a natural number as a numeral. -/
def Numeral.ofNat (n : Nat) : Numeral where
  whole := digitChars n
  decimals := none
  exponent := none
  whole_row := isRow_digitChars n
  whole_canonical := isCanonical_digitChars n
  decimals_row := fun _ hmem => nomatch hmem

/-- The text of a natural number is its digits. -/
theorem Numeral.chars_ofNat (n : Nat) : (Numeral.ofNat n).chars = digitChars n := List.append_nil _

/-- What is written for a whole number is read as the whole number. -/
theorem word?_wholeChars (n : Int) : word? (wholeChars n) = some (.whole n) := by
  obtain ⟨hne, hdigit⟩ := (Numeral.ofNat n.natAbs).head?_chars
  unfold wholeChars
  rw [← Numeral.chars_ofNat, word?_eq_number? _ hne hdigit, Numeral.number?_chars]
  change some (whole (if decide (n < 0) = true then -(digitsValue (digitChars n.natAbs) : Int)
    else digitsValue (digitChars n.natAbs))) = _
  rw [digitsValue_digitChars]
  congr 2
  split
  · next hnegative =>
    rw [decide_eq_true_iff] at hnegative
    omega
  · next hpositive =>
    rw [decide_eq_true_iff] at hpositive
    omega

/-- A text of word characters, at least one. -/
structure IsWord (cs : List Char) : Prop where
  ne_nil : cs ≠ []
  isWordChar : ∀ c ∈ cs, isWordChar c = true

/-- Digits are word characters. -/
theorem isWordChar_of_isDigit {c : Char} (h : c.isDigit = true) : isWordChar c = true := by
  simp [isWordChar, Char.isAlphanum, h]

/-- A part of a word: word characters, or none. -/
def IsWordPart (cs : List Char) : Prop := ∀ c ∈ cs, isWordChar c = true

/-- Digits are a part of a word. -/
theorem isWordPart_of_isDigit {cs : List Char} (h : ∀ c ∈ cs, c.isDigit = true) : IsWordPart cs :=
  fun c hc => isWordChar_of_isDigit (h c hc)

/-- Two parts of a word are one. -/
theorem IsWordPart.append {cs ds : List Char} (hcs : IsWordPart cs) (hds : IsWordPart ds) :
    IsWordPart (cs ++ ds) :=
  List.forall_mem_append.mpr ⟨hcs, hds⟩

/-- A word character goes in front of a part of a word. -/
theorem IsWordPart.cons {c : Char} {cs : List Char} (hc : isWordChar c = true)
    (hcs : IsWordPart cs) : IsWordPart (c :: cs) :=
  List.forall_mem_cons.mpr ⟨hc, hcs⟩

/-- A sign is a part of a word. -/
theorem isWordPart_signChars (negative : Bool) : IsWordPart (signChars negative) := by
  cases negative <;> exact List.all_eq_true.mp rfl

/-- An exponent is a part of a word. -/
theorem isWordPart_exponentChars (e : Int) : IsWordPart (exponentChars e) := by
  refine .cons rfl (.cons ?_ (.append ?_ ?_))
  · split <;> rfl
  · exact isWordPart_of_isDigit (isDigit_zeros _)
  · exact isWordPart_of_isDigit (isRow_digitChars _).isDigit

/-- A signed numeral is a word. -/
theorem Numeral.isWord (n : Numeral) (negative : Bool) : IsWord (signChars negative ++ n.chars) := by
  refine ⟨List.append_ne_nil_of_right_ne_nil _ n.head?_chars.1, ?_⟩
  have hdecimals : IsWordPart (decimalsChars n.decimals) := by
    cases hd : n.decimals with
    | none => exact fun c hc => nomatch hc
    | some digits => exact .cons rfl (isWordPart_of_isDigit (n.decimals_row digits hd).isDigit)
  have hpower : IsWordPart (powerChars n.exponent) := by
    cases n.exponent with
    | none => exact fun c hc => nomatch hc
    | some e => exact isWordPart_exponentChars e
  exact (isWordPart_signChars negative).append
    (.append (isWordPart_of_isDigit n.whole_row.isDigit) (hdecimals.append hpower))

/-- What is written for a double is a word. -/
theorem isWord_realChars (x : Float) : IsWord (realChars x) := by
  unfold realChars Decimal.writeWith
  split
  · exact ⟨List.cons_ne_nil _ _, List.all_eq_true.mp rfl⟩
  · next negative _ =>
    cases negative <;> exact ⟨List.cons_ne_nil _ _, List.all_eq_true.mp rfl⟩
  · next negative m e _ =>
    obtain ⟨n, hchars, -, -⟩ := exists_numeral_plainMagnitude m e
    rw [← hchars]
    exact n.isWord negative

/-- What is written for a whole number is a word. -/
theorem isWord_wholeChars (n : Int) : IsWord (wholeChars n) := by
  rw [wholeChars, ← Numeral.chars_ofNat]
  exact (Numeral.ofNat n.natAbs).isWord _

end Leapfrog.Json
