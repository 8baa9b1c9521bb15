/-!
# Rounding a quotient to a whole number

Every number that is shortened before it is printed, and every decimal that is read, passes
through one division that rounds to the nearest whole number. `roundHalfEven` is that division.
Its laws fix the result: it lies within half a unit of the quotient, and a tie goes to the even
neighbour.
-/

namespace Leapfrog.Decimal

/-- The whole number nearest to `num / den`; of two equally near ones the even one. -/
def roundHalfEven (num den : Nat) : Nat :=
  let quotient := num / den
  let twice := 2 * (num % den)
  if twice < den then quotient
  else if den < twice then quotient + 1
  else quotient + quotient % 2

/-- The rounded quotient exceeds the quotient by at most one half. -/
theorem two_mul_roundHalfEven_le (num den : Nat) (h : 0 < den) :
    2 * (roundHalfEven num den * den) ≤ 2 * num + den := by
  have hd := Nat.div_add_mod num den
  have hm := Nat.mod_lt num h
  rw [Nat.mul_comm] at hd
  unfold roundHalfEven
  dsimp only
  split
  · omega
  · split
    · rw [Nat.add_mul]; omega
    · rcases Nat.mod_two_eq_zero_or_one (num / den) with hp | hp <;> rw [hp, Nat.add_mul] <;> omega

/-- The rounded quotient falls short of the quotient by at most one half. -/
theorem le_two_mul_roundHalfEven (num den : Nat) (h : 0 < den) :
    2 * num ≤ 2 * (roundHalfEven num den * den) + den := by
  have hd := Nat.div_add_mod num den
  have hm := Nat.mod_lt num h
  rw [Nat.mul_comm] at hd
  unfold roundHalfEven
  dsimp only
  split
  · omega
  · split
    · rw [Nat.add_mul]; omega
    · rcases Nat.mod_two_eq_zero_or_one (num / den) with hp | hp <;> rw [hp, Nat.add_mul] <;> omega

/-- A quotient that is whole is left as it is. -/
@[simp] theorem roundHalfEven_mul (n den : Nat) (h : 0 < den) :
    roundHalfEven (n * den) den = n := by
  simp [roundHalfEven, Nat.mul_div_cancel n h, h]

/-- A tie goes to the even neighbour. -/
theorem roundHalfEven_tie_even (num den : Nat) (tie : 2 * (num % den) = den) :
    roundHalfEven num den % 2 = 0 := by
  have hb : ¬ den < den := Nat.lt_irrefl den
  simp only [roundHalfEven, tie, if_neg hb]
  omega

end Leapfrog.Decimal
