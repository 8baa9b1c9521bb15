import Leapfrog.Tolerance
import Mathlib.Algebra.Ring.Int.Defs
import Mathlib.Tactic.Common

/-!
# Quantities as they are given

A timestep and a bound on the error may be given as whole numbers. Before it is asked whether such a
number is finite and whether it is in range, it has to fit into 64 bits, with a sign or without one.
A scalar has no more bits than that.
-/

namespace Leapfrog

variable {α : Type}

/-- A whole number has at most 64 bits, with a sign or without one. A scalar has no more of them. -/
def Number.FitsWord : Number α → Prop
  | .whole n => -2 ^ 63 ≤ n ∧ n < 2 ^ 64
  | .scalar _ => True

instance : (t : Number α) → Decidable t.FitsWord
  | .whole n => inferInstanceAs (Decidable (-2 ^ 63 ≤ n ∧ n < 2 ^ 64))
  | .scalar _ => inferInstanceAs (Decidable True)

/-- It can be asked of a number whether it is finite exactly if it has at most 64 bits. -/
theorem Number.isNarrow_iff {t : Number α} : t.isNarrow = true ↔ t.FitsWord := by
  cases t with
  | whole n => rw [isNarrow, decide_eq_true_iff]; rfl
  | scalar x => simp [isNarrow, FitsWord]

/-- It cannot be asked of any other number. -/
theorem Number.not_isNarrow_iff {t : Number α} : (!t.isNarrow) = true ↔ ¬ t.FitsWord := by
  rw [← isNarrow_iff]
  simp

/-- A number is accepted as a timestep exactly if it has at most 64 bits and is positive as a
scalar. -/
theorem Number.timestep_eq [Scalar α] (t : Number α) :
    t.timestep =
      if ¬ t.FitsWord then .error .wideNumber
      else if h : Scalar.isPositive t.nearest = true then .ok ⟨t.nearest, h⟩
      else .error (.timestep t) := by
  unfold timestep
  simp only [not_isNarrow_iff]

/-- A timestep that is accepted is the scalar nearest to the number that is given. -/
theorem Number.timestep_eq_ok_iff [Scalar α] {t : Number α}
    {x : { x : α // Scalar.isPositive x = true }} :
    t.timestep = .ok x ↔ t.FitsWord ∧ (x : α) = t.nearest := by
  rw [timestep_eq]
  by_cases hword : t.FitsWord
  · rw [if_neg (not_not.mpr hword)]
    constructor
    · intro h
      split at h
      · exact ⟨hword, (congrArg Subtype.val (Except.ok.inj h)).symm⟩
      · cases h
    · rintro ⟨-, hx⟩
      rw [dif_pos (hx ▸ x.2)]
      exact congrArg Except.ok (Subtype.ext hx.symm)
  · simp [hword]

/-- A number is accepted as a bound on the error exactly if it has at most 64 bits and is not negative
as a scalar. -/
theorem Tolerance.ofEpsilon_eq [Scalar α] (epsilon : Number α) :
    ofEpsilon epsilon =
      if ¬ epsilon.FitsWord then .error .wideNumber
      else if h : Scalar.isNonnegative epsilon.nearest = true then .ok ⟨epsilon.nearest, h⟩
      else .error (.epsilon epsilon) := by
  unfold ofEpsilon
  simp only [Number.not_isNarrow_iff]

end Leapfrog
