import Leapfrog.Coupling
import Leapfrog.Index
import Leapfrog.Tensor

/-!
# Comparing with the reference

Two arrays are compared component by component, in row-major order. A component is a mismatch
unless its distance from the expected value is within the bound; a distance that is not a number is
within no bound.

A single value is tested by `isWithin`, and the components of two arrays by `Mismatch.violating`, all
at once. `Mismatch.scan_eq` says that the second test decides as the first one.
-/

namespace Leapfrog

/-- Which quantity is compared. -/
inductive Quantity where
  | position
  | velocity
  deriving DecidableEq, Repr

namespace Quantity

/-- The word for a quantity. -/
def word : Quantity → String
  | position => "position"
  | velocity => "velocity"

/-- The quantity that a word stands for. -/
def ofWord {α : Type} : String → Except (Fault α) Quantity :=
  chooseWord "ValueKind" ([position, velocity].map fun q => (q.word, q))

/-- How a component is called in a sentence. -/
def component : Quantity → String
  | position => "Coordinate"
  | velocity => "Velocity component"

end Quantity

/-- A component that differs from its reference by too much. -/
structure Mismatch (α : Type) where
  atom : Int
  dimension : Int
  quantity : Quantity
  actual : α
  expected : α
  tolerance : α
  deriving DecidableEq, Repr

section

variable {α : Type} [Sub α] [Scalar α]

/-- Whether a value is within a bound of what is expected. -/
def isWithin (actual expected tolerance : α) : Bool :=
  Scalar.le (Scalar.abs (actual - expected)) tolerance

namespace Mismatch

/-- The distance between the two values. -/
def error (m : Mismatch α) : α := Scalar.abs (m.actual - m.expected)

/-- Which components lie beyond a bound. The comparison is negated, so that a distance that is not a
number lies beyond every bound. -/
def violating (tolerance : α) (actual expected : List α) : List Bool :=
  (List.zipWith (fun a e => Scalar.abs (a - e)) actual expected).map fun distance =>
    !Scalar.le distance tolerance

/-- The mismatches among components that stand in rows of `columns` values. -/
def scan (quantity : Quantity) (tolerance : α) (columns : Nat) (actual expected : List α) :
    List (Mismatch α) :=
  ((actual.zip expected).zip (violating tolerance actual expected)).zipIdx.filterMap
    fun (((a, e), beyond), k) =>
      if beyond then some ⟨(k / columns : Nat), (k % columns : Nat), quantity, a, e, tolerance⟩
      else none

/-- A component lies beyond a bound exactly if it is not within the bound. -/
theorem violating_eq (tolerance : α) (actual expected : List α) :
    violating tolerance actual expected =
      (actual.zip expected).map fun pair => !isWithin pair.1 pair.2 tolerance := by
  rw [violating, ← List.map_uncurry_zip_eq_zipWith, List.map_map]
  rfl

/-- A scan finds the components that are not within the bound. -/
theorem scan_eq (quantity : Quantity) (tolerance : α) (columns : Nat) (actual expected : List α) :
    scan quantity tolerance columns actual expected =
      (actual.zip expected).zipIdx.filterMap fun ((a, e), k) =>
        if isWithin a e tolerance then none
        else some ⟨(k / columns : Nat), (k % columns : Nat), quantity, a, e, tolerance⟩ := by
  have hzip (pairs : List (α × α)) (test : α × α → Bool) :
      pairs.zip (pairs.map test) = pairs.map fun pair => (pair, test pair) := by
    induction pairs with
    | nil => rfl
    | cons pair rest ih => simp [ih]
  rw [scan, violating_eq, hzip, List.zipIdx_map, List.filterMap_map]
  congr 1
  funext entry
  obtain ⟨⟨a, e⟩, k⟩ := entry
  cases hwithin : isWithin a e tolerance <;> simp [hwithin]

/-- The mismatches of two lists of vectors. -/
def ofVectors (quantity : Quantity) (tolerance : α) (actual expected : List (Vec3 α)) :
    List (Mismatch α) :=
  scan quantity tolerance 3 (actual.flatMap Vec3.toList) (expected.flatMap Vec3.toList)

/-- The mismatches of two arrays. Only tables of rows and columns have places for mismatches; other
arrays of equal shape must agree. -/
def ofTensors (quantity : Quantity) (tolerance : α) (actual expected : Tensor α) :
    Except (Fault α) (List (Mismatch α)) := do
  let actual ← Limits.checkedAxes actual
  let expected ← Limits.checkedAxes expected
  unless actual.shape = expected.shape do throw (.shapeMismatch actual.shape expected.shape)
  match actual.shape with
  | [_, columns] => return scan quantity tolerance columns actual.entries expected.entries
  | shape =>
    if (scan quantity tolerance 1 actual.entries expected.entries).isEmpty then return []
    else throw (.tableRank shape.length)

end Mismatch

end

namespace Mismatch

/-- The sentence that describes a mismatch. -/
def description (m : Mismatch Float) : String :=
  m.quantity.component ++ " " ++ Decimal.whole m.dimension ++ " of atom " ++ Decimal.whole m.atom ++
    " is different from analytical solution: expected " ++ Decimal.general 9 m.expected ++
    ", got " ++ Decimal.general 9 m.actual ++ " (|diff| = " ++ Decimal.exponential 3 m.error ++
    " > " ++ Decimal.exponential 3 m.tolerance ++ ")"

/-- The description of a mismatch, if its whole numbers are short enough to be written. -/
def describe (m : Mismatch Float) : Except (Fault Float) String := do
  Limits.checkAllDigits [m.dimension, m.atom]
  return m.description

/-- The letter of the dimension; negative dimensions count from the last one. -/
def dimensionName (m : Mismatch Float) : Except (Fault Float) String := do
  match (wrapIndex? 3 (← checkedIndex m.dimension)).bind Axis.ofNat? with
  | some axis => return axis.name
  | none => throw .dimension

end Mismatch

end Leapfrog
