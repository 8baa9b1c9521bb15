import Leapfrog.Decimal.Binary64

/-!
# Elimination

A determinant is, up to its sign, the product of the leading entries that elimination leaves. The
columns of a matrix are reduced from left to right. A column first goes through what was done to the
columns before it: rows change places, and multiples of its upper entries are subtracted from the
entries below them. Then the row with the largest entry that is left comes to the front, and the
entries below it are multiplied by its reciprocal.

An entry below the normal doubles has no useful reciprocal. It is left where it is, and so are the
entries below it; the columns that follow change places all the same. The reciprocal of an infinite
entry is zero, and leaves zeros whatever it multiplies.

The product is formed by adding logarithms, so that no partial product leaves the range of the
doubles.
-/

namespace Leapfrog.Elimination

/-- The smallest double with a full mantissa. -/
def smallestNormal : Float := Decimal.Binary64.toFloat false Decimal.Binary64.perExponent

/-- The largest of some doubles that are compared with the first one in turn; one that does not
compare is passed over. -/
def largest (first : Float) (rest : List Float) : Float :=
  rest.foldl (fun best a => if a > best then a else best) first

/-- The position of the first entry that is not below the largest one in absolute value; a value
that is not a number is below no other. -/
def pivot (entries : List Float) : Nat :=
  match entries.map Float.abs with
  | [] => 0
  | first :: rest =>
    let best := largest first rest
    (first :: rest).findIdx fun a => !(a < best)

/-- The entry at a position, zero behind the last one. -/
def entry (column : List Float) (i : Nat) : Float := column[i]?.getD 0

/-- Two entries of a column exchanged. -/
def exchange (i j : Nat) (column : List Float) : List Float :=
  (column.set i (entry column j)).set j (entry column i)

/-- Columns that have been reduced. -/
structure Reduced where
  /-- The columns, with multipliers below the leading entries. -/
  columns : List (List Float)
  /-- The row that each row from the first on has changed places with. -/
  places : List Nat

namespace Reduced

/-- How many columns have been reduced. -/
def count (r : Reduced) : Nat := r.columns.length

/-- A column after the rows have changed places. -/
def rearrange (r : Reduced) (column : List Float) : List Float :=
  r.places.zipIdx.foldl (fun column (j, i) => exchange i j column) column

/-- The sum of the multiples of the entries above position `i`. -/
def above (r : Reduced) (column : List Float) (i : Nat) : Float :=
  (List.zipWith (fun multipliers a => entry multipliers i * a) (r.columns.take i) column).foldl
    (· + ·) 0

/-- A column after the multiples of its upper entries have been subtracted from top to bottom. -/
def subtract (r : Reduced) (column : List Float) : List Float :=
  (List.range column.length).foldl
    (fun column i => column.set i (entry column i - r.above column i)) column

/-- A column whose leading entry divides the entries below it. -/
def scale (lead : Nat) (column : List Float) : List Float :=
  let reciprocal := 1 / entry column lead
  column.take (lead + 1) ++
    (column.drop (lead + 1)).map fun a => if reciprocal == 0 then 0 else a * reciprocal

/-- One more column reduced, unless all the entries that are left in it are zero. -/
def reduce? (r : Reduced) (column : List Float) : Option Reduced :=
  let column := r.subtract (r.rearrange column)
  let place := r.count + pivot (column.drop r.count)
  let best := entry column place
  if best == 0 then none
  else if best.abs ≥ smallestNormal then
    some ⟨r.columns.map (exchange r.count place) ++
      [scale r.count (exchange r.count place column)], r.places ++ [place]⟩
  else some ⟨r.columns ++ [column], r.places ++ [place]⟩

/-- The leading entries. -/
def leads (r : Reduced) : List Float := r.columns.zipIdx.map fun (column, i) => entry column i

end Reduced

/-- The product of the absolute values of some doubles, by way of their logarithms. -/
def magnitude (factors : List Float) : Float :=
  let logarithms := factors.map fun a => a.abs.log
  Float.exp (logarithms.foldl (· + ·) 0)

/-- The absolute value of the determinant of a matrix with given columns. -/
def determinant (columns : List (List Float)) : Float :=
  match columns.foldlM Reduced.reduce? ⟨[], []⟩ with
  | none => 0
  | some r => magnitude r.leads

end Leapfrog.Elimination
