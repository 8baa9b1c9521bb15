import Leapfrog.Vec3

/-!
# Arrays of any shape

Data from outside arrives as nested lists whose shape is not known in advance. A tensor keeps the
shape beside the entries in row-major order, so that a wrong shape can be named in a refusal and a
right one can be turned into vectors.
-/

namespace Leapfrog

/-- A rectangular array: its lengths along each axis and its entries, the last axis varying
fastest. -/
structure Tensor (α : Type) where
  shape : List Nat
  entries : List α
  length_entries : entries.length = shape.foldr (· * ·) 1
  deriving DecidableEq, Repr

namespace Tensor

variable {α : Type}

/-- The array without axes that holds one entry. -/
def single (a : α) : Tensor α := ⟨[], [a], rfl⟩

/-- The array of one axis. -/
def row (entries : List α) : Tensor α := ⟨[entries.length], entries, by simp⟩

/-- Arrays of one shape, stacked along a new first axis. No arrays at all stack to an array of
length zero. -/
def stack? (layers : List (Tensor α)) : Option (Tensor α) :=
  match layers with
  | [] => some ⟨[0], [], rfl⟩
  | first :: rest =>
    if h : ∀ layer ∈ rest, layer.shape = first.shape then
      some ⟨(rest.length + 1) :: first.shape, (first :: rest).flatMap entries, by
        have all : ∀ layer ∈ first :: rest, layer.entries.length = first.entries.length := by
          intro layer hl
          rcases List.mem_cons.1 hl with rfl | hl
          · rfl
          · rw [layer.length_entries, first.length_entries, h layer hl]
        have total : ∀ layers : List (Tensor α),
            (∀ layer ∈ layers, layer.entries.length = first.entries.length) →
            (layers.flatMap entries).length = layers.length * first.entries.length := by
          intro layers hl
          induction layers with
          | nil => simp
          | cons layer layers ih =>
            rw [List.flatMap_cons, List.length_append, hl layer List.mem_cons_self,
              ih fun l h => hl l (List.mem_cons_of_mem _ h), List.length_cons, Nat.succ_mul,
              Nat.add_comm]
        rw [total _ all, first.length_entries]
        simp⟩
    else none

/-- An array with at least one axis: one without axes becomes an array of one entry. -/
def withAxis (t : Tensor α) : Tensor α :=
  if t.shape = [] then row t.entries else t

/-- A three by three matrix as an array. -/
def ofMat3 (m : Mat3 α) : Tensor α := ⟨[3, 3], m.rows.flatMap Vec3.toList, rfl⟩

/-- A list cut into `n` pieces of equal length, and nothing of what is left over. -/
def pieces (n length : Nat) (entries : List α) : List (List α) :=
  match n with
  | 0 => []
  | n + 1 => entries.take length :: pieces n length (entries.drop length)

/-- The rows of a table; an array that is not a table has none. -/
def rows (t : Tensor α) : List (List α) :=
  match t.shape with
  | [n, columns] => pieces n columns t.entries
  | _ => []

/-- The vectors of consecutive triples. -/
def triples : List α → List (Vec3 α)
  | x :: y :: z :: rest => ⟨x, y, z⟩ :: triples rest
  | _ => []

/-- The rows of an array of `n` vectors. -/
def vectors? (n : Nat) (t : Tensor α) : Option (List (Vec3 α)) :=
  if t.shape = [n, 3] then some (triples t.entries) else none

/-- The entries of an array of three numbers, as a vector. -/
def vector? (t : Tensor α) : Option (Vec3 α) :=
  if t.shape = [3] then Vec3.ofList? t.entries else none

/-- The rows of a three by three array, as a matrix. -/
def matrix? (t : Tensor α) : Option (Mat3 α) :=
  match t.vectors? 3 with
  | some [x, y, z] => some ⟨x, y, z⟩
  | _ => none

end Tensor

end Leapfrog
