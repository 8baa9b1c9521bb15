import Leapfrog.Number
import Leapfrog.Text.ByteCount
import Leapfrog.Text.Quoted

/-!
# Refusals

Everything that can be refused or can go wrong is a constructor of `Fault` that carries what the
message shows. `Fault.message` is the only place where a refusal becomes text, and `Fault.kind`
says what sort of trouble it is.
-/

namespace Leapfrog

/-- The sorts of trouble. -/
inductive Fault.Kind where
  /-- A value outside the range that is accepted. -/
  | value
  /-- A number or an array in a form that is not accepted. -/
  | form
  /-- A number too large for its form. -/
  | overflow
  /-- An array too large for the memory. -/
  | memory
  /-- A position outside an array. -/
  | index
  /-- A name that nothing is registered under. -/
  | lookup
  /-- A failure reported by a backend or a probe. -/
  | failure
  /-- A missing optional part of the installation. -/
  | unavailable
  /-- Something whose outcome is not defined. -/
  | undefined
  /-- A report with failures. -/
  | parity
  deriving DecidableEq, Repr

/-- What the entries of an array are. -/
inductive Fault.Entry where
  | whole
  | scalar
  deriving DecidableEq, Repr

/-- The word for the entries of an array. -/
def Fault.Entry.word : Fault.Entry → String
  | whole => "int64"
  | scalar => "float64"

/-- The causes of a refusal. -/
inductive Fault (α : Type) where
  /-- A count that is not a number. -/
  | notANumber
  /-- A count that is infinite. -/
  | infiniteCount
  /-- A whole number beyond the largest scalar. -/
  | countTooLarge
  /-- A finite time whose square is not finite. -/
  | timeTooLarge
  /-- A number of atoms that is not a whole number from one up. -/
  | atomCount (given : Number α)
  /-- A number of steps that is not a whole number from zero up. -/
  | stepCount (given : Number α)
  /-- A number of steps below zero, where fractions are admitted. -/
  | negativeSteps (given : Number α)
  /-- A timestep that is not finite and above zero. -/
  | timestep (given : Number α)
  /-- A bound on the error of a step that is not finite or below zero. -/
  | epsilon (given : Number α)
  /-- A whole number of more than 64 bits where it is asked whether a number is finite. -/
  | wideNumber
  /-- A vector given as a list of the wrong length. -/
  | componentCount (vector : String) (count : Nat)
  /-- A vector given as an array of the wrong shape. -/
  | componentShape (vector : String) (shape : List Nat)
  /-- An array that is neither three lengths nor three vectors. -/
  | boxShape (shape : List Nat)
  /-- A number of threads below one. -/
  | threadCount (given : Number α)
  /-- Inverse masses that are not a row of numbers. -/
  | massShape (shape : List Nat)
  | noAtoms
  /-- An inverse mass that is not finite and above zero. -/
  | massRange
  /-- An array that does not fit the number of atoms. -/
  | arrayShape (array : String) (shape : List Nat) (atoms : Nat)
  /-- A velocity scaling that is not a three by three matrix. -/
  | matrixShape (shape : List Nat)
  /-- A group of an atom that is not in the table of coupling groups. -/
  | missingGroup
  /-- An index that stands for no position along an axis. -/
  | outOfBounds (index : Int) (axis size : Nat)
  /-- More indices than an array has axes. -/
  | tooManyIndices (axes given : Nat)
  /-- More indices than a place in any array has. -/
  | placeTooLong
  /-- An index into a list that is not a machine integer. -/
  | hugeIndex
  /-- A whole number that is not a machine integer where one is needed. -/
  | hugeInteger
  /-- An index along an axis that is no machine integer at all. -/
  | invalidIndex
  /-- A group that does not fit into 32 bits. -/
  | hugeGroup (given : Int)
  /-- A number of groups that is neither one nor the number of atoms. -/
  | groupCount (given atoms : Nat)
  /-- A number of the calendar or the clock far below its range. -/
  | belowMinimum
  /-- A number of the calendar or the clock far above its range. -/
  | aboveMaximum
  /-- An index into a list that is given as a scalar. -/
  | slotForm
  /-- A device that there is not. -/
  | unknownDevice (name : String)
  /-- An accelerator where there is none. -/
  | noAccelerator
  /-- A number where a device needs the row of a matrix. -/
  | matrixRow (given : α)
  /-- A number of entries that a device can make no matrix of. -/
  | matrixSize (given : Nat)
  /-- A velocity scaling whose rows are single numbers. -/
  | rowForm
  /-- A velocity scaling whose entries are lists of numbers. -/
  | entryForm
  /-- A negative number of rows. -/
  | negativeSize
  /-- A row of indices that ends nowhere. -/
  | endlessRange
  /-- A row of indices that is longer than any array. -/
  | rangeTooLong
  /-- A length that is not a machine integer. -/
  | lengthTooLarge
  /-- A length that is given as a scalar. -/
  | lengthForm
  /-- An array of more bytes than can be counted. -/
  | arrayTooLarge
  /-- An array of more bytes than there are in the memory. -/
  | outOfMemory (bytes : Nat) (shape : List Nat) (entries : Fault.Entry)
  /-- Lists inside lists, deeper than the axes of the array that is to hold them. -/
  | tooManyAxes (limit : Nat)
  /-- An array that would get more axes than any array has. -/
  | rankTooLarge (rank limit : Nat)
  /-- A word that is not in a vocabulary. -/
  | unknownWord (word vocabulary : String)
  /-- A place in a list that holds nothing. -/
  | unknownSlot
  /-- Two arrays of different shapes. -/
  | shapeMismatch (actual expected : List Nat)
  /-- A difference in an array that is not a table of rows and columns. -/
  | tableRank (rank : Nat)
  /-- A year that is not in the calendar. -/
  | yearRange (given : Int)
  /-- A month that is not in the calendar. -/
  | monthRange
  /-- A day that its month does not have. -/
  | dayRange
  /-- A number of a unit of the clock that is not between zero and the last one. -/
  | clockRange (unit : String) (last : Nat)
  /-- A whole number of more digits than are written. -/
  | tooManyDigits
  /-- A parameter of a grid without values. -/
  | emptyAxis (axis : String)
  /-- More scenarios than can be counted. -/
  | sizeTooLarge
  /-- A registry without backends. -/
  | noBackend
  /-- Names that more than one backend has. -/
  | duplicateBackends (names : List String)
  /-- A name that no backend has, with the names that there are. -/
  | unknownBackend (name : String) (available : List String)
  /-- An array that may only be read, where it is to be written. -/
  | readOnly
  /-- A read behind the end of a buffer, which nobody notices. -/
  | strayRead
  /-- A failure with a text of its own. -/
  | raised (text : String)
  /-- A dimension that has no letter. -/
  | dimension
  /-- A chart where nothing can be drawn. -/
  | noDrawing
  /-- A report with failures, each in one line. -/
  | parity (failures : List String)
  deriving DecidableEq, Repr

namespace Fault

variable {α : Type}

/-- The sort of trouble a cause belongs to. -/
def kind : Fault α → Kind
  | infiniteCount | countTooLarge | timeTooLarge | sizeTooLarge => .overflow
  | hugeInteger | hugeGroup _ | belowMinimum | aboveMaximum => .overflow
  | outOfMemory .. => .memory
  | outOfBounds .. | tooManyIndices .. | unknownSlot | dimension => .index
  | hugeIndex | invalidIndex | placeTooLong | rankTooLarge .. => .index
  | lengthForm | rowForm | entryForm | slotForm | wideNumber | matrixRow _ => .form
  | unknownBackend .. => .lookup
  | raised _ | noAccelerator => .failure
  | noDrawing => .unavailable
  | strayRead => .undefined
  | parity _ => .parity
  | _ => .value

/-- A shape between parentheses; a single length is followed by a comma. -/
def shapeText : List Nat → String
  | [n] => "(" ++ Decimal.whole n ++ ",)"
  | shape => "(" ++ ", ".intercalate (shape.map fun n : Nat => Decimal.whole n) ++ ")"

/-- The text of a whole number of too many digits, in place of any text that should show one. -/
def digitsText : String :=
  "Exceeds the limit (4300 digits) for integer string conversion; use " ++
    "sys.set_int_max_str_digits() to increase the limit"

/-- A text that ends with a number as it was given. -/
def shown (text : String) : Number Float → String
  | .whole n =>
    if n.natAbs < Nat.pow 10 Decimal.maxDigits then text ++ Decimal.whole n else digitsText
  | .scalar x => text ++ Decimal.plain x

/-- The text of a cause. -/
def message : Fault Float → String
  | notANumber => "cannot convert float NaN to integer"
  | infiniteCount => "cannot convert float infinity to integer"
  | countTooLarge => "int too large to convert to float"
  | timeTooLarge => "(34, 'Numerical result out of range')"
  | atomCount given => shown "n_atoms must be a positive integer, got " given
  | stepCount given => shown "n_steps must be a non-negative integer, got " given
  | negativeSteps given => shown "n_steps must be non-negative, got " given
  | timestep given => shown "timestep must be positive, got " given
  | epsilon given => shown "epsilon_per_step must be non-negative, got " given
  | wideNumber =>
    "ufunc 'isfinite' not supported for the input types, and the inputs could not be safely " ++
      "coerced to any supported types according to the casting rule ''safe''"
  | componentCount vector count =>
    vector ++ " must have 3 components, got " ++ Decimal.whole count
  | componentShape vector shape =>
    vector ++ " must have 3 components, got shape " ++ shapeText shape
  | boxShape shape => "Box vectors must be (3,) or (3, 3), got " ++ shapeText shape
  | threadCount given => shown "n_threads must be >= 1, got " given
  | massShape shape => "inverse_masses must be 1-D, got shape " ++ shapeText shape
  | noAtoms => "System must contain at least one atom"
  | massRange => "Inverse masses must be strictly positive and finite"
  | arrayShape array shape atoms =>
    array ++ " shape " ++ shapeText shape ++ " incompatible with " ++ Decimal.whole atoms ++
      " atoms"
  | matrixShape shape => "pr_scaling_matrix must be (3, 3), got " ++ shapeText shape
  | missingGroup => "group_indices refer to a missing coupling group"
  | outOfBounds index axis size =>
    "index " ++ Decimal.whole index ++ " is out of bounds for axis " ++ Decimal.whole axis ++
      " with size " ++ Decimal.whole size
  | tooManyIndices axes given =>
    "too many indices for array: array is " ++ Decimal.whole axes ++ "-dimensional, but " ++
      Decimal.whole given ++ " were indexed"
  | placeTooLong => "too many indices for array"
  | hugeIndex => "cannot fit 'int' into an index-sized integer"
  | hugeInteger => "Python int too large to convert to C long"
  | invalidIndex =>
    "only integers, slices (`:`), ellipsis (`...`), numpy.newaxis (`None`) and integer or " ++
      "boolean arrays are valid indices"
  | hugeGroup given => "Python integer " ++ Decimal.whole given ++ " out of bounds for int32"
  | groupCount given atoms =>
    "could not broadcast input array from shape " ++ shapeText [given] ++ " into shape " ++
      shapeText [atoms]
  | belowMinimum => "signed integer is less than minimum"
  | aboveMaximum => "signed integer is greater than maximum"
  | slotForm => "list indices must be integers or slices, not float"
  | unknownDevice name => "Invalid device identifier: " ++ name
  | noAccelerator =>
    "\"cuda\" device requested but CUDA is not supported by the hardware or driver"
  | matrixRow given =>
    "Invalid argument in matrix constructor, expected row of length 3, got " ++ Decimal.plain given
  | matrixSize given =>
    "Invalid number of arguments in matrix constructor, expected 9 elements, got " ++
      Decimal.whole given
  | rowForm => "'float' object is not subscriptable"
  | entryForm => "can't multiply sequence by non-int of type 'float'"
  | negativeSize => "negative dimensions are not allowed"
  | endlessRange => "arange: cannot compute length"
  | rangeTooLong => "Maximum allowed size exceeded"
  | lengthTooLarge => "Maximum allowed dimension exceeded"
  | lengthForm => "'float' object cannot be interpreted as an integer"
  | arrayTooLarge =>
    "array is too big; `arr.size * arr.dtype.itemsize` is larger than the maximum possible size."
  | outOfMemory bytes shape entries =>
    "Unable to allocate " ++ Text.byteCount bytes ++ " for an array with shape " ++
      shapeText shape ++ " and data type " ++ entries.word
  | tooManyAxes limit =>
    "setting an array element with a sequence. The requested array would exceed the maximum " ++
      "number of dimension of " ++ Decimal.whole limit ++ "."
  | rankTooLarge rank limit =>
    "number of dimensions must be within [0, " ++ Decimal.whole limit ++
      "], indexing result would have " ++ Decimal.whole rank
  | unknownWord word vocabulary => Text.quoted word ++ " is not a valid " ++ vocabulary
  | unknownSlot => "list index out of range"
  | shapeMismatch actual expected =>
    "Shape mismatch: actual " ++ shapeText actual ++ " vs expected " ++ shapeText expected
  | tableRank rank =>
    if rank < 2 then
      "not enough values to unpack (expected 2, got " ++ Decimal.whole rank ++ ")"
    else "too many values to unpack (expected 2)"
  | yearRange given => "year " ++ Decimal.whole given ++ " is out of range"
  | monthRange => "month must be in 1..12"
  | dayRange => "day is out of range for month"
  | clockRange unit last => unit ++ " must be in 0.." ++ Decimal.whole last
  | tooManyDigits => digitsText
  | emptyAxis axis => "Grid axis '" ++ axis ++ "' must not be empty"
  | sizeTooLarge => "cannot fit 'int' into an index-sized integer"
  | noBackend => "At least one backend must be registered"
  | duplicateBackends names => "Duplicate backend names: " ++ ", ".intercalate names
  | unknownBackend name available =>
    "Unknown backend: " ++ name ++ ". Available: " ++ ", ".intercalate available
  | readOnly => "assignment destination is read-only"
  | strayRead => ""
  | raised text => text
  | dimension => "tuple index out of range"
  | noDrawing =>
    "matplotlib is required for plotting. Install it with: pip install matplotlib"
  | parity failures =>
    Decimal.whole failures.length ++ " component(s) differ from the analytical solution:\n" ++
      "\n".intercalate failures

end Fault

namespace Number

variable {α : Type} [Scalar α]

/-- The whole number that a number equals, if it equals one. Only a value without any whole number
beside it is refused at once. -/
def toInt? : Number α → Except (Fault α) (Option Int)
  | .whole n => .ok (some n)
  | .scalar x =>
    if Scalar.isNaN x then .error .notANumber
    else if !Scalar.isFinite x then .error .infiniteCount
    else .ok (Scalar.toInt? x)

/-- A number as a scalar. A whole number beyond the largest scalar is refused. -/
def toScalar : Number α → Except (Fault α) α
  | .whole n =>
    if Scalar.isFinite (Scalar.ofInt n : α) then .ok (Scalar.ofInt n) else .error .countTooLarge
  | .scalar x => .ok x

/-- A count of atoms: a whole number from one up. -/
def atoms (n : Number α) : Except (Fault α) { count : Nat // 0 < count } := do
  match ← n.toInt? with
  | some k => if h : 0 < k.toNat then return ⟨k.toNat, h⟩ else throw (.atomCount n)
  | none => throw (.atomCount n)

/-- A count of steps: a whole number from zero up. -/
def steps (n : Number α) : Except (Fault α) Nat := do
  match ← n.toInt? with
  | some k => if 0 ≤ k then return k.toNat else throw (.stepCount n)
  | none => throw (.stepCount n)

/-- A number times a scalar. -/
def times [Mul α] (n : Number α) (a : α) : Except (Fault α) α := do
  return (← n.toScalar) * a

end Number

end Leapfrog
