import Leapfrog.Limits

/-!
# Temperature and pressure coupling

A simulation says which thermostat and which barostat act on it, by what factor each coupling group
scales its velocities, and how many threads accumulate kinetic energy. Of the barostats one changes
the step; the other settings are carried along.
-/

namespace Leapfrog

/-- A word of a vocabulary. -/
def chooseWord {α β : Type} (vocabulary : String) (choices : List (String × β)) (word : String) :
    Except (Fault α) β :=
  match choices.lookup word with
  | some choice => .ok choice
  | none => .error (.unknownWord word vocabulary)

/-- Temperature coupling. -/
inductive Thermostat where
  | none
  | berendsen
  | noseHoover
  | vRescale
  deriving DecidableEq, Repr

namespace Thermostat

/-- The word for a thermostat. -/
def word : Thermostat → String
  | none => "no"
  | berendsen => "berendsen"
  | noseHoover => "nose-hoover"
  | vRescale => "v-rescale"

/-- The thermostat that a word stands for. -/
def ofWord {α : Type} : String → Except (Fault α) Thermostat :=
  chooseWord "ThermostatMode" ([none, berendsen, noseHoover, vRescale].map fun t => (t.word, t))

end Thermostat

/-- Pressure coupling. -/
inductive Barostat where
  | none
  | berendsen
  | parrinelloRahman
  deriving DecidableEq, Repr

namespace Barostat

/-- The word for a barostat. -/
def word : Barostat → String
  | none => "no"
  | berendsen => "berendsen"
  | parrinelloRahman => "parrinello-rahman"

/-- The barostat that a word stands for. -/
def ofWord {α : Type} : String → Except (Fault α) Barostat :=
  chooseWord "BarostatMode" ([none, berendsen, parrinelloRahman].map fun b => (b.word, b))

end Barostat

/-- Buffers for kinetic energy, one tensor and one accumulator for each thread. -/
@[ext] structure Scratch where
  threads : Nat
  threads_pos : 0 < threads := by omega
  deriving Repr

/-- Buffers are equal if they are for as many threads. -/
instance : DecidableEq Scratch := fun s t =>
  decidable_of_iff (s.threads = t.threads) Scratch.ext_iff.symm

namespace Scratch

/-- The buffers of a single thread. -/
def single : Scratch := { threads := 1 }

/-- The buffers for a number of threads, which must be given as a whole number. -/
def ofThreads [Machine] {α : Type} [Scalar α] : Number α → Except (Fault α) Scratch
  | .whole n => do
    if h : 0 < n.toNat then
      Limits.array [n, 3, 3]
      return ⟨n.toNat, h⟩
    else throw (.threadCount (.whole n))
  | .scalar x =>
    if Scalar.lt x (Scalar.ofInt 1) then .error (.threadCount (.scalar x)) else .error .lengthForm

/-- The shape of the energy tensors. -/
def energyShape (s : Scratch) : List Nat := [s.threads, 3, 3]

/-- The shape of the accumulators. -/
def accumulatorShape (s : Scratch) : List Nat := [s.threads]

/-- A buffer of a given shape, filled with zeros. -/
def zeros {α : Type} [Scalar α] (shape : List Nat) : List α :=
  List.replicate (shape.foldr (· * ·) 1) (Scalar.ofInt 0)

end Scratch

end Leapfrog
