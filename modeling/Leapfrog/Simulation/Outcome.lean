import Leapfrog.Simulation.Basic

/-!
# Outcomes of a change

A change to a simulation may fail, and one that fails may leave a changed simulation behind. An
`Outcome` therefore keeps the simulation whether or not there was a fault.
-/

namespace Leapfrog

/-- What is left of a simulation, and the fault that stopped its change, if any. -/
structure Outcome (α : Type) where
  simulation : Simulation α
  fault? : Option (Fault α)

namespace Outcome

variable {α : Type}

/-- The simulation of an outcome without a fault. -/
def toExcept (o : Outcome α) : Except (Fault α) (Simulation α) :=
  match o.fault? with
  | none => .ok o.simulation
  | some fault => .error fault

/-- An outcome that leaves the simulation alone if there is a fault. -/
def ofExcept (s : Simulation α) : Except (Fault α) (Simulation α) → Outcome α
  | .ok after => ⟨after, none⟩
  | .error fault => ⟨s, some fault⟩

/-- A second change, made unless there was a fault. -/
def andThen (o : Outcome α) (next : Simulation α → Outcome α) : Outcome α :=
  match o.fault? with
  | none => next o.simulation
  | some _ => o

end Outcome

end Leapfrog
