import Leapfrog.Backend.Device
import Leapfrog.Backend.Host
import Leapfrog.Json.Basic
import Leapfrog.Registry

/-!
# Suites

A suite asks once whether there is an accelerator and keeps the answer. The probe may fail; a
failure is no answer, so the next question asks again. What the probe says at each call is a
function of how often it was called before, and every operation returns the suite it leaves behind.
-/

namespace Leapfrog

/-- What a probe says at each call, counted from zero: an answer, or the fault it stops with. -/
abbrev Probe (α : Type) := Nat → Except (Fault α) Json

/-- A suite with its probe. -/
structure Suite (α : Type) where
  probe : Probe α
  /-- The device of the accelerator. -/
  device : String
  /-- How often the probe has been called. -/
  calls : Nat := 0
  /-- The answer, once there is one. -/
  answer? : Option Bool := none

namespace Suite

variable {α : Type}

/-- The device that is used when none is named. -/
def standardDevice : String := "cuda:0"

/-- Whether the probe has answered. -/
def probed (s : Suite α) : Bool := s.answer?.isSome

/-- Whether there is an accelerator. The probe is called only while there is no answer. -/
def available (s : Suite α) : Except (Fault α) Bool × Suite α :=
  match s.answer? with
  | some answer => (.ok answer, s)
  | none =>
    let asked := { s with calls := s.calls + 1 }
    match s.probe s.calls with
    | .error fault => (.error fault, asked)
    | .ok answer => (.ok answer.holds, { asked with answer? := some answer.holds })

variable [Add α] [Sub α] [Mul α] [Scalar α]

/-- The backends of a suite: the host always, the accelerator if there is one. -/
def registry [Machine] (s : Suite α) : Except (Fault α) (Registry α) × Suite α :=
  let accelerator : Backend α := .device s.device
  let (answer, s) := s.available
  let registry := answer.bind fun available =>
    if available then Registry.ofBackends [.host, accelerator] []
    else Registry.ofBackends [.host] [accelerator.name]
  (registry, s)

end Suite

end Leapfrog
