/-!
# The machine

What a program runs on decides how many bytes there are for an array, and which devices there are
besides the processor. Nothing else is assumed about it than that the processor is a device and that
an address has at most 53 bits.
-/

namespace Leapfrog

/-- The name of the device that is always there. -/
def Device.processor : String := "cpu"

/-- What a program runs on. -/
class Machine where
  /-- How many bytes an array takes at most. -/
  memory : Nat
  /-- The length of an array is exact as a double. -/
  memory_lt : memory < 1 <<< 53
  /-- Whether there is a device of a name. -/
  hasDevice : String → Bool
  hasDevice_processor : hasDevice Device.processor = true

namespace Workstation

/-- A machine with 64 GiB for an array and no device but its processor. -/
scoped instance machine : Machine where
  memory := 1 <<< 36
  memory_lt := by decide
  hasDevice name := name == Device.processor
  hasDevice_processor := rfl

end Workstation

end Leapfrog
