import Leapfrog.Backend.Basic

/-!
# Registries

A registry holds the backends under test in the order in which they are run. Names are unique, so a
name finds one backend. The names of optional backends that were not available are kept beside it.
-/

namespace Leapfrog

/-- Backends with unique names, at least one. -/
structure Registry (α : Type) where
  backends : List (Backend α)
  skipped : List String
  nonempty : backends ≠ []
  unique : (backends.map Backend.name).Nodup

namespace Registry

variable {α : Type}

/-- The names that occur more than once, each of them once, in the order of their code points. -/
def duplicates (names : List String) : List String :=
  ((names.filter fun name => 1 < names.count name).eraseDups).mergeSort fun a b => decide (a ≤ b)

/-- A name that occurs twice is a duplicate. -/
theorem nodup_of_duplicates_eq_nil {names : List String} (h : duplicates names = []) :
    names.Nodup := by
  rw [List.nodup_iff_count]
  intro name
  by_cases member : name ∈ names
  · by_cases twice : 1 < names.count name
    · have kept : name ∈ duplicates names := by
        simp [duplicates, List.mem_mergeSort, List.mem_eraseDups, member, twice]
      rw [h] at kept
      exact absurd kept List.not_mem_nil
    · omega
  · simp [List.count_eq_zero_of_not_mem member]

/-- The registry of some backends. -/
def ofBackends (backends : List (Backend α)) (skipped : List String) :
    Except (Fault α) (Registry α) :=
  if some_backend : backends = [] then .error .noBackend
  else if h : duplicates (backends.map Backend.name) = [] then
    .ok ⟨backends, skipped, some_backend, nodup_of_duplicates_eq_nil h⟩
  else .error (.duplicateBackends (duplicates (backends.map Backend.name)))

/-- The names of the backends in order. -/
def names (r : Registry α) : List String := r.backends.map Backend.name

/-- Whether a name is registered. -/
def contains (r : Registry α) (name : String) : Bool := r.names.contains name

/-- The backend with a name. -/
def get (r : Registry α) (name : String) : Except (Fault α) (Backend α) :=
  match r.backends.find? fun b => b.name = name with
  | some backend => .ok backend
  | none => .error (.unknownBackend name r.names)

end Registry

end Leapfrog
