import Leapfrog.Proofs.ArrayLimits
import Leapfrog.Proofs.Comparison
import Leapfrog.Report.Document
import Leapfrog.Text.Line

/-!
# Whole numbers that are written

A whole number of too many digits is not written, and a text that should show one is refused. A
scenario is described exactly if its numbers of atoms and steps are short, a failure exactly if the
atom and the dimension of its mismatch are short as well. A scenario that has run is always
described: there was room for its atoms, and its number of steps was converted to a finite double.

Lines are written one after the other. They are all written if all of them can be made, and the
first fault among them ends the text.
-/

namespace Leapfrog

namespace Limits

/-- A whole number of few enough digits to be written. -/
def IsShort (n : Int) : Prop := n.natAbs < Nat.pow 10 Decimal.maxDigits

instance : DecidablePred IsShort := fun _ => Nat.decLt _ _

/-- A short whole number is written, and any other one is refused. -/
theorem checkDigits_eq (n : Int) :
    (checkDigits n : Except (Fault Float) Unit) =
      if IsShort n then .ok () else .error .tooManyDigits := rfl

/-- Some whole numbers are written if all of them are short, and refused otherwise. -/
theorem checkAllDigits_eq (ns : List Int) :
    (checkAllDigits ns : Except (Fault Float) Unit) =
      if ∀ n ∈ ns, IsShort n then .ok () else .error .tooManyDigits := by
  induction ns with
  | nil => simp [checkAllDigits]
  | cons n rest ih =>
    rw [checkAllDigits, checkDigits_eq, ih]
    by_cases hn : IsShort n
    · simp [hn, bind, Except.bind]
    · simp [hn, bind, Except.bind]

end Limits

/-- A number of bytes that there are is short. -/
theorem Machine.memory_lt_pow [Machine] : Machine.memory < Nat.pow 10 Decimal.maxDigits :=
  Machine.memory_lt.trans (by decide +kernel)

namespace Text

variable {φ : Type}

/-- Lines that can be made are written before the rest. -/
theorem written_map_ok_append (lines : List String) (rest : List (Except φ String)) :
    written (lines.map .ok ++ rest) = (lines ++ (written rest).1, (written rest).2) := by
  induction lines with
  | nil => rfl
  | cons line lines ih => simp [written, ih]

/-- Where some lines cannot be made, all of them for one reason, this is the fault of the text. -/
theorem written_of_mem {made : List (Except φ String)} {fault : φ}
    (hmem : Except.error fault ∈ made) (honly : ∀ other, Except.error other ∈ made → other = fault) :
    (written made).2 = some fault := by
  induction made with
  | nil => cases hmem
  | cons first rest ih =>
    cases first with
    | error other => exact congrArg some (honly other List.mem_cons_self)
    | ok line =>
      have hrest : Except.error fault ∈ rest := (List.mem_cons.mp hmem).resolve_left nofun
      simpa [written] using ih hrest fun other hother => honly other (List.mem_cons_of_mem _ hother)

end Text

namespace Scenario

/-- A scenario whose whole numbers are short enough to be written. -/
def HasShortCounts (s : Scenario Float) : Prop := Limits.IsShort s.atoms ∧ Limits.IsShort s.steps

/-- A scenario has short whole numbers exactly if both are short. -/
theorem forall_isShort_iff {s : Scenario Float} :
    (∀ n ∈ [(s.atoms : Int), s.steps], Limits.IsShort n) ↔ s.HasShortCounts := by
  simp [HasShortCounts]

/-- A scenario is described if its whole numbers are short. -/
theorem describe_of_short {s : Scenario Float} (h : s.HasShortCounts) (backend : String) :
    s.describe backend = .ok (s.description backend) := by
  rw [describe, Limits.checkAllDigits_eq, if_pos (forall_isShort_iff.mpr h)]
  rfl

/-- A scenario is not described if one of its whole numbers is too long. -/
theorem describe_of_long {s : Scenario Float} (h : ¬ s.HasShortCounts) (backend : String) :
    s.describe backend = .error .tooManyDigits := by
  rw [describe, Limits.checkAllDigits_eq, if_neg (mt forall_isShort_iff.mp h)]
  rfl

/-- The whole numbers of a scenario are short if they have no more digits than are written. -/
theorem hasShortCounts_iff {s : Scenario Float} :
    s.HasShortCounts ↔
      s.atoms < Nat.pow 10 Decimal.maxDigits ∧ s.steps < Nat.pow 10 Decimal.maxDigits :=
  Iff.rfl

/-- A scenario has a description exactly if its whole numbers are short. -/
theorem exists_describe_iff {s : Scenario Float} {backend : String} :
    (∃ text, s.describe backend = .ok text) ↔ s.HasShortCounts := by
  refine ⟨fun ⟨text, htext⟩ => ?_, fun h => ⟨_, describe_of_short h backend⟩⟩
  by_contra hlong
  cases htext.symm.trans (describe_of_long hlong backend)

/-- What describes a scenario is its description. -/
theorem eq_of_describe {s : Scenario Float} {backend text : String}
    (h : s.describe backend = .ok text) : text = s.description backend := by
  have hshort := exists_describe_iff.mp ⟨text, h⟩
  exact Except.ok.inj (h.symm.trans (describe_of_short hshort backend))

/-- What refuses to describe a scenario is that a number is too long. -/
theorem fault_of_describe {s : Scenario Float} {backend : String} {fault : Fault Float}
    (h : s.describe backend = .error fault) : fault = .tooManyDigits := by
  by_cases hshort : s.HasShortCounts
  · cases h.symm.trans (describe_of_short hshort backend)
  · exact Except.error.inj (h.symm.trans (describe_of_long hshort backend))

variable [Machine] {scenario : Scenario Float} {b : Backend Float} {tolerance : Tolerance Float}
variable {result : Result Float}

/-- A scenario that runs has room for the positions of its atoms. -/
theorem atoms_le_of_run (h : scenario.run b tolerance = .ok result) :
    24 * scenario.atoms ≤ Machine.memory := by
  obtain ⟨start, hstart, -⟩ := Scenario.run_eq_ok_iff.mp h
  obtain ⟨_, hsize, -⟩ := bind_eq_ok_iff.mp hstart
  exact Synthetic.checkSize_eq_ok_iff.mp hsize

/-- A scenario that runs has a number of steps that converts to a finite double. -/
theorem isFinite_steps_of_run (h : scenario.run b tolerance = .ok result) :
    Scalar.isFinite (Scalar.ofInt scenario.steps : Float) = true := by
  obtain ⟨_, -, last, -, mismatches, hcheck, -⟩ := Scenario.run_eq_ok_iff.mp h
  obtain ⟨_, -, bound, hbound, -⟩ := Simulation.check_eq_ok_iff.mp hcheck
  rw [Tolerance.bound] at hbound
  split at hbound
  · cases hbound
  · exact (Number.eq_of_times hbound).1

/-- A scenario that runs has short whole numbers. -/
theorem hasShortCounts_of_run (h : scenario.run b tolerance = .ok result) :
    scenario.HasShortCounts := by
  have hatoms := atoms_le_of_run h
  have hsteps := (Decimal.Binary64.isFinite_ofInt scenario.steps).mp (isFinite_steps_of_run h)
  have hmemory := Machine.memory_lt_pow
  have hoverflow : Decimal.Binary64.overflow < Nat.pow 10 Decimal.maxDigits := by decide +kernel
  constructor <;> unfold Limits.IsShort <;> omega

end Scenario

/-- A failure whose whole numbers are short enough to be written. -/
structure Failure.HasShortNumbers (f : Failure Float) : Prop where
  atoms : Limits.IsShort f.scenario.atoms
  steps : Limits.IsShort f.scenario.steps
  atom : Limits.IsShort f.mismatch.atom
  dimension : Limits.IsShort f.mismatch.dimension

/-- A failure is described if its whole numbers are short, and refused otherwise. -/
theorem Failure.describe_eq (f : Failure Float) :
    (f.HasShortNumbers → f.describe = .ok f.description) ∧
      (¬ f.HasShortNumbers → f.describe = .error .tooManyDigits) := by
  have hall : (∀ n ∈ [f.mismatch.dimension, f.mismatch.atom], Limits.IsShort n) ↔
      Limits.IsShort f.mismatch.dimension ∧ Limits.IsShort f.mismatch.atom := by simp
  have hshort : f.HasShortNumbers ↔ f.scenario.HasShortCounts ∧
      Limits.IsShort f.mismatch.dimension ∧ Limits.IsShort f.mismatch.atom :=
    ⟨fun h => ⟨⟨h.atoms, h.steps⟩, h.dimension, h.atom⟩,
      fun ⟨hcounts, hdimension, hatom⟩ => ⟨hcounts.1, hcounts.2, hatom, hdimension⟩⟩
  rw [hshort, describe, Mismatch.describe, Limits.checkAllDigits_eq, if_congr hall rfl rfl]
  by_cases hcounts : f.scenario.HasShortCounts
  · rw [Scenario.describe_of_short hcounts]
    by_cases hplace : Limits.IsShort f.mismatch.dimension ∧ Limits.IsShort f.mismatch.atom <;>
      simp [hcounts, hplace, bind, Except.bind, pure, Except.pure, description]
  · rw [Scenario.describe_of_long hcounts]
    simp [hcounts, bind, Except.bind]

end Leapfrog
