import Leapfrog.Proofs.AdvanceOutcome
import Mathlib.Tactic.Ring

/-!
# Advancing in several calls

Calls to advance a simulation, one after the other, iterate one and the same step: what a call has to
look up is found as it was by the next one, since atoms keep their groups. So only the sum of the
counts matters, not how it is divided between calls or between backends, and not where the clock
stood before. The time alone is added up call by call; where nothing is rounded, that makes no
difference either.
-/

namespace Leapfrog

namespace Backend

variable {α : Type} [Add α] [Mul α] [Scalar α]

/-- Calls to advance a simulation, each with a backend and a count of steps. The first fault ends
them. -/
def advanceInTurn : List (Backend α × Nat) → Simulation α → Outcome α
  | [], s => ⟨s, none⟩
  | (b, n) :: rest, s => (b.advance (.whole n) s).andThen (advanceInTurn rest)

/-- The same calls, each of them made whether or not there was a fault before it. -/
def advanceRegardless : List (Backend α × Nat) → Simulation α → Simulation α
  | [], s => s
  | (b, n) :: rest, s => advanceRegardless rest (b.advance (.whole n) s).simulation

/-- The steps of all calls together. -/
def totalSteps (calls : List (Backend α × Nat)) : Nat := (calls.map Prod.snd).sum

/-- The time after some calls, each of which adds its own product to it. -/
def timeAfter (timestep : α) : List (Backend α × Nat) → α → α
  | [], time => time
  | (_, n) :: rest, time =>
    timeAfter timestep rest (if n = 0 then time else time + Scalar.ofInt n * timestep)

/-- A single call is calls in turn. -/
theorem advanceInTurn_singleton (b : Backend α) (n : Nat) (s : Simulation α) :
    advanceInTurn [(b, n)] s = b.advance (.whole n) s := by
  rw [advanceInTurn]
  generalize b.advance (.whole n) s = outcome
  obtain ⟨after, fault?⟩ := outcome
  cases fault? <;> rfl

/-- Without a fault it does not matter whether a fault would have ended the calls. -/
theorem advanceRegardless_of_ok {calls : List (Backend α × Nat)} {s after : Simulation α}
    (h : advanceInTurn calls s = ⟨after, none⟩) : advanceRegardless calls s = after := by
  induction calls generalizing s with
  | nil => exact congrArg Outcome.simulation h
  | cons call rest ih =>
    obtain ⟨b, n⟩ := call
    rw [advanceInTurn] at h
    rw [advanceRegardless]
    generalize b.advance (.whole n) s = outcome at h ⊢
    obtain ⟨next, fault?⟩ := outcome
    cases fault? with
    | none => exact ih h
    | some fault => cases h

end Backend

variable {α : Type} [Add α] [Sub α] [Mul α]

/-- Steps can be taken in two parts. -/
theorem Simulation.steppedTo_add (s : Simulation α) (scaling : Array α) (matrix? : Option (Mat3 α))
    (n k : Nat) (time later : α) :
    (s.steppedTo scaling matrix? n time).steppedTo scaling matrix? k later =
      s.steppedTo scaling matrix? (n + k) later := by
  have hatoms (d : Host.Drive α) : (stepAll d scaling)^[k] ((stepAll d scaling)^[n] s.atoms) =
      (stepAll d scaling)^[n + k] s.atoms := by
    rw [Nat.add_comm, Function.iterate_add_apply]
  simp only [steppedTo, withClock, stepped, hatoms, Nat.add_assoc]

namespace Backend

variable [Scalar α] {s : Simulation α} {m : Mat3 α} {scaling : Array α}
variable {calls : List (Backend α × Nat)}

/-- Calls in turn take as many steps as their counts add up to. -/
theorem advanceInTurn_eq [Machine] (hcalls : ∀ call ∈ calls, call.1.IsGenuine)
    (hmatrix : s.velocityScaling = .ofMat3 m) (hscaling : s.HasScaling scaling)
    (hfinite : ∀ n ≤ totalSteps calls, Scalar.isFinite (Scalar.ofInt n : α) = true) :
    advanceInTurn calls s =
      ⟨s.steppedTo scaling (Device.activeMatrix? s.barostat m) (totalSteps calls)
        (timeAfter s.timestep calls s.time), none⟩ := by
  induction calls generalizing s with
  | nil => rfl
  | cons call rest ih =>
    obtain ⟨b, n⟩ := call
    obtain ⟨hb, hrest⟩ := List.forall_mem_cons.mp hcalls
    have htotal : totalSteps ((b, n) :: rest) = n + totalSteps rest := List.sum_cons
    rw [advanceInTurn, hb.advance_of_finite hmatrix hscaling (hfinite n (by omega)), htotal,
      timeAfter, ← Simulation.steppedTo_add]
    -- The groups are kept, so the next call finds the factors that this one has found.
    exact ih hrest hmatrix ((Simulation.moved_steppedTo _ _ _ _ _).hasScaling hscaling) fun k hk =>
      hfinite k (by omega)

/-- Where a group is missing, calls in turn change nothing. -/
theorem advanceInTurn_of_missing [Machine] (hcalls : ∀ call ∈ calls, call.1.IsGenuine)
    (hmatrix : s.velocityScaling = .ofMat3 m) (hcovers : s.atoms.size ≤ s.groups.size)
    {fault : Fault α} (hlookup : s.groupScaling = .error fault) :
    advanceInTurn calls s = ⟨s, if totalSteps calls = 0 then none else some fault⟩ ∧
      advanceRegardless calls s = s := by
  induction calls with
  | nil => exact ⟨rfl, rfl⟩
  | cons call rest ih =>
    obtain ⟨b, n⟩ := call
    obtain ⟨hb, hrest⟩ := List.forall_mem_cons.mp hcalls
    have htotal : totalSteps ((b, n) :: rest) = n + totalSteps rest := List.sum_cons
    obtain ⟨hinTurn, hregardless⟩ := ih hrest
    rw [advanceInTurn, advanceRegardless, hb.advance_of_missing hmatrix hcovers hlookup, htotal]
    refine ⟨?_, hregardless⟩
    by_cases hn : n = 0
    · rw [if_pos hn, hn, Nat.zero_add]
      exact hinTurn
    · rw [if_neg hn, if_neg (by omega)]
      rfl

/-- Calls in turn end as one call for all of their steps, but for the time, and it does not matter
whether a fault would have ended them. -/
theorem advanceInTurn_eq_advance [Machine] {b : Backend α} (hb : b.IsGenuine)
    (hcalls : ∀ call ∈ calls, call.1.IsGenuine) (hmatrix : s.velocityScaling = .ofMat3 m)
    (hcovers : s.atoms.size ≤ s.groups.size)
    (hfinite : ∀ n ≤ totalSteps calls, Scalar.isFinite (Scalar.ofInt n : α) = true) :
    let whole := b.advance (.whole (totalSteps calls)) s
    (∃ time, advanceInTurn calls s =
      ⟨whole.simulation.withClock whole.simulation.step time, whole.fault?⟩) ∧
    advanceRegardless calls s = (advanceInTurn calls s).simulation := by
  cases hlookup : s.groupScaling with
  | error fault =>
    obtain ⟨hinTurn, hregardless⟩ := advanceInTurn_of_missing hcalls hmatrix hcovers hlookup
    rw [hinTurn, hregardless, hb.advance_of_missing hmatrix hcovers hlookup]
    exact ⟨⟨s.time, rfl⟩, rfl⟩
  | ok scaling =>
    have hinTurn := advanceInTurn_eq hcalls hmatrix ⟨hlookup, hcovers⟩ hfinite
    rw [advanceRegardless_of_ok hinTurn, hinTurn,
      hb.advance_of_finite hmatrix ⟨hlookup, hcovers⟩ (hfinite _ le_rfl)]
    exact ⟨⟨_, rfl⟩, rfl⟩

/-- Where the clock stands before the first call shows on the clock only: the same number of steps
is added to it. -/
theorem advanceInTurn_withClock [Machine] (hcalls : ∀ call ∈ calls, call.1.IsGenuine)
    (hmatrix : s.velocityScaling = .ofMat3 m) (hcovers : s.atoms.size ≤ s.groups.size)
    (hfinite : ∀ n ≤ totalSteps calls, Scalar.isFinite (Scalar.ofInt n : α) = true) (step : Nat)
    (time : α) :
    ∃ taken later, (advanceInTurn calls s).simulation.step = s.step + taken ∧
      advanceInTurn calls (s.withClock step time) =
        ⟨(advanceInTurn calls s).simulation.withClock (step + taken) later,
          (advanceInTurn calls s).fault?⟩ := by
  cases hlookup : s.groupScaling with
  | error fault =>
    have hother := advanceInTurn_of_missing (s := s.withClock step time) hcalls hmatrix hcovers
      hlookup
    rw [hother.1, (advanceInTurn_of_missing hcalls hmatrix hcovers hlookup).1]
    exact ⟨0, time, rfl, rfl⟩
  | ok scaling =>
    have hother := advanceInTurn_eq (s := s.withClock step time) hcalls hmatrix
      ⟨hlookup, hcovers⟩ hfinite
    rw [hother, advanceInTurn_eq hcalls hmatrix ⟨hlookup, hcovers⟩ hfinite]
    exact ⟨totalSteps calls, _, rfl, rfl⟩

/-- Without rounding the time goes on by all steps at once. -/
theorem timeAfter_eq (calls : List (Backend ℚ × Nat)) (timestep time : ℚ) :
    timeAfter timestep calls time = time + totalSteps calls * timestep := by
  induction calls generalizing time with
  | nil => simp [timeAfter, totalSteps]
  | cons call rest ih =>
    obtain ⟨b, n⟩ := call
    have htotal : totalSteps ((b, n) :: rest) = n + totalSteps rest := List.sum_cons
    have hone : (if n = 0 then time else time + Scalar.ofInt n * timestep) = time + n * timestep := by
      split
      · next hn => simp [hn]
      · rfl
    rw [timeAfter, hone, ih, htotal]
    push_cast
    ring

end Backend

open Backend

section

variable {α : Type} [Add α] [Sub α] [Mul α] [Scalar α]

/-- What calls in turn have in common with a single call for all of their steps. -/
structure Composes (calls : List (Backend α × Nat)) (b : Backend α) (s : Simulation α) : Prop where
  /-- They end with the same simulation but for its time, and with the same fault if there is one. -/
  alike : ∃ time, advanceInTurn calls s =
    ⟨(b.advance (.whole (totalSteps calls)) s).simulation.withClock
      (b.advance (.whole (totalSteps calls)) s).simulation.step time,
      (b.advance (.whole (totalSteps calls)) s).fault?⟩
  /-- Calls after a fault would change nothing. -/
  regardless : advanceRegardless calls s = (advanceInTurn calls s).simulation
  /-- Where the clock stands before the first call shows on the clock only. -/
  clock : ∀ step time, ∃ taken later, (advanceInTurn calls s).simulation.step = s.step + taken ∧
    advanceInTurn calls (s.withClock step time) =
      ⟨(advanceInTurn calls s).simulation.withClock (step + taken) later,
        (advanceInTurn calls s).fault?⟩

/-- Calls compose if all counts up to their sum are scalars. -/
theorem Composes.of_finite [Machine] {calls : List (Backend α × Nat)} {b : Backend α}
    {s : Simulation α} {m : Mat3 α} (hb : b.IsGenuine) (hcalls : ∀ call ∈ calls, call.1.IsGenuine)
    (hmatrix : s.velocityScaling = .ofMat3 m) (hcovers : s.atoms.size ≤ s.groups.size)
    (hfinite : ∀ n ≤ totalSteps calls, Scalar.isFinite (Scalar.ofInt n : α) = true) :
    Composes calls b s := by
  obtain ⟨halike, hregardless⟩ := advanceInTurn_eq_advance hb hcalls hmatrix hcovers hfinite
  exact ⟨halike, hregardless, advanceInTurn_withClock hcalls hmatrix hcovers hfinite⟩

end

/-- Counts up to one that is converted to a double are converted too. -/
theorem Scalar.isFinite_ofInt_of_le {n k : Nat} (hn : (Scalar.ofInt n : Float).isFinite = true)
    (hk : k ≤ n) : (Scalar.ofInt k : Float).isFinite = true := by
  have hbound := (Decimal.Binary64.isFinite_ofInt n).mp hn
  exact (Decimal.Binary64.isFinite_ofInt k).mpr (by omega)

/-- Without rounding, calls in turn end as a single call for all of their steps. -/
theorem Backend.advanceInTurn_rat [Machine] {calls : List (Backend ℚ × Nat)} {b : Backend ℚ}
    {s : Simulation ℚ} {m : Mat3 ℚ} (hb : b.IsGenuine) (hcalls : ∀ call ∈ calls, call.1.IsGenuine)
    (hmatrix : s.velocityScaling = .ofMat3 m) (hcovers : s.atoms.size ≤ s.groups.size) :
    advanceInTurn calls s = b.advance (.whole (totalSteps calls)) s := by
  cases hlookup : s.groupScaling with
  | error fault =>
    rw [(advanceInTurn_of_missing hcalls hmatrix hcovers hlookup).1,
      hb.advance_of_missing hmatrix hcovers hlookup]
  | ok scaling =>
    rw [advanceInTurn_eq hcalls hmatrix ⟨hlookup, hcovers⟩ fun _ _ => rfl,
      ← advanceInTurn_singleton,
      advanceInTurn_eq (List.forall_mem_singleton.mpr hb) hmatrix ⟨hlookup, hcovers⟩ fun _ _ => rfl,
      timeAfter_eq, timeAfter_eq]
    have hsingle : totalSteps [(b, totalSteps calls)] = totalSteps calls := List.sum_singleton
    rw [hsingle]

/-- Calls to advance a simulation with a group for every atom compose, on any mix of genuine backends
and however the steps are divided between them: on doubles as long as their sum is one, and over the
rationals with the time included. -/
theorem advance_composes [Machine] :
    (∀ (s : Simulation Float), s.velocityScaling.shape = [3, 3] → s.atoms.size ≤ s.groups.size →
      ∀ (calls : List (Backend Float × Nat)), (∀ call ∈ calls, call.1.IsGenuine) →
      ∀ b : Backend Float, b.IsGenuine →
        (Scalar.ofInt (totalSteps calls) : Float).isFinite = true → Composes calls b s) ∧
    ∀ (s : Simulation ℚ), s.velocityScaling.shape = [3, 3] → s.atoms.size ≤ s.groups.size →
      ∀ (calls : List (Backend ℚ × Nat)), (∀ call ∈ calls, call.1.IsGenuine) →
      ∀ b : Backend ℚ, b.IsGenuine →
        Composes calls b s ∧ advanceInTurn calls s = b.advance (.whole (totalSteps calls)) s := by
  constructor
  · intro s hshape hcovers calls hcalls b hb hfinite
    obtain ⟨m, hmatrix⟩ := Tensor.exists_eq_ofMat3 hshape
    exact .of_finite hb hcalls hmatrix hcovers fun n hn => Scalar.isFinite_ofInt_of_le hfinite hn
  · intro s hshape hcovers calls hcalls b hb
    obtain ⟨m, hmatrix⟩ := Tensor.exists_eq_ofMat3 hshape
    exact ⟨.of_finite hb hcalls hmatrix hcovers fun _ _ => rfl,
      advanceInTurn_rat hb hcalls hmatrix hcovers⟩

/-- One step on the host, none at all, and two on the device. -/
def Backend.mixedCalls [Machine] {α : Type} [Add α] [Sub α] [Mul α] [Scalar α] :
    List (Backend α × Nat) :=
  [(.host, 1), (.host, 0), (.device Device.processor, 2)]

theorem Backend.isGenuine_mixedCalls [Machine] {α : Type} [Add α] [Sub α] [Mul α] [Scalar α] :
    ∀ call ∈ (mixedCalls : List (Backend α × Nat)), call.1.IsGenuine := by
  simp [mixedCalls, IsGenuine]

open Workstation

/-- Mixed calls are three steps: on doubles with a table of groups and without one, and sheared over
the rationals. -/
theorem advance_composes_mixed :
    (Scalar.ofInt 3 : Float).isFinite = true ∧
    Composes mixedCalls .host Simulation.grouped ∧
    Composes mixedCalls .host Simulation.ungrouped ∧
    advanceInTurn mixedCalls .sheared = Backend.host.advance (.whole 3) .sheared := by
  have hthree : (Scalar.ofInt 3 : Float).isFinite = true := by decide +kernel
  exact ⟨hthree,
    advance_composes.1 .grouped rfl le_rfl mixedCalls isGenuine_mixedCalls .host (.inl rfl) hthree,
    advance_composes.1 .ungrouped rfl le_rfl mixedCalls isGenuine_mixedCalls .host (.inl rfl) hthree,
    (advance_composes.2 .sheared rfl le_rfl mixedCalls isGenuine_mixedCalls .host (.inl rfl)).2⟩

end Leapfrog
