import Leapfrog.Chart
import Leapfrog.Proofs.ArrayLimits
import Leapfrog.Proofs.Comparison
import Leapfrog.Proofs.DoubleOrder
import Leapfrog.Proofs.RunResults

/-!
# The calibration curve and the verdict

The growth of the error keeps the largest distances after every number of steps, and a run keeps the
components whose distance is not within the tolerance. Both say the same: after any number of steps
the two largest distances are within the tolerance exactly if the run over as many steps has no
mismatch. That a distance may be infinite or no number at all, and that the tolerance may be infinite,
makes no difference.

A chart shows these distances, one curve for each backend, and the tolerance.
-/

namespace Leapfrog

/-- A bound on the error of a step does not lie below zero. -/
theorem Tolerance.zero_le_epsilon (t : Tolerance Float) :
    Scalar.le (Scalar.ofInt 0) t.epsilon = true := by
  have h := t.epsilon_nonnegative
  rw [Scalar.isNonnegative, Scalar.lt, Bool.and_eq_true, Bool.not_eq_true', Bool.and_eq_false_iff,
    Bool.not_eq_false'] at h
  obtain ⟨hfinite, hle | hle⟩ := h
  · refine Scalar.le_of_not_le (not_isNaN_of_isFinite hfinite) ?_ (by simp [hle])
    exact not_isNaN_of_isFinite ((Decimal.Binary64.isFinite_ofInt 0).mpr (by decide))
  · exact hle

/-- The tolerance after a number of steps does not lie below zero. -/
theorem Tolerance.zero_le_bound (t : Tolerance Float) {n : Nat}
    (hn : Scalar.isFinite (Scalar.ofInt n : Float) = true) :
    Scalar.le (Scalar.ofInt 0) (Scalar.ofInt n * t.epsilon) = true := by
  have hepsilon := t.epsilon_nonnegative
  rw [Scalar.isNonnegative, Bool.and_eq_true] at hepsilon
  exact zero_le_mul (zero_le_ofInt hn) t.zero_le_epsilon hn hepsilon.1

/-- There are no mismatches exactly if the largest distance is within the bound. -/
theorem Mismatch.ofVectors_eq_nil_iff (q : Quantity) {bound : Float}
    (h : Scalar.le (Scalar.ofInt 0) bound = true) (actual expected : List (Vec3 Float)) :
    ofVectors q bound actual expected = [] ↔
      Scalar.le (ErrorGrowth.largestError actual expected) bound = true := by
  have hwithin (values : List (Float × Float)) :
      values.zipIdx.filterMap (fun ((a, e), k) =>
          if isWithin a e bound then none
          else some (⟨(k / 3 : Nat), (k % 3 : Nat), q, a, e, bound⟩ : Mismatch Float)) = [] ↔
        ∀ pair ∈ values, isWithin pair.1 pair.2 bound = true := by
    conv_rhs => rw [← List.zipIdx_map_fst 0 values]
    rw [List.filterMap_eq_nil_iff, List.forall_mem_map]
    apply forall₂_congr
    intro entry _
    by_cases hentry : isWithin entry.1.1 entry.1.2 bound = true <;> simp [hentry]
  rw [ErrorGrowth.largestError, Scalar.largest_le_iff _ h, ofVectors, scan_eq, hwithin,
    ← List.map_uncurry_zip_eq_zipWith, List.forall_mem_map]
  rfl

/-- A scenario with another number of steps. -/
def Scenario.lasting {α : Type} [Scalar α] (s : Scenario α) (steps : Nat) : Scenario α :=
  { s with steps := steps }

namespace ErrorGrowth

variable [Machine] {b : Backend Float} {s : Scenario Float} {tolerance : Tolerance Float}

/-- Where the largest distances after some steps are known, the run over as many steps returns, and it
has no mismatch exactly if both are within the tolerance. -/
theorem exists_run_of_after (tolerance : Tolerance Float) {n : Nat} {x v : Float}
    (h : after b s n = .ok (x, v)) :
    ∃ bound result, tolerance.bound (.whole n) = .ok bound ∧
      (s.lasting n).run b tolerance = .ok result ∧
      (x ≤ bound ∧ v ≤ bound ↔ result.mismatches = []) := by
  obtain ⟨start, hstart, h⟩ := bind_eq_ok_iff.mp h
  obtain ⟨last, hlast, h⟩ := bind_eq_ok_iff.mp h
  obtain ⟨reference, hreference, h⟩ := bind_eq_ok_iff.mp h
  obtain ⟨rfl, rfl⟩ := Prod.mk.inj (Except.ok.inj h)
  obtain ⟨-, time, htime, -⟩ := Reference.ofSimulation_eq_ok_iff.mp hreference
  have hsteps := (Number.eq_of_times htime).1
  have hbound : tolerance.bound (.whole n) = .ok (Scalar.ofInt n * tolerance.epsilon) := by
    simp [Tolerance.bound, Number.isNegative, Number.times, Number.toScalar, hsteps, bind,
      Except.bind, pure, Except.pure]
  have hcheck : last.check (.whole n) tolerance = .ok
      (Mismatch.ofVectors .position (Scalar.ofInt n * tolerance.epsilon) last.positions
          reference.positions ++
        Mismatch.ofVectors .velocity (Scalar.ofInt n * tolerance.epsilon) last.velocities
          reference.velocities) := by
    rw [Simulation.check, hreference, hbound]
    rfl
  refine ⟨_, _, hbound, Scenario.run_eq_ok_iff.mpr
    ⟨start, hstart, last, hlast, _, hcheck, rfl⟩, ?_⟩
  have hzero := tolerance.zero_le_bound hsteps
  rw [List.append_eq_nil_iff, Mismatch.ofVectors_eq_nil_iff _ hzero,
    Mismatch.ofVectors_eq_nil_iff _ hzero]
  exact (and_congr decide_eq_true_iff decide_eq_true_iff).symm

/-- Whether the growth of the error on a backend agrees with its runs: there is a value for every number
of steps, and the two values for a number of steps are within the tolerance exactly if the run over as
many steps, which returns, has no mismatch. -/
structure Agrees (b : Backend Float) (s : Scenario Float) (tolerance : Tolerance Float)
    (growth : ErrorGrowth Float) : Prop where
  positions : growth.positions.length = s.steps + 1
  velocities : growth.velocities.length = s.steps + 1
  verdict : ∀ n ≤ s.steps, ∃ x v bound result,
    growth.positions[n]? = some x ∧ growth.velocities[n]? = some v ∧
    tolerance.bound (.whole n) = .ok bound ∧ (s.lasting n).run b tolerance = .ok result ∧
    (x ≤ bound ∧ v ≤ bound ↔ result.mismatches = [])

/-- A growth that is measured has one pair of values for each index of its row. -/
theorem measure_eq_ok_iff {growth : ErrorGrowth Float} :
    measure b s = .ok growth ↔
      ∃ count errors, Limits.range (α := Float) .whole (s.steps + 1) = .ok count ∧
        List.Forall₂ (fun n pair => after b s n = .ok pair) (List.range count) errors ∧
        growth = ⟨errors.map Prod.fst, errors.map Prod.snd⟩ := by
  unfold measure
  rw [bind_eq_ok_iff]
  constructor
  · intro h
    obtain ⟨count, hcount, h⟩ := h
    obtain ⟨errors, herrors, h⟩ := bind_eq_ok_iff.mp h
    exact ⟨count, errors, hcount, mapM_eq_ok_iff.mp herrors, (Except.ok.inj h).symm⟩
  · rintro ⟨count, errors, hcount, herrors, rfl⟩
    exact ⟨count, hcount, bind_eq_ok_iff.mpr ⟨errors, mapM_eq_ok_iff.mpr herrors, rfl⟩⟩

/-- A growth that is measured agrees with the runs, unless the end of its row is lost. -/
theorem agrees_of_measure (hkept : ¬ Limits.IsLost (s.steps + 1)) (tolerance : Tolerance Float)
    {growth : ErrorGrowth Float} (h : measure b s = .ok growth) : growth.Agrees b s tolerance := by
  obtain ⟨count, errors, hcount, herrors, rfl⟩ := measure_eq_ok_iff.mp h
  obtain ⟨-, rfl⟩ := (Limits.range_eq_ok_iff.mp hcount).resolve_right fun hlost => hkept hlost.1
  have hlength : errors.length = s.steps + 1 := by
    rw [← herrors.length_eq, List.length_range]
  refine ⟨by simp [hlength], by simp [hlength], fun n hn => ?_⟩
  obtain ⟨⟨x, v⟩, hpair, hafter⟩ := exists_answer herrors (List.getElem?_range (by omega : n < s.steps + 1))
  obtain ⟨bound, result, hbound, hrun, hiff⟩ := exists_run_of_after tolerance hafter
  exact ⟨x, v, bound, result, by simp [hpair], by simp [hpair], hbound, hrun, hiff⟩

end ErrorGrowth

/-- The values of a growth that a panel shows. -/
def Panel.values (p : Panel) (growth : ErrorGrowth Float) : List Float :=
  match p with
  | .position => growth.positions
  | .velocity => growth.velocities

/-- The curve that a command draws on a panel. -/
def Drawing.curveOn? (p : Panel) : Drawing → Option Curve
  | .curve q c => if q = p then some c else none
  | _ => none

namespace Chart

variable {s : Scenario Float} {tolerance : Tolerance Float}

/-- The tolerance after every number of steps. -/
theorem bounds_eq_ok {count : Nat} {values : List Float} (h : bounds tolerance count = .ok values) :
    values.length = count ∧
      ∀ n < count, ∃ bound, values[n]? = some bound ∧ tolerance.bound (.whole n) = .ok bound := by
  have hvalues := mapM_eq_ok_iff.mp h
  refine ⟨by rw [← hvalues.length_eq, List.length_range], fun n hn => ?_⟩
  exact exists_answer hvalues (List.getElem?_range hn)

/-- What a backend adds to a chart: the growth of its error, and the tolerance over as many steps. -/
def Adds [Machine] (s : Scenario Float) (tolerance : Tolerance Float) (b : Backend Float)
    (part : List Drawing × List Float) : Prop :=
  ∃ growth, ErrorGrowth.measure b s = .ok growth ∧
    bounds tolerance growth.positions.length = .ok part.2 ∧ part.1 = backendCurves b.name growth

/-- A chart has the parts of all backends in order, and then the tolerance of the last one. -/
theorem errorGrowth_eq_ok [Machine] {backends : List (Backend Float)} {size : List (Number Float)}
    {shows : Bool} {drawings : List Drawing}
    (h : errorGrowth backends s tolerance size shows = .ok drawings) :
    ∃ parts, List.Forall₂ (Adds s tolerance) backends parts ∧
      drawings = .panels size :: parts.flatMap Prod.fst ++
        [.position, .velocity].flatMap (finishPanel s (parts.getLast?.map Prod.snd)) ++
        .tighten :: (if shows then [.display] else []) := by
  obtain ⟨parts, hparts, h⟩ := bind_eq_ok_iff.mp h
  refine ⟨parts, (mapM_eq_ok_iff.mp hparts).imp fun b part hpart => ?_, (Except.ok.inj h).symm⟩
  obtain ⟨growth, hgrowth, hpart⟩ := bind_eq_ok_iff.mp hpart
  obtain ⟨values, hvalues, hpart⟩ := bind_eq_ok_iff.mp hpart
  obtain rfl := Except.ok.inj hpart
  exact ⟨growth, hgrowth, hvalues, rfl⟩

/-- The parts of the backends draw one curve for each of them on a panel, in order. -/
theorem exists_growths [Machine] {backends : List (Backend Float)}
    {parts : List (List Drawing × List Float)}
    (h : List.Forall₂ (Adds s tolerance) backends parts) :
    ∃ growths, List.Forall₂ (fun b growth => ErrorGrowth.measure b s = .ok growth) backends growths ∧
      ∀ p : Panel, (parts.flatMap Prod.fst).filterMap (Drawing.curveOn? p) =
        List.zipWith (fun b growth => ⟨p.values growth, b.name, false⟩) backends growths := by
  induction h with
  | nil => exact ⟨[], .nil, fun _ => rfl⟩
  | @cons b part _ _ hpart _ ih =>
    obtain ⟨growth, hgrowth, -, hcurves⟩ := hpart
    obtain ⟨growths, hgrowths, hrest⟩ := ih
    refine ⟨growth :: growths, .cons hgrowth hgrowths, fun p => ?_⟩
    rw [List.flatMap_cons, List.filterMap_append, hrest, hcurves, List.zipWith_cons_cons]
    cases p <;> rfl

/-- What a panel ends with draws the tolerance if there is one, and no other curve. -/
theorem curveOn?_finishPanel (bounds? : Option (List Float)) (p : Panel) :
    ([Panel.position, .velocity].flatMap (finishPanel s bounds?)).filterMap (Drawing.curveOn? p) =
      (bounds?.map fun values => Curve.mk values "tolerance" true).toList := by
  cases bounds? <;> cases p <;> rfl

end Chart

/-- The calibration curve and the verdict agree. Unless the end of the row of steps is lost, the growth
of the error on a backend has one value for each number of steps, and both values are within the
tolerance exactly if the run over as many steps has no mismatch. A chart shows on each panel the
curves of all backends in order and then, if there are any backends, the tolerance as a dashed one. -/
theorem calibration_curve_agrees_with_verdict [Machine] {s : Scenario Float}
    (hkept : ¬ Limits.IsLost (s.steps + 1)) (tolerance : Tolerance Float) :
    (∀ b growth, ErrorGrowth.measure b s = .ok growth → growth.Agrees b s tolerance) ∧
    ∀ backends size shows drawings,
      Chart.errorGrowth backends s tolerance size shows = .ok drawings →
      ∃ growths, List.Forall₂ (fun b growth => ErrorGrowth.measure b s = .ok growth ∧
          growth.Agrees b s tolerance) backends growths ∧
        ∃ bounds? : Option (List Float), (bounds? = none ↔ backends = []) ∧
          (∀ bounds ∈ bounds?, bounds.length = s.steps + 1 ∧ ∀ n ≤ s.steps,
            ∃ bound, bounds[n]? = some bound ∧ tolerance.bound (.whole n) = .ok bound) ∧
          ∀ p : Panel, drawings.filterMap (Drawing.curveOn? p) =
            List.zipWith (fun b growth => ⟨p.values growth, b.name, false⟩) backends growths ++
              (bounds?.map fun bounds => ⟨bounds, "tolerance", true⟩).toList := by
  have hagrees : ∀ b growth, ErrorGrowth.measure b s = .ok growth → growth.Agrees b s tolerance :=
    fun _ _ => ErrorGrowth.agrees_of_measure hkept tolerance
  refine ⟨hagrees, fun backends size shows drawings h => ?_⟩
  obtain ⟨parts, hparts, rfl⟩ := Chart.errorGrowth_eq_ok h
  obtain ⟨growths, hgrowths, hcurves⟩ := Chart.exists_growths hparts
  refine ⟨growths, hgrowths.imp fun b growth hgrowth => ⟨hgrowth, hagrees b growth hgrowth⟩,
    parts.getLast?.map Prod.snd, ?_, fun bounds hbounds => ?_, fun p => ?_⟩
  · rw [Option.map_eq_none_iff, List.getLast?_eq_none_iff, ← List.length_eq_zero_iff,
      ← hparts.length_eq, List.length_eq_zero_iff]
  · obtain ⟨part, hpart, rfl⟩ := Option.map_eq_some_iff.mp hbounds
    obtain ⟨b, -, growth, hgrowth, hvalues, -⟩ :=
      exists_answer_mem hparts.flip (List.mem_of_getLast? hpart)
    obtain ⟨hlength, hall⟩ := Chart.bounds_eq_ok hvalues
    rw [(hagrees b growth hgrowth).positions] at hlength hall
    exact ⟨hlength, fun n hn => hall n (by omega)⟩
  · have hends : (Drawing.tighten :: (if shows then [Drawing.display] else [])).filterMap
        (Drawing.curveOn? p) = [] := by
      cases shows <;> rfl
    rw [List.filterMap_append, hends, List.append_nil, List.filterMap_append,
      Chart.curveOn?_finishPanel, ← hcurves]
    rfl

open Workstation

/-- The growth over two steps agrees with the runs over none, one and two, and a chart of both backends
has three curves on each panel. -/
theorem calibration_curve_agrees_with_verdict_single :
    ¬ Limits.IsLost ((Scenario.single 2).steps + 1) ∧
      (∃ growth, ErrorGrowth.measure .host (.single 2) = .ok growth ∧
        growth.Agrees .host (.single 2) .tight) ∧
      ∃ drawings, Chart.errorGrowth [.host, .device Device.processor] (.single 2) .tight
          Chart.standardSize true = .ok drawings ∧
        ∀ p : Panel, (drawings.filterMap (Drawing.curveOn? p)).length = 3 := by
  have hkept : ¬ Limits.IsLost ((Scenario.single 2).steps + 1) := by
    unfold Limits.IsLost
    decide
  obtain ⟨hgrowth, hchart⟩ := calibration_curve_agrees_with_verdict hkept .tight
  obtain ⟨growth, hmeasure⟩ : ∃ growth, ErrorGrowth.measure .host (.single 2) = .ok growth :=
    exists_ok_of_toBool (by decide +kernel)
  obtain ⟨drawings, hdrawings⟩ : ∃ drawings, Chart.errorGrowth [.host, .device Device.processor]
      (.single 2) .tight Chart.standardSize true = .ok drawings :=
    exists_ok_of_toBool (by decide +kernel)
  refine ⟨hkept, ⟨growth, hmeasure, hgrowth _ _ hmeasure⟩, drawings, hdrawings, fun p => ?_⟩
  obtain ⟨growths, hgrowths, bounds?, hnone, -, hcurves⟩ := hchart _ _ _ _ hdrawings
  have htwo : growths.length = 2 := hgrowths.length_eq.symm
  obtain ⟨bounds, rfl⟩ : ∃ bounds, bounds? = some bounds :=
    Option.ne_none_iff_exists'.mp fun h => by simpa using hnone.mp h
  rw [hcurves p]
  simp [htwo]

/-- Where the end of the row of steps is lost, the growth of the error has no values at all. -/
theorem measure_eq_nil_of_isLost :
    Limits.IsLost ((Scenario.single 9223372036854776831).steps + 1) ∧
      ∃ growth, ErrorGrowth.measure .host (.single 9223372036854776831) = .ok growth ∧
        growth.positions = [] ∧ ¬ growth.Agrees .host (.single 9223372036854776831) .tight := by
  have hlost : Limits.IsLost ((Scenario.single 9223372036854776831).steps + 1) := by
    unfold Limits.IsLost
    decide
  refine ⟨hlost, ⟨[], []⟩, ?_, rfl, fun h => ?_⟩
  · exact ErrorGrowth.measure_eq_ok_iff.mpr
      ⟨0, [], Limits.range_eq_ok_iff.mpr (.inr ⟨hlost, rfl⟩), .nil, rfl⟩
  · have hlength := h.positions
    cases hlength

end Leapfrog
