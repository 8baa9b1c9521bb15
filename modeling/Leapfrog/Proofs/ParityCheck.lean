import Leapfrog.Parity
import Leapfrog.Proofs.ProbeHistory
import Leapfrog.Proofs.Quantities
import Leapfrog.Proofs.RunLog
import Leapfrog.Proofs.RunNumbers
import Leapfrog.Proofs.SavedReport

/-!
# The parity check

A check has four ways to end: its bound on the error is refused before the probe is called, the
probe fails, the run is stopped, or the run completes. The probe is called once in the last three.
Only a completed run is saved and summarised, whatever its verdict is, and what is saved is read
back as the document of the report that is returned.
-/

namespace Leapfrog

/-- The registry of a device after the probe has answered: the loop, and the kernel if there is an
accelerator. -/
def Registry.ofAnswer [Machine] (device : String) (available : Bool) : Registry Float :=
  if available then
    ⟨[.host, .device device], [], by simp, by
      simpa [Backend.host, Backend.device] using Suite.host_ne_device device⟩
  else ⟨[.host], ["warp-" ++ device], by simp, by simp⟩

/-- The backends of an answer keep their atoms, and there are at most two of them. -/
theorem Registry.backends_ofAnswer [Machine] (device : String) (available : Bool) :
    (∀ b ∈ (ofAnswer device available).backends, b.KeepsAtoms) ∧
      (ofAnswer device available).backends.length ≤ 2 := by
  unfold ofAnswer
  cases available with
  | false => simpa using Backend.keepsAtoms_host
  | true => simpa using ⟨Backend.keepsAtoms_host, Backend.keepsAtoms_device device⟩

namespace Suite

variable (probe : Probe Float) (device : String)

/-- A new suite calls its probe once, and a failure of the probe is all that it gets. -/
theorem registry_of_fault [Machine] {fault : Fault Float} (h : probe 0 = .error fault) :
    ({ probe, device } : Suite Float).registry = (.error fault, { probe, device, calls := 1 }) := by
  simp [registry, available, h, Except.bind]

/-- A new suite calls its probe once, and an answer decides about its registry. -/
theorem registry_of_answer [Machine] {answer : Json} (h : probe 0 = .ok answer) :
    ({ probe, device } : Suite Float).registry = (.ok (.ofAnswer device answer.holds),
      { probe, device, calls := 1, answer? := some answer.holds }) := by
  have hnodup : ([.host, .device device].map (Backend.name (α := Float))).Nodup := by
    simpa [Backend.host, Backend.device] using host_ne_device device
  have hone : ([.host].map (Backend.name (α := Float))).Nodup := by simp
  have hregistry : (if answer.holds then Registry.ofBackends [.host, .device device] []
      else Registry.ofBackends [.host] ["warp-" ++ device]) =
      .ok (Registry.ofAnswer device answer.holds) := by
    cases answer.holds with
    | false => exact Registry.ofBackends_of_nodup _ (by simp) hone
    | true => exact Registry.ofBackends_of_nodup _ (by simp) hnodup
  unfold registry available
  simp only [h]
  exact Prod.ext hregistry rfl

end Suite

namespace Parity

variable {q : Request} {tolerance : Tolerance Float} {suite : Suite Float}
variable {registry : Registry Float}

/-- A check that was stopped by a fault: nothing is saved, and the log is all that is shown. -/
structure IsStopped (p : Parity) (log : List String) (fault : Fault Float) : Prop where
  result : p.result = .error fault
  saved : p.saved? = none
  shown : p.shown = log

/-- A check that was completed, as requested: the report of the run is returned, what was saved is
read back as the document of the report, and the progress of the run is shown before the summary. -/
structure IsCompleted (p : Parity) (q : Request) (registry : Registry Float) (run : Run) :
    Prop where
  result : p.result = .ok run.report
  saves : p.saved?.isSome = q.saves
  reads : ∀ text, p.saved? = some text →
    ∃ document, run.report.document q.started = .ok document ∧ Json.parse? text = some document
  quiet : q.verbose = false → p.shown = []
  shown : q.verbose = true → ∃ summary, run.report.summary = .ok summary ∧
    Text.unlines p.shown = Text.unlines (Run.progress q.grid registry run.report.results ++
      [Run.closing run.report.results]) ++ summary

/-- A bound that is refused ends the check before anything else. -/
theorem check_of_refused [Machine] {fault : Fault Float}
    (h : Tolerance.ofEpsilon q.epsilon = .error fault) :
    check q = ⟨q.suite, [], none, .error fault⟩ := by
  unfold check
  rw [h]

/-- A bound that is accepted leaves the check to the registry of the suite and to the run. -/
theorem check_of_accepted [Machine] (h : Tolerance.ofEpsilon q.epsilon = .ok tolerance) :
    check q = match q.suite.registry.1 with
      | .error fault => ⟨q.suite.registry.2, [], none, .error fault⟩
      | .ok registry =>
        match Run.ofGrid q.grid registry tolerance q.verbose with
        | .error stopped => ⟨q.suite.registry.2, stopped.log, none, .error stopped.fault⟩
        | .ok run => publish q q.suite.registry.2 run.log run.report := by
  unfold check
  generalize Tolerance.ofEpsilon q.epsilon = accepted at h
  subst h
  rfl

/-- Lines that are written after other lines. -/
theorem unlines_append (lines others : List String) :
    Text.unlines (lines ++ others) = Text.unlines lines ++ Text.unlines others := by
  simp [Text.unlines, String.join_append]

/-- A report that can be written is saved if it is to be saved, as a text that keeps its document. -/
theorem exists_savedText {report : Report Float} {document : Json}
    (hdocument : report.document q.started = .ok document) (hshort : report.HasShortNumbers) :
    ∃ saved?, savedText q report = .ok saved? ∧ saved?.isSome = q.saves ∧
      ∀ text, saved? = some text → Json.parse? text = some document := by
  unfold savedText
  cases q.saves with
  | false => exact ⟨none, rfl, rfl, fun text htext => nomatch htext⟩
  | true =>
    have htext : report.text q.started Report.savedLayout =
        .ok (Json.print Report.savedLayout document) :=
      Report.text_of_short hdocument hshort
    rw [htext]
    refine ⟨some _, rfl, rfl, fun text htext => ?_⟩
    rw [← Option.some.inj htext]
    exact (Json.keeps_print Report.savedLayout document).reads

variable [Machine]

/-- A completed run whose report can be written is published as requested. -/
theorem isCompleted_publish {run : Run} (hshort : run.report.HasShortNumbers)
    (h : Run.ofGrid q.grid registry tolerance q.verbose = .ok run) :
    (publish q suite run.log run.report).suite = suite ∧
      (publish q suite run.log run.report).IsCompleted q registry run := by
  obtain ⟨document, hdocument⟩ :=
    (Report.exists_document_iff q.started).mpr (Run.hasAxis_of_ofGrid h)
  obtain ⟨saved?, hsaved, hsaves, hreads⟩ := exists_savedText hdocument hshort
  obtain ⟨-, -, hlog⟩ := Run.log_ofGrid.1 run h
  have hpublish : publish q suite run.log run.report =
      ⟨suite, run.log ++ if q.verbose then run.report.summaryLines else [], saved?,
        .ok run.report⟩ := by
    unfold publish
    rw [hsaved, Report.written_of_short hshort]
    cases q.verbose <;> simp
  rw [hpublish]
  refine ⟨rfl, rfl, hsaves, fun text htext => ⟨document, hdocument, hreads text htext⟩,
    fun hquiet => ?_, fun hverbose => ?_⟩
  · simpa [hquiet] using hlog
  · refine ⟨_, Report.summary_of_short hshort, ?_⟩
    rw [hverbose, if_pos rfl] at hlog
    simp only [hverbose, if_true, hlog, unlines_append]

/-- A probe that fails ends the check before the run. -/
theorem check_of_silent {fault : Fault Float}
    (h : Tolerance.ofEpsilon q.epsilon = .ok tolerance)
    (hregistry : q.suite.registry = (.error fault, suite)) :
    (check q).suite = suite ∧ (check q).IsStopped [] fault := by
  rw [check_of_accepted h, hregistry]
  exact ⟨rfl, rfl, rfl, rfl⟩

/-- A run that is stopped ends the check with what it has logged. -/
theorem check_of_stopped {stopped : StoppedRun}
    (h : Tolerance.ofEpsilon q.epsilon = .ok tolerance)
    (hregistry : q.suite.registry = (.ok registry, suite))
    (hrun : Run.ofGrid q.grid registry tolerance q.verbose = .error stopped) :
    (check q).suite = suite ∧ (check q).IsStopped stopped.log stopped.fault := by
  rw [check_of_accepted h, hregistry]
  dsimp only
  rw [hrun]
  exact ⟨rfl, rfl, rfl, rfl⟩

/-- A run that completes is published if its report can be written. -/
theorem check_of_completed {run : Run} (h : Tolerance.ofEpsilon q.epsilon = .ok tolerance)
    (hregistry : q.suite.registry = (.ok registry, suite))
    (hshort : run.report.HasShortNumbers)
    (hrun : Run.ofGrid q.grid registry tolerance q.verbose = .ok run) :
    (check q).suite = suite ∧ (check q).IsCompleted q registry run := by
  rw [check_of_accepted h, hregistry]
  dsimp only
  rw [hrun]
  exact isCompleted_publish hshort hrun

end Parity

open Parity in
/-- A check keeps its contract. A bound that is not accepted, be it out of range or a whole number of
more than 64 bits, ends it before the probe is called;
every other check calls the probe once. A fault of the probe or of the run is what the check ends
with, and then nothing is saved or summarised. A run that completes is returned whatever its verdict
is, saved if it is to be saved and shown if anything is to be shown. -/
theorem parity_check_contract [Machine] {grid : Grid Float} (hgrid : grid.HasCountableAxes)
    (epsilon : Number Float) (probe : Probe Float) (device : String) (saves verbose : Bool)
    (started : Timestamp) :
    let q : Request := ⟨grid, epsilon, { probe, device }, saves, verbose, started⟩
    (¬ epsilon.FitsWord → (check q).suite.calls = 0 ∧ (check q).IsStopped [] .wideNumber) ∧
    (epsilon.FitsWord → Scalar.isNonnegative epsilon.nearest = false →
      (check q).suite.calls = 0 ∧ (check q).IsStopped [] (.epsilon epsilon)) ∧
    (epsilon.FitsWord → ∀ h : Scalar.isNonnegative epsilon.nearest = true,
      (check q).suite.calls = 1 ∧
      (∀ fault, probe 0 = .error fault → (check q).IsStopped [] fault) ∧
      ∀ answer, probe 0 = .ok answer →
        let registry := Registry.ofAnswer device answer.holds
        let run := Run.ofGrid grid registry ⟨epsilon.nearest, h⟩ verbose
        ((∃ completed, run = .ok completed) ↔
          (verbose = true → grid.size < Limits.bound) ∧
          ∀ c ∈ grid.combinations, ∃ scenario, c.scenario = .ok scenario ∧
            ∀ b ∈ registry.backends, ∃ result,
              scenario.run b ⟨epsilon.nearest, h⟩ = .ok result) ∧
        (∀ stopped, run = .error stopped →
          (check q).IsStopped stopped.log stopped.fault ∧
            (stopped.log = [] ∨
              verbose = true ∧ stopped.log = Run.progress grid registry stopped.report.results)) ∧
        ∀ completed, run = .ok completed → (check q).IsCompleted q registry completed) := by
  intro q
  refine ⟨fun hword => ?_, fun hword h => ?_, fun hword h => ?_⟩
  · have hrefused : Tolerance.ofEpsilon q.epsilon = .error .wideNumber :=
      (Tolerance.ofEpsilon_eq epsilon).trans (if_pos hword)
    rw [check_of_refused hrefused]
    exact ⟨rfl, rfl, rfl, rfl⟩
  · have hrefused : Tolerance.ofEpsilon q.epsilon = .error (.epsilon epsilon) :=
      (Tolerance.ofEpsilon_eq epsilon).trans
        ((if_neg (not_not.mpr hword)).trans (dif_neg (by simp [h])))
    rw [check_of_refused hrefused]
    exact ⟨rfl, rfl, rfl, rfl⟩
  have haccepted : Tolerance.ofEpsilon q.epsilon = .ok ⟨epsilon.nearest, h⟩ :=
    (Tolerance.ofEpsilon_eq epsilon).trans ((if_neg (not_not.mpr hword)).trans (dif_pos h))
  cases hcall : probe 0 with
  | error fault =>
    have hregistry : q.suite.registry = _ := Suite.registry_of_fault probe device hcall
    obtain ⟨hsuite, hstopped⟩ := check_of_silent haccepted hregistry
    refine ⟨?_, fun fault' hfault => ?_, fun answer hanswer => nomatch hanswer⟩
    · rw [hsuite]
    · rw [← Except.error.inj hfault]
      exact hstopped
  | ok answer =>
    have hregistry : q.suite.registry = _ := Suite.registry_of_answer probe device hcall
    obtain ⟨hkeeps, hcount⟩ := Registry.backends_ofAnswer device answer.holds
    have hstops (stopped : StoppedRun)
        (hrun : Run.ofGrid q.grid (.ofAnswer device answer.holds)
          ⟨epsilon.nearest, h⟩ q.verbose =
          .error stopped) := check_of_stopped haccepted hregistry hrun
    have hcompletes (run : Run)
        (hrun : Run.ofGrid q.grid (.ofAnswer device answer.holds)
          ⟨epsilon.nearest, h⟩ q.verbose =
          .ok run) :=
      check_of_completed haccepted hregistry
        (Run.hasShortNumbers hgrid hkeeps (hcount.trans_lt (by decide)) hrun) hrun
    refine ⟨?_, fun fault hfault => (nomatch hfault), fun answer' hanswer => ?_⟩
    · cases hrun : Run.ofGrid q.grid (.ofAnswer device answer.holds)
          ⟨epsilon.nearest, h⟩ q.verbose with
      | error stopped => rw [(hstops stopped hrun).1]
      | ok run => rw [(hcompletes run hrun).1]
    obtain rfl := Except.ok.inj hanswer
    exact ⟨Run.exists_ofGrid_iff_combinations,
      fun stopped hrun => ⟨(hstops stopped hrun).2, Run.log_of_stopped hrun⟩,
      fun run hrun => (hcompletes run hrun).2⟩

/-- The small grid at the tight tolerance, on a suite that has an accelerator, saved and shown. -/
def Parity.Request.small : Request where
  grid := .small
  epsilon := .scalar 0.125
  suite := { probe := fun _ => .ok (.bool true), device := Device.processor }
  saves := true
  verbose := true
  started := .early

open Workstation

/-- The small check completes. -/
theorem parity_check_contract_small :
    Grid.small.HasCountableAxes ∧
      ∃ run, Run.ofGrid .small (.ofAnswer Device.processor true) .tight true = .ok run ∧
        (Parity.check .small).IsCompleted .small (.ofAnswer Device.processor true) run := by
  have haxes : Grid.small.HasCountableAxes := by
    unfold Grid.HasCountableAxes
    decide
  obtain ⟨-, -, haccepted⟩ := parity_check_contract haxes (.scalar 0.125)
    (fun _ => .ok (.bool true)) Device.processor true true .early
  obtain ⟨-, -, hanswered⟩ := haccepted trivial Tolerance.tight.epsilon_nonnegative
  obtain ⟨hcompletes, -, hcompleted⟩ := hanswered (.bool true) rfl
  obtain ⟨-, hpairs⟩ := Run.exists_ofGrid_iff_combinations.mp Run.exists_ofGrid_small
  obtain ⟨run, hrun⟩ := hcompletes.mpr ⟨fun _ => by decide, hpairs⟩
  exact ⟨haxes, run, hrun, hcompleted run hrun⟩

end Leapfrog
