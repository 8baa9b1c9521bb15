import Leapfrog.Proofs.Traversal
import Leapfrog.Run
import Leapfrog.Suite

/-!
# The history of a probe

A suite knows one of three things about its accelerator: nothing yet, that there is one, or that there
is none. What it knows is what the first call of its probe that did not fail has returned, and as long
as there was none it asks again. So what a suite knows after any history depends only on how often its
probe has been called, and one operation after the other decides whether it is called once more.
-/

namespace Leapfrog

/-- What has been returned by the first of a number of calls that did not fail. -/
def Probe.first? {α : Type} (probe : Probe α) : Nat → Option Json
  | 0 => none
  | calls + 1 => (first? probe calls).or (probe calls).toOption

namespace Registry

variable {α : Type}

/-- Names that differ are no duplicates. -/
theorem duplicates_of_nodup {names : List String} (h : names.Nodup) : duplicates names = [] := by
  have hfilter : (names.filter fun name => decide (1 < names.count name)) = [] := by
    rw [List.filter_eq_nil_iff]
    intro name _
    have hcount := List.nodup_iff_count_le_one.mp h name
    simpa using hcount
  simp [duplicates, hfilter]

/-- Backends with names that differ make a registry. -/
theorem ofBackends_of_nodup {backends : List (Backend α)} (skipped : List String)
    (hsome : backends ≠ []) (h : (backends.map Backend.name).Nodup) :
    ofBackends backends skipped = .ok ⟨backends, skipped, hsome, h⟩ := by
  rw [ofBackends, dif_neg hsome, dif_pos (duplicates_of_nodup h)]

/-- The registry of a suite with a device: the loop, and the kernel on the device if it is
available. -/
structure IsFor (device : String) (available : Bool) (r : Registry α) : Prop where
  names : r.names = if available then ["host", "warp-" ++ device] else ["host"]
  skipped : r.skipped = if available then [] else ["warp-" ++ device]

end Registry

namespace Suite

variable {α : Type} {s : Suite α}

/-- A suite remembers what the first call of its probe that did not fail has returned. -/
def Remembers (s : Suite α) : Prop := s.answer? = (s.probe.first? s.calls).map Json.holds

/-- A suite after one more call of its probe. -/
def asked (s : Suite α) : Suite α :=
  { s with
    calls := s.calls + 1
    answer? := (s.probe.first? (s.calls + 1)).map Json.holds }

/-- What an operation that needs the answer leaves of a suite: the probe is called while nothing has
been returned. -/
def consulted (s : Suite α) : Suite α :=
  if s.probe.first? s.calls = none then s.asked else s

/-- What an operation that needs the answer gets: the answer, or the fault of a call of the probe. -/
def verdict (s : Suite α) : Except (Fault α) Bool :=
  match s.probe.first? s.calls with
  | some given => .ok given.holds
  | none => (s.probe s.calls).map Json.holds

/-- A suite that remembers calls its probe while nothing has been returned, and not afterwards. -/
theorem Remembers.available_eq (h : s.Remembers) : s.available = (s.verdict, s.consulted) := by
  unfold Remembers at h
  unfold available verdict consulted asked
  rw [h]
  cases hfirst : s.probe.first? s.calls with
  | some given => rfl
  | none =>
    rw [Probe.first?, hfirst]
    cases hcall : s.probe s.calls <;> simp [Except.toOption, Except.map]

/-- A suite that is consulted still remembers. -/
theorem Remembers.consulted (h : s.Remembers) : s.consulted.Remembers := by
  unfold Suite.consulted
  split
  · rfl
  · exact h

/-- A suite that remembers has been answered if something has been returned. -/
theorem Remembers.probed_eq (h : s.Remembers) : s.probed = (s.probe.first? s.calls).isSome := by
  unfold Remembers at h
  rw [probed, h, Option.isSome_map]

/-- An answer is that of the first call that did not fail, the call for this answer included. -/
theorem exists_of_verdict_eq_ok {available : Bool} (h : s.verdict = .ok available) :
    ∃ given, s.consulted.probe.first? s.consulted.calls = some given ∧
      available = given.holds := by
  unfold verdict at h
  unfold Suite.consulted asked
  cases hfirst : s.probe.first? s.calls with
  | some given =>
    rw [hfirst] at h
    exact ⟨given, by simp [hfirst], (Except.ok.inj h).symm⟩
  | none =>
    rw [hfirst] at h
    cases hcall : s.probe s.calls with
    | error fault =>
      rw [hcall] at h
      cases h
    | ok given =>
      rw [hcall] at h
      exact ⟨given, by simp [Probe.first?, hfirst, hcall, Except.toOption],
        (Except.ok.inj h).symm⟩

/-- There is no answer if all calls have failed, the last of them with the same fault. Nothing but the
call itself is kept. -/
theorem Remembers.of_verdict_eq_error (hs : s.Remembers) {fault : Fault α}
    (h : s.verdict = .error fault) :
    s.probe s.calls = .error fault ∧ s.probe.first? s.consulted.calls = none ∧
      s.consulted = { s with calls := s.calls + 1 } := by
  unfold Remembers at hs
  unfold verdict at h
  unfold Suite.consulted asked
  cases hfirst : s.probe.first? s.calls with
  | some given =>
    rw [hfirst] at h
    cases h
  | none =>
    rw [hfirst] at h hs
    cases hcall : s.probe s.calls with
    | error fault' =>
      rw [hcall] at h
      obtain rfl : fault' = fault := Except.error.inj h
      have hnone : s.probe.first? (s.calls + 1) = none := by
        simp [Probe.first?, hfirst, hcall, Except.toOption]
      exact ⟨rfl, by simpa using hnone, by simp [hnone, hs]⟩
    | ok given =>
      rw [hcall] at h
      cases h

/-- The probe is called once more if nothing has been returned. -/
theorem calls_consulted :
    s.consulted.calls = s.calls + if s.probe.first? s.calls = none then 1 else 0 := by
  unfold Suite.consulted asked
  split <;> rfl

/-- To consult a suite changes neither its probe nor its device. -/
theorem consulted_eq : s.consulted.probe = s.probe ∧ s.consulted.device = s.device := by
  unfold Suite.consulted asked
  split <;> exact ⟨rfl, rfl⟩

variable [Add α] [Sub α] [Mul α] [Scalar α]

/-- The loop and the kernel on a device have different names. -/
theorem host_ne_device (device : String) : "host" ≠ "warp-" ++ device := by
  intro h
  have hfirst := congrArg (fun name => name.toList.head?) h
  simp [String.toList_append] at hfirst

/-- The registry of a suite is made of the answer, and there is one whenever there is an answer. -/
theorem registry_eq [Machine] (s : Suite α) :
    ∃ make : Bool → Registry α, (∀ available, (make available).IsFor s.device available) ∧
      s.registry = (s.available.1.map make, s.available.2) := by
  have hboth : ([.host, .device s.device].map (Backend.name (α := α))).Nodup := by
    simpa [Backend.host, Backend.device] using host_ne_device s.device
  have hone : ([.host].map (Backend.name (α := α))).Nodup := by simp
  refine ⟨fun available => if available then ⟨[.host, .device s.device], [], by simp, hboth⟩
    else ⟨[.host], ["warp-" ++ s.device], by simp, hone⟩, fun available => ?_, ?_⟩
  · cases available
    · exact ⟨rfl, rfl⟩
    · exact ⟨rfl, rfl⟩
  · unfold registry
    obtain ⟨answer, after⟩ := s.available
    cases answer with
    | error fault => rfl
    | ok available =>
      dsimp only [Except.bind, Except.map]
      cases available with
      | false =>
        rw [if_neg Bool.false_ne_true, Registry.ofBackends_of_nodup _ (by simp) hone]
        rfl
      | true =>
        rw [if_pos rfl, Registry.ofBackends_of_nodup _ (by simp) hboth]
        rfl

/-- The registry of a suite that remembers is made of what it remembers. -/
theorem Remembers.registry_eq [Machine] (h : s.Remembers) :
    ∃ make : Bool → Registry α, (∀ available, (make available).IsFor s.device available) ∧
      s.registry = (s.verdict.map make, s.consulted) := by
  obtain ⟨make, hmake, hregistry⟩ := s.registry_eq
  rw [h.available_eq] at hregistry
  exact ⟨make, hmake, hregistry⟩

end Suite

/-- A grid that is to be run on the backends of a registry. -/
structure Driver where
  grid : Grid Float
  registry : Registry Float
  tolerance : Tolerance Float
  verbose : Bool

/-- What is done with a suite and the drivers that have been built from it. -/
inductive Operation where
  /-- It is asked whether there is an accelerator. -/
  | available
  /-- It is asked whether the probe has answered. -/
  | probed
  /-- It is asked for the device. -/
  | device
  /-- The registry of the suite is made. -/
  | registry
  /-- A driver is built, with the registry of the suite. -/
  | driver (grid : Grid Float) (tolerance : Tolerance Float) (verbose : Bool)
  /-- One of the drivers is run. -/
  | run (driver : Nat)

/-- What comes of an operation. -/
inductive Answer where
  | flag (value : Bool)
  | name (value : String)
  | registry (value : Registry Float)
  | driver (value : Driver)
  | run (value : Run)

/-- A suite with the drivers that have been built from it. -/
@[ext] structure Session where
  suite : Suite Float
  drivers : List Driver

namespace Session

/-- A session with a suite that has not been asked anything. -/
def opened (probe : Probe Float) (device : String) : Session := ⟨{ probe, device }, []⟩

/-- What comes of an operation, and what is left of the session. -/
def perform [Machine] (s : Session) : Operation → Except (Fault Float) Answer × Session
  | .available =>
    let (available, suite) := s.suite.available
    (available.map .flag, { s with suite })
  | .probed => (.ok (.flag s.suite.probed), s)
  | .device => (.ok (.name s.suite.device), s)
  | .registry =>
    let (registry, suite) := s.suite.registry
    (registry.map .registry, { s with suite })
  | .driver grid tolerance verbose =>
    let (registry, suite) := s.suite.registry
    match registry with
    | .error fault => (.error fault, { s with suite })
    | .ok registry =>
      let driver : Driver := ⟨grid, registry, tolerance, verbose⟩
      (.ok (.driver driver), ⟨suite, s.drivers ++ [driver]⟩)
  | .run i =>
    match s.drivers[i]? with
    | none => (.error .unknownSlot, s)
    | some d =>
      match Run.ofGrid d.grid d.registry d.tolerance d.verbose with
      | .error stopped => (.error stopped.fault, s)
      | .ok run => (.ok (.run run), s)

/-- What operations leave of a session, one operation after the other. -/
def performAll [Machine] (operations : List Operation) (s : Session) : Session :=
  operations.foldl (fun s operation => (s.perform operation).2) s

end Session

namespace Operation

/-- The operations that need to know whether there is an accelerator. -/
def NeedsAnswer : Operation → Prop
  | available | registry | driver .. => True
  | probed | device | run _ => False

instance : DecidablePred NeedsAnswer
  | available | registry | driver .. => .isTrue trivial
  | probed | device | run _ => .isFalse not_false

/-- What an operation that needs the answer makes of it. -/
def Yields (device : String) (available : Bool) : Operation → Answer → Prop
  | .available, .flag value => value = available
  | registry, .registry r => r.IsFor device available
  | driver grid tolerance verbose, .driver d =>
    d.registry.IsFor device available ∧
      d.grid = grid ∧ d.tolerance = tolerance ∧ d.verbose = verbose
  | _, _ => False

/-- What is to come of an operation after a number of calls of the probe. What comes of a driver that
is run has nothing to do with it. -/
def Expects (probe : Probe Float) (device : String) (calls : Nat) : Operation → Answer → Prop
  | probed, answer => answer = .flag (probe.first? calls).isSome
  | .device, answer => answer = .name device
  | operation, answer =>
    ∃ given, probe.first? calls = some given ∧ operation.Yields device given.holds answer

end Operation

/-- The drivers that are built with an answer. -/
def Answer.drivers : Answer → List Driver
  | .driver d => [d]
  | _ => []

/-- A driver that is built with an answer has the registry that goes with it. -/
theorem Operation.Yields.isFor_of_mem {operation : Operation} {device : String} {available : Bool}
    {answer : Answer} (h : operation.Yields device available answer) {d : Driver}
    (hd : d ∈ answer.drivers) : d.registry.IsFor device available := by
  cases answer with
  | driver built =>
    obtain rfl := List.mem_singleton.mp hd
    cases operation with
    | driver => exact h.1
    | _ => exact h.elim
  | _ => cases hd

namespace Session

variable {s : Session} {operation : Operation}

/-- An operation that needs the answer consults the suite and makes something of the answer; a driver
that is built is kept. -/
theorem perform_of_needsAnswer [Machine] (h : s.suite.Remembers) (hneeds : operation.NeedsAnswer) :
    ∃ make : Bool → Answer, (∀ available, operation.Yields s.suite.device available (make available)) ∧
      (s.perform operation).1 = s.suite.verdict.map make ∧
      (s.perform operation).2.suite = s.suite.consulted ∧
      (s.perform operation).2.drivers =
        s.drivers ++ ((s.suite.verdict.map make).toOption.map Answer.drivers).getD [] := by
  obtain ⟨make, hmake, hregistry⟩ := h.registry_eq
  cases operation with
  | available =>
    refine ⟨.flag, fun _ => rfl, ?_⟩
    rw [perform, h.available_eq]
    cases s.suite.verdict <;> simp [Except.map, Except.toOption, Answer.drivers]
  | registry =>
    refine ⟨fun available => .registry (make available), hmake, ?_⟩
    rw [perform, hregistry]
    cases s.suite.verdict <;> simp [Except.map, Except.toOption, Answer.drivers]
  | driver grid tolerance verbose =>
    refine ⟨fun available => .driver ⟨grid, make available, tolerance, verbose⟩,
      fun available => ⟨hmake available, rfl, rfl, rfl⟩, ?_⟩
    rw [perform, hregistry]
    cases s.suite.verdict <;> simp [Except.map, Except.toOption, Answer.drivers]
  | probed | device | run => exact hneeds.elim

/-- Any other operation leaves everything as it is. -/
theorem perform_of_not_needsAnswer [Machine] (hneeds : ¬ operation.NeedsAnswer) :
    (s.perform operation).2 = s := by
  cases operation with
  | available | registry | driver => exact absurd trivial hneeds
  | probed | device => rfl
  | run i =>
    rw [perform]
    cases s.drivers[i]? with
    | none => rfl
    | some d =>
      dsimp only
      cases Run.ofGrid d.grid d.registry d.tolerance d.verbose <;> rfl

/-- What is true of a session with a probe and a device at all times: its suite remembers, and its
drivers have the registry that goes with the answer. -/
structure IsSound (probe : Probe Float) (device : String) (s : Session) : Prop where
  probe_eq : s.suite.probe = probe
  device_eq : s.suite.device = device
  remembers : s.suite.Remembers
  drivers : ∀ d ∈ s.drivers, ∃ given, probe.first? s.suite.calls = some given ∧
    d.registry.IsFor device given.holds

variable {probe : Probe Float} {device : String}

/-- A session is sound when it is opened. -/
theorem isSound_opened : (opened probe device).IsSound probe device :=
  ⟨rfl, rfl, rfl, fun _ hd => absurd hd List.not_mem_nil⟩

/-- An operation leaves a session sound. -/
theorem IsSound.perform [Machine] (h : s.IsSound probe device) (operation : Operation) :
    (s.perform operation).2.IsSound probe device := by
  by_cases hneeds : operation.NeedsAnswer
  · obtain ⟨make, hmake, -, hsuite, hdrivers⟩ := perform_of_needsAnswer h.remembers hneeds
    obtain ⟨rfl, rfl, hremembers, hsound⟩ := h
    obtain ⟨hprobe, hdevice⟩ := s.suite.consulted_eq
    refine ⟨hsuite ▸ hprobe, hsuite ▸ hdevice, hsuite ▸ hremembers.consulted, ?_⟩
    rw [hsuite, hdrivers]
    intro d hd
    rcases List.mem_append.mp hd with hkept | hbuilt
    · obtain ⟨given, hgiven, hregistry⟩ := hsound d hkept
      refine ⟨given, ?_, hregistry⟩
      rw [Suite.consulted, if_neg (by simp [hgiven]), hgiven]
    · cases hverdict : s.suite.verdict with
      | error fault =>
        rw [hverdict] at hbuilt
        cases hbuilt
      | ok available =>
        rw [hverdict] at hbuilt
        obtain ⟨given, hgiven, rfl⟩ := Suite.exists_of_verdict_eq_ok hverdict
        rw [hprobe] at hgiven
        exact ⟨given, hgiven, (hmake given.holds).isFor_of_mem hbuilt⟩
  · rw [perform_of_not_needsAnswer hneeds]
    exact h

/-- So do any number of operations. -/
theorem IsSound.performAll [Machine] (h : s.IsSound probe device) (operations : List Operation) :
    (performAll operations s).IsSound probe device := by
  induction operations generalizing s with
  | nil => exact h
  | cons operation rest ih => exact ih (h.perform operation)

/-- An operation calls the probe once more if it needs the answer and nothing has been returned. -/
theorem IsSound.calls_perform [Machine] (h : s.IsSound probe device) (operation : Operation) :
    (s.perform operation).2.suite.calls = s.suite.calls +
      if operation.NeedsAnswer ∧ probe.first? s.suite.calls = none then 1 else 0 := by
  by_cases hneeds : operation.NeedsAnswer
  · obtain ⟨-, -, -, hsuite, -⟩ := perform_of_needsAnswer h.remembers hneeds
    rw [hsuite, Suite.calls_consulted, h.probe_eq]
    simp only [hneeds, true_and]
  · rw [perform_of_not_needsAnswer hneeds]
    simp [hneeds]

/-- An operation that needs the answer expects what it makes of it. -/
theorem expects_of_yields {calls : Nat} {given : Json} {answer : Answer}
    (hneeds : operation.NeedsAnswer) (hgiven : probe.first? calls = some given)
    (h : operation.Yields device given.holds answer) :
    operation.Expects probe device calls answer := by
  cases operation with
  | available | registry | driver => exact ⟨given, hgiven, h⟩
  | probed | device | run => exact hneeds.elim

/-- An operation that needs the answer gets it, or the fault of a call that has returned nothing. -/
theorem IsSound.perform_cases [Machine] (h : s.IsSound probe device)
    (hneeds : operation.NeedsAnswer) :
    (∃ answer, (s.perform operation).1 = .ok answer ∧
      probe.first? (s.perform operation).2.suite.calls ≠ none ∧
      operation.Expects probe device (s.perform operation).2.suite.calls answer) ∨
    ∃ fault, (s.perform operation).1 = .error fault ∧ probe s.suite.calls = .error fault ∧
      probe.first? (s.perform operation).2.suite.calls = none ∧
      (s.perform operation).2 = { s with suite := { s.suite with calls := s.suite.calls + 1 } } := by
  obtain ⟨make, hmake, hresult, hsuite, hdrivers⟩ := perform_of_needsAnswer h.remembers hneeds
  obtain ⟨hprobe, -⟩ := s.suite.consulted_eq
  cases hverdict : s.suite.verdict with
  | ok available =>
    left
    obtain ⟨given, hgiven, rfl⟩ := Suite.exists_of_verdict_eq_ok hverdict
    rw [hprobe, h.probe_eq, ← hsuite] at hgiven
    rw [hverdict] at hresult
    refine ⟨make given.holds, hresult, by simp [hgiven], ?_⟩
    exact expects_of_yields hneeds hgiven (h.device_eq ▸ hmake given.holds)
  | error fault =>
    right
    obtain ⟨hcall, hnone, hconsulted⟩ := h.remembers.of_verdict_eq_error hverdict
    rw [h.probe_eq] at hcall hnone
    rw [hverdict] at hresult hdrivers
    refine ⟨fault, hresult, hcall, hsuite ▸ hnone, Session.ext (hsuite.trans hconsulted) ?_⟩
    exact hdrivers.trans (List.append_nil s.drivers)

end Session

/-- A probe is asked until it answers. After any operations on a suite, the next one calls the probe
once if it needs the answer and no call has returned one so far, and not at all otherwise. The suite
has been answered if some call has returned. Every operation that needs no answer, or that has one by
then, gets what is expected: an answer is that of the first call that has returned one. An operation
that needs an answer and still has none stops with the fault of its call, of which nothing else is
kept. All drivers that have been built have the registry that goes with the answer. -/
theorem probe_asked_until_answered [Machine] (probe : Probe Float) (device : String)
    (before : List Operation) (operation : Operation) :
    let s := Session.performAll before (.opened probe device)
    let result := (s.perform operation).1
    let after := (s.perform operation).2
    after.suite.calls = s.suite.calls +
      (if operation.NeedsAnswer ∧ probe.first? s.suite.calls = none then 1 else 0) ∧
    after.suite.probed = (probe.first? after.suite.calls).isSome ∧
    (¬ operation.NeedsAnswer → after = s) ∧
    ((∀ i, operation ≠ .run i) →
      (operation.NeedsAnswer → probe.first? after.suite.calls ≠ none) →
      ∃ answer, result = .ok answer ∧ operation.Expects probe device after.suite.calls answer) ∧
    (operation.NeedsAnswer → probe.first? after.suite.calls = none →
      ∃ fault, probe s.suite.calls = .error fault ∧ result = .error fault ∧
        after = { s with suite := { s.suite with calls := s.suite.calls + 1 } }) ∧
    ∀ d ∈ after.drivers, ∃ given, probe.first? after.suite.calls = some given ∧
      d.registry.IsFor device given.holds := by
  intro s result after
  have hs : s.IsSound probe device := Session.isSound_opened.performAll before
  have hafter : after.IsSound probe device := hs.perform operation
  have hprobed : after.suite.probed = (probe.first? after.suite.calls).isSome := by
    rw [hafter.remembers.probed_eq, hafter.probe_eq]
  refine ⟨hs.calls_perform operation, hprobed, Session.perform_of_not_needsAnswer,
    fun hrun hsome => ?_, fun hneeds hnone => ?_, hafter.drivers⟩
  · by_cases hneeds : operation.NeedsAnswer
    · rcases hs.perform_cases hneeds with ⟨answer, hanswer, -, hexpects⟩ | ⟨_, -, -, hnone, -⟩
      · exact ⟨answer, hanswer, hexpects⟩
      · exact absurd hnone (hsome hneeds)
    · have hkept : after = s := Session.perform_of_not_needsAnswer hneeds
      cases operation with
      | available | registry | driver => exact absurd trivial hneeds
      | probed => exact ⟨_, rfl, congrArg Answer.flag (hkept ▸ hprobed)⟩
      | device => exact ⟨_, rfl, congrArg Answer.name hs.device_eq⟩
      | run i => exact absurd rfl (hrun i)
  · rcases hs.perform_cases hneeds with ⟨_, -, hsome, -⟩ | ⟨fault, hresult, hcall, -, hkept⟩
    · exact absurd hnone hsome
    · exact ⟨fault, hcall, hresult, hkept⟩

/-- A probe that fails at first, then gives an answer, and would give the opposite from then on. -/
def Probe.hesitant (answer : Json) : Probe Float
  | 0 => .error (.raised "busy")
  | 1 => .ok answer
  | _ => .ok (.bool !answer.holds)

/-- A session with a hesitant probe, after one question that has failed and one that has been
answered. -/
def Session.hesitant [Machine] (answer : Json) : Session :=
  performAll [.available, .probed, .available] (.opened (.hesitant answer) "cuda:0")

open Workstation

/-- A hesitant probe is not called for a registry once it has answered. The registry has the loop
alone if the answer was an empty text, and the kernel as well if it was any other. -/
theorem probe_asked_until_answered_hesitant :
    ((Session.hesitant (.text "")).suite.calls = 2 ∧
      ((Session.hesitant (.text "")).perform .registry).2.suite.calls = 2 ∧
      ∃ r, ((Session.hesitant (.text "")).perform .registry).1 = .ok (.registry r) ∧
        r.names = ["host"] ∧ r.skipped = ["warp-cuda:0"]) ∧
    (Session.hesitant (.text "no")).suite.calls = 2 ∧
      ((Session.hesitant (.text "no")).perform .registry).2.suite.calls = 2 ∧
      ∃ r, ((Session.hesitant (.text "no")).perform .registry).1 = .ok (.registry r) ∧
        r.names = ["host", "warp-cuda:0"] ∧ r.skipped = [] := by
  have hregistry (answer : Json) (hbefore : (Session.hesitant answer).suite.calls = 2) :
      ((Session.hesitant answer).perform .registry).2.suite.calls = 2 ∧
        ∃ r, ((Session.hesitant answer).perform .registry).1 = .ok (.registry r) ∧
          r.IsFor "cuda:0" answer.holds := by
    obtain ⟨hcalls, -, -, hanswer, -⟩ := probe_asked_until_answered (.hesitant answer) "cuda:0"
      [.available, .probed, .available] .registry
    have hfirst : (Probe.hesitant answer).first? 2 = some answer := rfl
    have hcalled : ((Session.hesitant answer).perform .registry).2.suite.calls =
        (Session.hesitant answer).suite.calls := by
      refine hcalls.trans (congrArg _ (if_neg fun hasked => ?_))
      have hnone : (Probe.hesitant answer).first? (Session.hesitant answer).suite.calls = none :=
        hasked.2
      rw [hbefore, hfirst] at hnone
      cases hnone
    have htwo := hcalled.trans hbefore
    obtain ⟨built, hresult, given, hgiven, hyields⟩ := hanswer nofun fun _ hnone => by
      change (Probe.hesitant answer).first?
        ((Session.hesitant answer).perform .registry).2.suite.calls = none at hnone
      rw [htwo, hfirst] at hnone
      cases hnone
    obtain rfl : answer = given := by
      change (Probe.hesitant answer).first?
        ((Session.hesitant answer).perform .registry).2.suite.calls = some given at hgiven
      rw [htwo, hfirst] at hgiven
      exact Option.some.inj hgiven
    cases built with
    | registry r => exact ⟨htwo, r, hresult, hyields⟩
    | _ => exact hyields.elim
  obtain ⟨hno, r, hmade, hloop⟩ := hregistry (.text "") rfl
  obtain ⟨hyes, r', hmade', hboth⟩ := hregistry (.text "no") rfl
  exact ⟨⟨rfl, hno, r, hmade, hloop.names, hloop.skipped⟩,
    rfl, hyes, r', hmade', hboth.names, hboth.skipped⟩

end Leapfrog
