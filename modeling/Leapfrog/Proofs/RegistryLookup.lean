import Leapfrog.Proofs.ProbeHistory
import Mathlib.Data.List.Sort
import Mathlib.Data.String.Basic

/-!
# Lookup in a registry

A registry is made of some backends if there is one and no name occurs twice. The scan for names
that occur twice counts every name among all of them, so it finds nothing exactly if the names
differ, and otherwise it lists the repeated ones in ascending order. Since a registry carries the
fact that its names differ, the first backend with a name is the only one, and a name leads to the
backend at its own position.

The loop and the kernel have different names on any device, so the registry of a suite is stopped by
nothing but its probe.
-/

namespace Leapfrog

namespace Registry

section

variable {names : List String}

/-- The duplicates are the names that occur more than once. -/
theorem mem_duplicates {name : String} : name ∈ duplicates names ↔ 1 < names.count name := by
  rw [duplicates, List.mem_mergeSort, List.mem_eraseDups, List.mem_filter, decide_eq_true_eq,
    and_iff_right_iff_imp]
  intro htwice
  exact List.count_pos_iff.mp (Nat.zero_lt_of_lt htwice)

/-- The duplicates are listed in ascending order, each of them once. -/
theorem pairwise_duplicates (names : List String) : (duplicates names).Pairwise (· < ·) := by
  have hsorted : (duplicates names).Pairwise (· ≤ ·) := List.pairwise_mergeSort' (· ≤ ·) _
  have honce : (duplicates names).Nodup :=
    (List.mergeSort_perm _ _).nodup_iff.mpr (nodup_eraseDups _)
  exact (hsorted.and honce).imp fun ⟨hle, hne⟩ => lt_of_le_of_ne hle hne

/-- There are no duplicates exactly if the names differ. -/
theorem duplicates_eq_nil_iff : duplicates names = [] ↔ names.Nodup :=
  ⟨nodup_of_duplicates_eq_nil, duplicates_of_nodup⟩

end

variable {α : Type} {backends : List (Backend α)} {skipped : List String} {r : Registry α}

/-- A registry that is made of some backends holds them as they are. -/
theorem ofBackends_eq_ok_iff :
    ofBackends backends skipped = .ok r ↔ r.backends = backends ∧ r.skipped = skipped := by
  constructor
  · intro h
    unfold ofBackends at h
    split at h
    · cases h
    · split at h
      · obtain rfl := Except.ok.inj h
        exact ⟨rfl, rfl⟩
      · cases h
  · rintro ⟨rfl, rfl⟩
    exact ofBackends_of_nodup r.skipped r.nonempty r.unique

/-- Some backends make a registry exactly if there is one and their names differ. -/
theorem exists_ofBackends_iff :
    (∃ r, ofBackends backends skipped = .ok r) ↔
      backends ≠ [] ∧ (backends.map Backend.name).Nodup := by
  constructor
  · rintro ⟨r, hr⟩
    obtain ⟨rfl, -⟩ := ofBackends_eq_ok_iff.mp hr
    exact ⟨r.nonempty, r.unique⟩
  · rintro ⟨hsome, hnodup⟩
    exact ⟨_, ofBackends_of_nodup skipped hsome hnodup⟩

/-- Backends of which two share a name are refused with the duplicates. -/
theorem ofBackends_of_not_nodup (skipped : List String) (hsome : backends ≠ [])
    (h : ¬ (backends.map Backend.name).Nodup) :
    ofBackends backends skipped =
      .error (.duplicateBackends (duplicates (backends.map Backend.name))) := by
  rw [ofBackends, dif_neg hsome, dif_neg (mt duplicates_eq_nil_iff.mp h)]

/-- A name leads to the one backend that bears it. -/
theorem get_eq_ok_iff {name : String} {b : Backend α} :
    r.get name = .ok b ↔ b ∈ r.backends ∧ b.name = name := by
  unfold get
  cases hfind : r.backends.find? fun b => b.name = name with
  | none =>
    rw [List.find?_eq_none] at hfind
    simpa using hfind b
  | some found =>
    have hmem := List.mem_of_find?_eq_some hfind
    have hname : found.name = name := by simpa using List.find?_some hfind
    rw [Except.ok.injEq]
    constructor
    · rintro rfl
      exact ⟨hmem, hname⟩
    · rintro ⟨hb, hb_name⟩
      exact List.inj_on_of_nodup_map r.unique hmem hb (hname.trans hb_name.symm)

/-- A name that no backend bears leads to none. -/
theorem get_of_forall_ne {name : String} (h : ∀ b ∈ r.backends, b.name ≠ name) :
    r.get name = .error (.unknownBackend name r.names) := by
  have hfind : (r.backends.find? fun b => b.name = name) = none := by
    simpa [List.find?_eq_none] using h
  rw [get, hfind]

/-- The names that are registered are those of the backends. -/
theorem contains_iff {name : String} :
    r.contains name = true ↔ ∃ b ∈ r.backends, b.name = name := by
  rw [contains, List.contains_iff_mem, names, List.mem_map]

end Registry

/-- A registry is a faithful index of its backends. It is made of a list of backends exactly if
there is one and no two share a name. A list in which some do is refused with the names that occur
more than once, each once and in ascending order. The registry has the backends and their names in
the order given, the name at a position leads to the backend there, and a name is registered exactly
if it leads to a backend, and exactly if some backend bears it. The registry of a suite, on any
device, is stopped by nothing but the probe. -/
theorem registry_is_faithful_index [Machine] (backends : List (Backend Float))
    (skipped : List String) :
    let names := backends.map Backend.name
    ((∃ r, Registry.ofBackends backends skipped = .ok r) ↔ backends ≠ [] ∧ names.Nodup) ∧
    (backends = [] → Registry.ofBackends backends skipped = .error .noBackend) ∧
    (backends ≠ [] → ¬ names.Nodup → ∃ fault repeated,
      Registry.ofBackends backends skipped = .error fault ∧ fault.kind = .value ∧
        fault.message = "Duplicate backend names: " ++ ", ".intercalate repeated ∧
        (∀ name, name ∈ repeated ↔ 1 < names.count name) ∧ repeated.Pairwise (· < ·)) ∧
    (∀ r, Registry.ofBackends backends skipped = .ok r →
      r.backends = backends ∧ r.skipped = skipped ∧
      r.names = names ∧ r.names.length = backends.length ∧
      (∀ (i : Nat) b, r.backends[i]? = some b → r.names[i]? = some b.name ∧ r.get b.name = .ok b) ∧
      ∀ name, (r.contains name = true ↔ ∃ b, r.get name = .ok b) ∧
        (r.contains name = true ↔ ∃ b ∈ backends, b.name = name) ∧
        (r.contains name = false → r.get name = .error (.unknownBackend name names))) ∧
    ∀ suite : Suite Float,
      (∃ available r, suite.available.1 = .ok available ∧ suite.registry.1 = .ok r ∧
        r.IsFor suite.device available) ∨
      ∃ fault, suite.available.1 = .error fault ∧ suite.registry.1 = .error fault := by
  intro names
  refine ⟨Registry.exists_ofBackends_iff, ?_, fun hsome hrepeated => ?_, fun r hr => ?_,
    fun suite => ?_⟩
  · rintro rfl
    rfl
  · exact ⟨_, _, Registry.ofBackends_of_not_nodup skipped hsome hrepeated, rfl, rfl,
      fun _ => Registry.mem_duplicates, Registry.pairwise_duplicates names⟩
  · obtain ⟨rfl, rfl⟩ := Registry.ofBackends_eq_ok_iff.mp hr
    refine ⟨rfl, rfl, rfl, List.length_map _, fun i b hb => ?_,
      fun name => ⟨?_, Registry.contains_iff, ?_⟩⟩
    · have hname : r.names[i]? = some b.name := by rw [Registry.names, List.getElem?_map, hb]; rfl
      exact ⟨hname, Registry.get_eq_ok_iff.mpr ⟨List.mem_of_getElem? hb, rfl⟩⟩
    · rw [Registry.contains_iff]
      simp only [Registry.get_eq_ok_iff]
    · intro hunknown
      have hnone : ¬ ∃ b ∈ r.backends, b.name = name := by
        rw [← Registry.contains_iff, hunknown]
        exact Bool.false_ne_true
      exact Registry.get_of_forall_ne fun b hb hname => hnone ⟨b, hb, hname⟩
  · obtain ⟨make, hmake, hregistry⟩ := suite.registry_eq
    rw [hregistry]
    cases suite.available.1 with
    | error fault => exact .inr ⟨fault, rfl, rfl⟩
    | ok available => exact .inl ⟨available, _, rfl, rfl, hmake available⟩

open Workstation

/-- Two names out of three occur more than once, and these two are listed. The loop and the kernel
on the processor make a registry, in which both are found and another device is not. -/
theorem registry_is_faithful_index_repeated :
    (∃ fault repeated, Registry.ofBackends
        [.device "cpu", .host, .host, .device "cuda:0", .device "cpu", .host] [] = .error fault ∧
      fault.message = "Duplicate backend names: " ++ ", ".intercalate repeated ∧
      "host" ∈ repeated ∧ "warp-cpu" ∈ repeated ∧ "warp-cuda:0" ∉ repeated) ∧
    ∃ r : Registry Float, Registry.ofBackends [.host, .device "cpu"] ["warp-cuda:0"] = .ok r ∧
      r.names = ["host", "warp-cpu"] ∧ r.get "host" = .ok .host ∧
      r.get "warp-cpu" = .ok (.device "cpu") ∧ r.contains "warp-cuda:0" = false := by
  constructor
  · obtain ⟨-, -, hrepeated, -⟩ := registry_is_faithful_index
      [.device "cpu", .host, .host, .device "cuda:0", .device "cpu", .host] []
    obtain ⟨fault, repeated, hfault, -, hmessage, hmem, -⟩ := hrepeated (by simp) (by decide)
    exact ⟨fault, repeated, hfault, hmessage, (hmem _).mpr (by decide), (hmem _).mpr (by decide),
      mt (hmem _).mp (by decide)⟩
  · obtain ⟨hmakes, -, -, hindex, -⟩ := registry_is_faithful_index [.host, .device "cpu"]
      ["warp-cuda:0"]
    obtain ⟨r, hr⟩ := hmakes.mpr ⟨by simp, by decide⟩
    obtain ⟨hbackends, -, hnames, -, hget, hknown⟩ := hindex r hr
    obtain ⟨-, hcontains, -⟩ := hknown "warp-cuda:0"
    have hhost := hget 0 .host (by rw [hbackends]; rfl)
    have hkernel := hget 1 (.device "cpu") (by rw [hbackends]; rfl)
    refine ⟨r, hr, hnames, hhost.2, hkernel.2, ?_⟩
    rw [Bool.eq_false_iff, Ne, hcontains]
    simp [Backend.host, Backend.device]

end Leapfrog
