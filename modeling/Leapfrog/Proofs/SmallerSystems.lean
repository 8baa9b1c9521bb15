import Leapfrog.Proofs.AdvanceOutcome
import Leapfrog.Proofs.ArrayLimits
import Leapfrog.Proofs.RunCompletion

/-!
# Smaller systems

The atoms of a smaller system are the first ones of a larger system, and no atom notices how many
others there are. A run therefore finds the mismatches of a smaller system among those of a larger
one: they are the mismatches of its own atoms, in the same order and with the same values. Arrays
that are within their limits stay within them when they get shorter, so that the run of the smaller
system completes if that of the larger one does.
-/

namespace Leapfrog

/-- Steps move an atom and change nothing else about it. -/
theorem Atom.moved_iterate_next {α : Type} [Add α] [Sub α] [Mul α] (d : Host.Drive α) (factor : α)
    (n : Nat) (a : Atom α) : a.Moved ((Atom.next d factor)^[n] a) := by
  induction n generalizing a with
  | zero => rfl
  | succ n ih => exact (a.moved_next d factor).trans (ih _)

namespace Scenario

/-- A scenario with another number of atoms. -/
def ofSize {α : Type} [Scalar α] (s : Scenario α) (atoms : Nat) (h : 0 < atoms) : Scenario α :=
  { s with atoms := atoms, atoms_pos := h }

variable (s : Scenario Float)

/-- The atom at a position after all steps. How many atoms there are is not asked. -/
def atomAt (i : Nat) : Atom Float :=
  (Atom.next ⟨s.timestep, none⟩ (Scalar.ofInt 1))^[s.steps] (Synthetic.atom s.velocity s.force i)

/-- What the reference reads of the atom at a position. -/
def startAt (i : Nat) : Reference.Start Float :=
  .ofAtom (Synthetic.atom s.velocity s.force i)

/-- The components of the first atoms, by the square of the time after all steps. -/
def componentsBelow (squared : Float) (atoms : Nat) : List (Component Float) :=
  Component.ofVectors .position ((List.range atoms).map fun i => (s.atomAt i).position)
      ((List.range atoms).map fun i => (s.startAt i).positionAt s.time squared) ++
    Component.ofVectors .velocity ((List.range atoms).map fun i => (s.atomAt i).velocity)
      ((List.range atoms).map fun i => (s.startAt i).velocityAt s.time)

/-- The components of fewer atoms are those of the first ones. -/
theorem filter_componentsBelow (squared : Float) {m n : Nat} (h : m ≤ n) :
    (s.componentsBelow squared n).filter (fun c => decide (c.atom < m)) =
      s.componentsBelow squared m := by
  have hfilter (q : Quantity) (actual expected : Nat → Vec3 Float) :
      (Component.ofVectors q ((List.range n).map actual) ((List.range n).map expected)).filter
          (fun c => decide (c.atom < m)) =
        Component.ofVectors q ((List.range m).map actual) ((List.range m).map expected) := by
    obtain ⟨k, rfl⟩ := Nat.exists_eq_add_of_le h
    rw [Component.ofVectors_map_range, Component.ofVectors_map_range, List.range_add,
      List.flatMap_append, List.filter_append, List.filter_eq_self.mpr, List.filter_eq_nil_iff.mpr,
      List.append_nil]
    · intro c hc
      simp only [List.mem_flatMap, List.mem_map] at hc
      obtain ⟨_, ⟨i, -, rfl⟩, axis, -, rfl⟩ := hc
      simp
    · intro c hc
      simp only [List.mem_flatMap, List.mem_map, List.mem_range] at hc
      obtain ⟨i, hi, axis, -, rfl⟩ := hc
      simpa using hi
  rw [componentsBelow, List.filter_append, hfilter, hfilter, componentsBelow]

/-- The simulation before the first step. -/
def first : Simulation Float := Synthetic.simulation s.atoms s.timestep s.velocity s.force

/-- The simulation after the last step. -/
def last : Simulation Float :=
  s.first.steppedTo (Array.replicate s.atoms (Scalar.ofInt 1)) none s.steps
    (if s.steps = 0 then Scalar.ofInt 0 else Scalar.ofInt 0 + Scalar.ofInt s.steps * s.timestep)

/-- The atoms after the last step. -/
theorem atoms_last : s.last.atoms.toList = (List.range s.atoms).map s.atomAt := by
  apply List.ext_getElem?
  intro i
  have hget : s.last.atoms[i]? = _ := getElem?_iterate_stepAll _ _ s.steps s.first.atoms i
  rw [Array.getElem?_toList, hget, first, Synthetic.getElem?_atoms]
  by_cases hi : i < s.atoms
  · have hfactor : (Array.replicate s.atoms (Scalar.ofInt 1 : Float))[i]? = some (Scalar.ofInt 1) := by
      simp [hi]
    rw [stepAt_of_some hfactor]
    simp only [hi, if_true, Option.map_some, List.getElem?_map, List.getElem?_range hi]
    rfl
  · simp [hi]

/-- An atom after the last step started like the one before the first step. -/
theorem ofAtom_atomAt (i : Nat) : Reference.Start.ofAtom (s.atomAt i) = s.startAt i :=
  Reference.Start.ofAtom_of_moved _ _ (Atom.moved_iterate_next _ _ _ _)

variable {s}

/-- A genuine backend takes a scenario through all steps. -/
theorem advance_first [Machine] {b : Backend Float} (hb : b.IsGenuine)
    (hsteps : Scalar.isFinite (Scalar.ofInt s.steps : Float) = true) :
    b.advance (.whole s.steps) s.first = ⟨s.last, none⟩ := by
  have hscaling : s.first.HasScaling _ :=
    Synthetic.hasScaling_simulation s.atoms s.timestep s.velocity s.force
  rw [hb.advance_of_finite rfl hscaling hsteps]
  rfl

/-- What a run goes on with is the simulation after the last step. -/
theorem toExcept_advance [Machine] {b : Backend Float} (hb : b.IsGenuine)
    (hsteps : Scalar.isFinite (Scalar.ofInt s.steps : Float) = true) :
    (b.advance (.whole s.steps) s.first).toExcept = .ok s.last := by
  rw [advance_first hb hsteps]
  rfl

/-- The reference after the last step, and what is compared with it. -/
theorem exists_reference {squared : Float}
    (hsteps : Scalar.isFinite (Scalar.ofInt s.steps : Float) = true)
    (hsquared : Reference.square s.time = .ok squared) :
    ∃ reference, Reference.ofSimulation s.last (.whole s.steps) = .ok reference ∧
      s.last.components reference = s.componentsBelow squared s.atoms := by
  have htime : (Number.whole s.steps).times s.last.timestep = .ok s.time :=
    Number.times_whole hsteps s.timestep
  refine ⟨_, Reference.ofSimulation_eq_ok_iff.mpr
    ⟨Number.isNegative_whole s.steps, s.time, htime, squared, hsquared, rfl⟩, ?_⟩
  simp only [Simulation.components, Simulation.positions, Simulation.velocities, atoms_last,
    List.map_map, componentsBelow]
  simp only [Function.comp_def, ofAtom_atomAt]

/-- A run on a genuine backend completes exactly if the arrays are within their limits, the number of
steps converts to a finite double and the square of the time is not refused. It finds the components
that are too far apart. -/
theorem run_eq_ok_iff_of_genuine [Machine] {b : Backend Float} (hb : b.IsGenuine)
    {tolerance : Tolerance Float} {result : Result Float} :
    s.run b tolerance = .ok result ↔
      Synthetic.checkSize (α := Float) s.atoms = .ok () ∧
      Scalar.isFinite (Scalar.ofInt s.steps : Float) = true ∧
      ∃ squared, Reference.square s.time = .ok squared ∧
        result = s.resultOf b tolerance (s.componentsBelow squared s.atoms) := by
  constructor
  · intro h
    obtain ⟨components, hcompared, rfl⟩ := exists_components h
    obtain ⟨start, hstart, last, hlast, reference, hreference, rfl⟩ :=
      compared_eq_ok_iff.mp hcompared
    obtain ⟨_, hsize, -⟩ := bind_eq_ok_iff.mp hstart
    obtain ⟨-, time, htime, squared, hsquared, -⟩ := Reference.ofSimulation_eq_ok_iff.mp hreference
    have hsteps := (Number.eq_of_times htime).1
    obtain rfl := eq_of_simulation hstart
    obtain rfl := Except.ok.inj (hlast.symm.trans (toExcept_advance hb hsteps))
    obtain rfl := Except.ok.inj (htime.symm.trans (Number.times_whole hsteps s.timestep))
    obtain ⟨reference', hreference', hcomponents⟩ := exists_reference hsteps hsquared
    obtain rfl := Except.ok.inj (hreference.symm.trans hreference')
    exact ⟨hsize, hsteps, squared, hsquared, by rw [hcomponents]⟩
  · rintro ⟨hsize, hsteps, squared, hsquared, rfl⟩
    obtain ⟨reference, hreference, hcomponents⟩ := exists_reference hsteps hsquared
    have hstart : s.simulation = .ok s.first := by
      rw [simulation, Synthetic.fresh, hsize]
      rfl
    have hbound := Tolerance.bound_whole hsteps tolerance
    have hcheck := Simulation.check_eq_ok_iff.mpr ⟨reference, hreference, _, hbound, rfl⟩
    rw [run_eq_ok_iff]
    refine ⟨s.first, hstart, s.last, toExcept_advance hb hsteps, _, hcheck, ?_⟩
    rw [resultOf, ← hcomponents, Simulation.length_components hreference]
    rfl

end Scenario

/-- A smaller system has the mismatches of its own atoms. If a run of a scenario completes on a genuine
backend, so does the run of the same scenario with fewer atoms, and its mismatches are those of the
larger system whose atoms are among the first ones, in the same order. If the larger system passes,
so does every smaller one. -/
theorem run_smaller_system [Machine] {b : Backend Float} (hb : b.IsGenuine)
    (tolerance : Tolerance Float) (s : Scenario Float) {m : Nat} (hpos : 0 < m) (hle : m ≤ s.atoms)
    {result : Result Float} (h : s.run b tolerance = .ok result) :
    ∃ smaller, (s.ofSize m hpos).run b tolerance = .ok smaller ∧
      smaller.mismatches = result.mismatches.filter (fun k => decide (k.atom < (m : Int))) ∧
      (result.passed = true → smaller.passed = true) := by
  obtain ⟨hsize, hsteps, squared, hsquared, rfl⟩ := (Scenario.run_eq_ok_iff_of_genuine hb).mp h
  have hsmaller : Synthetic.checkSize (α := Float) m = .ok () := by
    rw [Synthetic.checkSize_eq_ok_iff] at hsize ⊢
    omega
  have hmismatches : ((s.ofSize m hpos).resultOf b tolerance
      (s.componentsBelow squared m)).mismatches =
        (s.resultOf b tolerance (s.componentsBelow squared s.atoms)).mismatches.filter
          fun k => decide (k.atom < (m : Int)) := by
    have hatom (bound : Float) : (fun k : Mismatch Float => decide (k.atom < (m : Int))) ∘
        Component.mismatch bound = fun c => decide (c.atom < m) := by
      funext c
      simp [Component.mismatch]
    simp only [Scenario.resultOf, List.filter_map, hatom]
    rw [List.filter_comm, s.filter_componentsBelow squared hle]
    rfl
  refine ⟨_, (Scenario.run_eq_ok_iff_of_genuine hb).mpr
    ⟨hsmaller, hsteps, squared, hsquared, rfl⟩, hmismatches, fun hpassed => ?_⟩
  unfold Result.passed at *
  change ((s.ofSize m hpos).resultOf b tolerance
    (s.componentsBelow squared m)).mismatches.isEmpty = true
  rw [List.isEmpty_iff] at hpassed ⊢
  rw [hmismatches, hpassed]
  rfl

/-- Two atoms of masses one and two that are pushed for two steps. -/
def Scenario.pair : Scenario Float :=
  { single 2 with atoms := 2, force := ⟨4, 0, -2⟩, atoms_pos := by decide }

open Workstation

/-- What the loop finds for the first atom of the pair alone is what it finds for it in company. -/
theorem run_smaller_system_pair :
    0 < 1 ∧ 1 ≤ Scenario.pair.atoms ∧ (Backend.host : Backend Float).IsGenuine ∧
      ∃ result smaller, Scenario.pair.run .host .tight = .ok result ∧
        (Scenario.pair.ofSize 1 Nat.one_pos).run .host .tight = .ok smaller ∧
        smaller.mismatches = result.mismatches.filter fun k => decide (k.atom < ((1 : Nat) : Int)) := by
  have hhost : (Backend.host : Backend Float).IsGenuine := .inl rfl
  have hle : 1 ≤ Scenario.pair.atoms := by decide
  obtain ⟨result, hresult⟩ : ∃ result, Scenario.pair.run .host .tight = .ok result :=
    exists_ok_of_toBool (by decide +kernel)
  obtain ⟨smaller, hsmaller, hmismatches, -⟩ :=
    run_smaller_system hhost .tight Scenario.pair Nat.one_pos hle hresult
  exact ⟨Nat.one_pos, hle, hhost, result, smaller, hresult, hsmaller, hmismatches⟩

end Leapfrog
