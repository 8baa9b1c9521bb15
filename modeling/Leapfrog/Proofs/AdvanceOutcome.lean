import Leapfrog.Proofs.Advance
import Leapfrog.Proofs.Doubles
import Leapfrog.Reference

/-!
# What an advance leaves behind

Everything that an advance may refuse is looked at before the first write: the count, and then the
groups of the atoms. An advance is therefore refused with the simulation as it was, or it moves the
atoms, puts the clock forward and leaves all the rest alone. The reference reads only what is left
alone.
-/

namespace Leapfrog

section

variable {α : Type}

/-- A simulation that is another one with its atoms moved and its clock put to some other step and
time. -/
structure Simulation.Moved (s after : Simulation α) : Prop where
  atoms : List.Forall₂ Atom.Moved s.atoms.toList after.atoms.toList
  frame : after = { s with atoms := after.atoms, step := after.step, time := after.time }

/-- Where nothing is done, everything is as it was. -/
theorem Simulation.Moved.refl (s : Simulation α) : s.Moved s :=
  ⟨List.forall₂_same.mpr fun _ _ => rfl, rfl⟩

/-- What does not depend on where an atom has been moved is the same for all atoms of a list. -/
theorem Atom.map_of_moved {β : Type} {view : Atom α → β} (hview : ∀ a b, a.Moved b → view b = view a)
    {atoms moved : List (Atom α)} (h : List.Forall₂ Atom.Moved atoms moved) :
    moved.map view = atoms.map view := by
  induction h with
  | nil => rfl
  | cons hmoved _ ih => rw [List.map_cons, List.map_cons, ih, hview _ _ hmoved]

/-- Atoms remember how they started. -/
theorem Reference.Start.ofAtom_of_moved (a b : Atom α) (h : a.Moved b) :
    Start.ofAtom b = Start.ofAtom a := by
  unfold Atom.Moved at h
  rw [h]
  rfl

/-- The reference of a simulation does not depend on where its atoms have been moved, nor on its
clock. -/
theorem Simulation.Moved.reference_eq [Add α] [Mul α] [Div α] [Scalar α] {s after : Simulation α}
    (h : s.Moved after) (steps : Number α) :
    Reference.ofSimulation after steps = Reference.ofSimulation s steps := by
  have htimestep : after.timestep = s.timestep := by
    rw [h.frame]
  unfold Reference.ofSimulation
  rw [Atom.map_of_moved Reference.Start.ofAtom_of_moved h.atoms, htimestep]

/-- There are as many atoms as before. -/
theorem Simulation.Moved.size_eq {s after : Simulation α} (h : s.Moved after) :
    after.atoms.size = s.atoms.size := by
  rw [← Array.length_toList, ← Array.length_toList, h.atoms.length_eq]

/-- What a step looks up does not depend on where atoms have been moved. -/
theorem Simulation.Moved.groupScaling_eq {s after : Simulation α} (h : s.Moved after) :
    after.groupScaling = s.groupScaling ∧ after.groups = s.groups := by
  rw [h.frame]
  exact ⟨rfl, rfl⟩

/-- The factors that have been found are found again after atoms have been moved. -/
theorem Simulation.Moved.hasScaling {s after : Simulation α} (h : s.Moved after) {scaling : Array α}
    (hscaling : s.HasScaling scaling) : after.HasScaling scaling where
  lookup := h.groupScaling_eq.1.trans hscaling.lookup
  covers := by
    rw [h.size_eq, h.groupScaling_eq.2]
    exact hscaling.covers

/-- Whether there is a group for every atom and all groups are in the table of coupling groups. A
negative group counts from the end of the table. -/
structure Simulation.HasGroups (s : Simulation α) : Prop where
  covers : s.atoms.size ≤ s.groups.size
  present : ∀ group ∈ s.groups, -(s.couplings.length : Int) ≤ group ∧ group < s.couplings.length

/-- A group has a factor exactly if it is in the table. -/
theorem Simulation.exists_scalingOf_iff {s : Simulation α} {group : Int} :
    (∃ factor, s.scalingOf group = .ok factor) ↔
      -(s.couplings.length : Int) ≤ group ∧ group < s.couplings.length := by
  rw [← wrapIndex?_isSome]
  unfold scalingOf wrapIndex
  cases hposition : wrapIndex? s.couplings.length group with
  | none => simp [bind, Except.bind]
  | some i =>
    have hi := lt_of_wrapIndex?_eq_some hposition
    simp [bind, Except.bind, hi, pure, Except.pure]

/-- A factor is found for every atom exactly if there is a group for every atom and all groups are in
the table. -/
theorem Simulation.exists_hasScaling_iff {s : Simulation α} :
    (∃ scaling, s.HasScaling scaling) ↔ s.HasGroups := by
  have hpresent : (∀ group ∈ s.groups, -(s.couplings.length : Int) ≤ group ∧
      group < s.couplings.length) ↔
      ∃ factors, List.Forall₂ (fun group factor => s.scalingOf group = .ok factor)
        s.groups.toList factors := by
    simp only [← exists_scalingOf_iff, exists_answers_iff, Array.mem_toList_iff]
  constructor
  · intro h
    obtain ⟨scaling, hlookup, hcovers⟩ := h
    exact ⟨hcovers, hpresent.mpr ⟨scaling.toList, groupScaling_eq_ok_iff.mp hlookup⟩⟩
  · intro h
    obtain ⟨factors, hfactors⟩ := hpresent.mp h.present
    exact ⟨factors.toArray, groupScaling_eq_ok_iff.mpr hfactors, h.covers⟩

/-- Stepping all atoms moves each of them. -/
theorem moved_iterate_stepAll [Add α] [Sub α] [Mul α] (d : Host.Drive α) (scaling : Array α)
    (n : Nat) (atoms : Array (Atom α)) :
    List.Forall₂ Atom.Moved atoms.toList ((stepAll d scaling)^[n] atoms).toList :=
  forall₂_iterate_stepAll fun i a _ => moved_iterate_stepAt d scaling i n a

/-- Steps move the atoms and put the clock on. -/
theorem Simulation.moved_steppedTo [Add α] [Sub α] [Mul α] (s : Simulation α) (scaling : Array α)
    (matrix? : Option (Mat3 α)) (n : Nat) (time : α) :
    s.Moved (s.steppedTo scaling matrix? n time) :=
  ⟨moved_iterate_stepAll _ scaling n s.atoms, rfl⟩

end

namespace Backend

variable {α : Type} [Add α] [Mul α] [Scalar α]

/-- A count matters only through the number of steps that it is accepted as. -/
theorem advance_of_steps {b : Backend α} {count : Number α} {n : Nat} (h : count.steps = .ok n)
    (s : Simulation α) : b.advance count s = b.advance (.whole n) s := by
  rw [advance_whole]
  unfold advance
  rw [h]
  cases n <;> rfl

/-- A count that is refused stops an advance before the backend. -/
theorem advance_of_refused {b : Backend α} {count : Number α} {fault : Fault α}
    (h : count.steps = .error fault) (s : Simulation α) : b.advance count s = ⟨s, some fault⟩ := by
  unfold advance
  rw [h]

end Backend

/-- The exact value of a number, if it has one. -/
def Number.value? : Number Float → Option ℚ
  | .whole n => some n
  | .scalar x => (Decimal.Binary64.ofFloat x).value?

/-- A number equals a whole number exactly if that is its exact value. -/
theorem Number.toInt?_eq_ok_iff {count : Number Float} {k : Int} :
    count.toInt? = .ok (some k) ↔ count.value? = some (k : ℚ) := by
  cases count with
  | whole n => simp [toInt?, value?]
  | scalar x =>
    change _ ↔ (Decimal.Binary64.ofFloat x).value? = _
    constructor
    · intro h
      rw [toInt?] at h
      split at h
      · cases h
      · split at h
        · cases h
        · exact Decimal.Binary64.toInt?_eq_some_iff.mp (Except.ok.inj h)
    · intro h
      have hfinite : x.isFinite = true := Decimal.Binary64.isFinite_of_value? h
      have hself : Scalar.isNaN x = false := by
        simp [Scalar.isNaN, Scalar.le, le_self_of_isFinite hfinite]
      have hscalar : Scalar.isFinite x = true := hfinite
      simp only [toInt?, hself, hscalar, Bool.false_eq_true, if_false, Bool.not_true]
      exact congrArg Except.ok (Decimal.Binary64.toInt?_eq_some_iff.mpr h)

/-- A number is accepted as a count of steps exactly if its exact value is a natural number. -/
theorem Number.steps_eq_ok_iff {count : Number Float} {n : Nat} :
    count.steps = .ok n ↔ count.value? = some (n : ℚ) := by
  have hwhole : count.toInt? = .ok (some (n : Int)) ↔ count.value? = some (n : ℚ) := by
    rw [toInt?_eq_ok_iff, Int.cast_natCast]
  rw [← hwhole, Number.steps, bind_eq_ok_iff]
  constructor
  · intro h
    obtain ⟨answer, hanswer, h⟩ := h
    cases answer with
    | none => cases h
    | some k =>
      dsimp only at h
      split at h
      · next hk =>
        obtain rfl := Except.ok.inj h
        rw [hanswer, Int.toNat_of_nonneg hk]
      · cases h
  · intro h
    exact ⟨some n, h, by simp [pure, Except.pure]⟩

/-- A number that is accepted as a count of steps converts to a double, unless it is a whole number
that is too large. -/
theorem Number.isFinite_of_value? {count : Number Float}
    (hcount : ∀ n : Int, count = .whole n → (Scalar.ofInt n : Float).isFinite = true) {n : Nat}
    (h : count.value? = some (n : ℚ)) : (Scalar.ofInt n : Float).isFinite = true := by
  cases count with
  | whole k =>
    have hk : (k : ℚ) = (n : Int) := Option.some.inj h
    rw [Rat.intCast_inj] at hk
    rw [← hk]
    exact hcount k rfl
  | scalar x =>
    have hn : Decimal.Binary64.toInt? x = some n := Decimal.Binary64.toInt?_eq_some_iff.mpr h
    exact (Decimal.Binary64.isFinite_ofInt n).mpr (Decimal.Binary64.natAbs_lt_of_toInt? hn)

/-- Whether there is a reason to refuse a count of steps: it is no natural number, or there are steps
to take and an atom is without a group or a group is not in the table. -/
def Simulation.Refuses (s : Simulation Float) (count : Number Float) : Prop :=
  (∀ n : Nat, count.value? ≠ some (n : ℚ)) ∨
    (∃ n : Nat, 0 < n ∧ count.value? = some (n : ℚ)) ∧ ¬ s.HasGroups

/-- A simulation that has been advanced by `n` steps: its atoms have moved, and its clock has gone on.
No step at all changes nothing. -/
structure Simulation.Advanced (n : Nat) (s after : Simulation Float) : Prop
    extends Simulation.Moved s after where
  step : after.step = s.step + n
  time : after.time = if n = 0 then s.time else s.time + Scalar.ofInt n * s.timestep
  idle : n = 0 → after = s

namespace Backend

variable {b : Backend Float} {s : Simulation Float} {m : Mat3 Float} {count : Number Float} {n : Nat}

/-- A count of zero changes nothing, and no group is looked at. -/
theorem advance_of_zero (hcount : count.value? = some 0) : b.advance count s = ⟨s, none⟩ := by
  rw [advance_of_steps (Number.steps_eq_ok_iff.mpr (by rw [hcount, Nat.cast_zero])), advance_whole,
    if_pos rfl]

variable [Machine]

/-- Where every atom has its group in the table, all steps are taken. -/
theorem IsGenuine.exists_advanced (hb : b.IsGenuine)
    (hmatrix : s.velocityScaling = .ofMat3 m)
    (hcount : count.value? = some (n : ℚ)) (hn : 0 < n)
    (hfinite : (Scalar.ofInt n : Float).isFinite = true) (hgroups : s.HasGroups) :
    ∃ after, b.advance count s = ⟨after, none⟩ ∧ s.Advanced n after := by
  obtain ⟨scaling, hscaling⟩ := Simulation.exists_hasScaling_iff.mpr hgroups
  rw [advance_of_steps (Number.steps_eq_ok_iff.mpr hcount),
    hb.advance_of_finite hmatrix hscaling hfinite]
  exact ⟨_, rfl, s.moved_steppedTo _ _ _ _, rfl, rfl, fun hzero => absurd hzero (by omega)⟩

/-- Where there is a reason to refuse a count, it is refused, and nothing is changed. -/
theorem IsGenuine.exists_fault (hb : b.IsGenuine)
    (hmatrix : s.velocityScaling = .ofMat3 m)
    (h : s.Refuses count) : ∃ fault, b.advance count s = ⟨s, some fault⟩ := by
  rcases h with hnatural | ⟨⟨n, hn, hcount⟩, hgroups⟩
  · cases hsteps : count.steps with
    | error fault => exact ⟨fault, advance_of_refused hsteps s⟩
    | ok n => exact absurd (Number.steps_eq_ok_iff.mp hsteps) (hnatural n)
  · rw [advance_of_steps (Number.steps_eq_ok_iff.mpr hcount)]
    have hnone : ∀ scaling, ¬ s.HasScaling scaling := fun scaling hscaling =>
      hgroups (Simulation.exists_hasScaling_iff.mp ⟨scaling, hscaling⟩)
    obtain ⟨fault, hfault⟩ := hb.exists_advance_eq hmatrix hnone n
    rw [hfault, if_neg hn.ne']
    exact ⟨fault, rfl⟩

/-- Where there is no reason to refuse a count, all of its steps are taken. -/
theorem IsGenuine.exists_advanced_of_not_refuses (hb : b.IsGenuine)
    (hmatrix : s.velocityScaling = .ofMat3 m)
    (hcount : ∀ n : Int, count = .whole n → (Scalar.ofInt n : Float).isFinite = true)
    (h : ¬ s.Refuses count) :
    ∃ n : Nat, count.value? = some (n : ℚ) ∧
      ∃ after, b.advance count s = ⟨after, none⟩ ∧ s.Advanced n after := by
  unfold Simulation.Refuses at h
  push Not at h
  obtain ⟨⟨n, hexact⟩, hgroups⟩ := h
  refine ⟨n, hexact, ?_⟩
  rcases Nat.eq_zero_or_pos n with rfl | hn
  · exact ⟨s, advance_of_zero (by rw [hexact, Nat.cast_zero]), .refl s, rfl, rfl, fun _ => rfl⟩
  · exact hb.exists_advanced hmatrix hexact hn (Number.isFinite_of_value? hcount hexact)
      (hgroups ⟨n, hn, hexact⟩)

end Backend

namespace Backend

variable {b : Backend Float} {s : Simulation Float} {count : Number Float}

/-- An advance by a genuine backend is all or nothing. It is refused exactly if there is a reason to
refuse the count, and then the simulation is as it was. Otherwise the atoms move and the clock goes on,
and nothing else changes. -/
theorem IsGenuine.all_or_nothing [Machine] (hb : b.IsGenuine)
    (hmatrix : s.velocityScaling.shape = [3, 3])
    (hcount : ∀ n : Int, count = .whole n → (Scalar.ofInt n : Float).isFinite = true) :
    ((b.advance count s).fault? ≠ none ↔ s.Refuses count) ∧
    ((b.advance count s).fault? ≠ none → (b.advance count s).simulation = s) ∧
    ((b.advance count s).fault? = none → ∃ n : Nat, count.value? = some (n : ℚ) ∧
      s.Advanced n (b.advance count s).simulation) := by
  obtain ⟨m, hm⟩ := Tensor.exists_eq_ofMat3 hmatrix
  by_cases hrefuses : s.Refuses count
  · obtain ⟨fault, hfault⟩ := hb.exists_fault hm hrefuses
    rw [hfault]
    exact ⟨⟨fun _ => hrefuses, fun _ => nofun⟩, fun _ => rfl, nofun⟩
  · obtain ⟨n, hexact, after, hafter, hadvanced⟩ :=
      hb.exists_advanced_of_not_refuses hm hcount hrefuses
    rw [hafter]
    exact ⟨⟨fun h => absurd rfl h, fun h => absurd h hrefuses⟩, fun h => absurd rfl h,
      fun _ => ⟨n, hexact, hadvanced⟩⟩

end Backend

/-- Two atoms in the one group that there is. -/
def Simulation.grouped : Simulation Float := Synthetic.simulation 2 0.5 ⟨1, 0, 0⟩ ⟨2, 0, -1⟩

/-- The first of the two atoms. -/
def Atom.grouped : Atom Float := Synthetic.atom ⟨1, 0, 0⟩ ⟨2, 0, -1⟩ 0

/-- The table of coupling groups has been emptied. -/
def Simulation.ungrouped : Simulation Float := { grouped with couplings := [] }

/-- Neither atom has a group. -/
theorem Simulation.not_hasGroups_ungrouped : ¬ ungrouped.HasGroups := by
  intro h
  have hfirst : ungrouped.groups[0]? = some 0 := rfl
  have hgroup := (h.present _ (Array.mem_of_getElem? hfirst)).2
  revert hgroup
  decide

/-- The double two is the count two. -/
theorem Number.value?_two : (Number.scalar 2).value? = some ((2 : Nat) : ℚ) := by
  have htwo : Decimal.Binary64.toInt? 2 = some 2 := by decide +kernel
  exact Decimal.Binary64.toInt?_eq_some_iff.mp htwo

end Leapfrog
