import Leapfrog.Proofs.RefusedNumbers
import Leapfrog.Proofs.StateAdvance

/-!
# All or nothing

An advance in memory looks at everything that it may refuse before it writes: the count, and then the
groups of the atoms. It is refused with everything in memory as it was, or it writes positions,
velocities and the clock and nothing else.

That takes a state that owns its motion. What the positions share with another array changes with
them, and velocities that must not be written stop the advance when the positions have been written
already. It also takes a group for every atom, or else a backend that notices where there is none: the
loop does, and the kernel reads on behind the end of a buffer.
-/

namespace Leapfrog

section

variable {α : Type} {s : Simulation α} {fault : Fault α}

/-- A group that has no factor is not in the table. -/
theorem Simulation.kind_of_scalingOf {group : Int} (h : s.scalingOf group = .error fault) :
    fault.kind = .index := by
  rcases bind_eq_error_iff.mp h with hwrap | ⟨i, hi, hentry⟩
  · unfold wrapIndex at hwrap
    split at hwrap
    · cases hwrap
    · obtain rfl := Except.error.inj hwrap
      rfl
  · split at hentry
    · cases hentry
    · obtain rfl := Except.error.inj hentry
      rfl

/-- Nor is the group that stops a lookup. -/
theorem Simulation.kind_of_groupScaling (h : s.groupScaling = .error fault) :
    fault.kind = .index := by
  rw [groupScaling, Array.mapM_eq_mapM_toList, map_eq_pure_bind] at h
  rcases bind_eq_error_iff.mp h with hlookup | ⟨_, -, hdone⟩
  · obtain ⟨group, -, hgroup⟩ := exists_of_mapM_eq_error hlookup
    exact kind_of_scalingOf hgroup
  · cases hdone

/-- A fault after two changes is one of the first or one of the second. -/
theorem Outcome.fault?_andThen {o : Outcome α} {next : Simulation α → Outcome α}
    (h : (o.andThen next).fault? = some fault) :
    o.fault? = some fault ∨ (next o.simulation).fault? = some fault := by
  obtain ⟨left, fault?⟩ := o
  cases fault? with
  | none => exact .inr h
  | some _ => exact .inl h

end

namespace Backend

variable {α : Type} [Add α] [Sub α] [Mul α] [Scalar α] {b : Backend α} {s : Simulation α} {m : Mat3 α}
  {fault : Fault α}

/-- Steps that are not taken are stopped by a group that is missing. -/
theorem IsGenuine.kind_of_integrate [Machine] (hb : b.IsGenuine)
    (hmatrix : s.velocityScaling = .ofMat3 m) (hcovers : b = .host ∨ s.atoms.size ≤ s.groups.size)
    {n : Nat} (hn : 0 < n) (h : (b.integrate s n).fault? = some fault) : fault.kind = .index := by
  have hhost : b.integrate s n = Host.integrate s n := by
    rcases hcovers with rfl | hcovers
    · rfl
    · exact hb.integrate_eq hmatrix hcovers n
  have hactive := Simulation.activeScaling?_of_matrix hmatrix
  rw [hhost] at h
  cases hlookup : s.groupScaling with
  | error missing =>
    have hstopped : Host.integrate s n = ⟨s, some missing⟩ := by
      rw [Host.integrate, hlookup]
      rfl
    rw [hstopped] at h
    obtain rfl := Option.some.inj h
    exact Simulation.kind_of_groupScaling hlookup
  | ok scaling =>
    rcases Nat.lt_or_ge s.groups.size s.atoms.size with hmisses | hcovers
    · rw [Host.integrate_of_lt hlookup hactive hmisses hn] at h
      obtain rfl := Option.some.inj h
      rfl
    · rw [Host.integrate_eq_stepped ⟨hlookup, hcovers⟩ hactive] at h
      cases h

omit [Sub α] in
/-- The clock stops only at a count that is too large for a scalar. -/
theorem fault_of_clock {n : Nat} (h : (clock n s).fault? = some fault) : fault = .countTooLarge := by
  unfold clock Number.times Number.toScalar at h
  dsimp only at h
  split at h
  · cases h
  · exact (Option.some.inj h).symm

/-- What stops an advance is defined, as long as there is a group for every atom or the loop looks for
one. -/
theorem IsGenuine.kind_of_advance [Machine] {b : Backend Float} (hb : b.IsGenuine)
    {s : Simulation Float} {m : Mat3 Float} (hmatrix : s.velocityScaling = .ofMat3 m)
    (hcovers : b = .host ∨ s.atoms.size ≤ s.groups.size) {count : Number Float}
    {fault : Fault Float} (h : (b.advance count s).fault? = some fault) :
    fault.kind ≠ .undefined := by
  cases hsteps : count.steps with
  | error refused =>
    rw [advance_of_refused hsteps] at h
    obtain rfl := Option.some.inj h
    rw [Number.kind_of_steps hsteps, Number.countKind]
    split <;> decide
  | ok n =>
    rw [advance_of_steps hsteps, advance_whole] at h
    split at h
    · cases h
    · next hn =>
      rcases Outcome.fault?_andThen h with hintegrate | hclock
      · rw [hb.kind_of_integrate hmatrix hcovers (Nat.pos_of_ne_zero hn) hintegrate]
        decide
      · rw [fault_of_clock hclock]
        decide

end Backend

namespace State

/-- An advance by a genuine backend is all or nothing for a state that owns its motion. It is refused
exactly if the count is no natural number, or there are steps to take and an atom is without a group or
a group is not in the table, and then everything in memory is as it was. Otherwise the atoms move and
the clock goes on, and nothing else in memory changes, so that the reference stays what it was. A count
of zero is never refused. With a group for every atom, or in the loop, all of this is defined. -/
theorem advance_all_or_nothing [Machine] {b : Backend Float} (hb : b.IsGenuine) {s : State Float}
    (hs : s.OwnsMotion) (hmatrix : s.scalingShape = [3, 3])
    (hcovers : b = .host ∨ s.size ≤ s.groups.size) {count : Number Float}
    (hcount : ∀ n : Int, count = .whole n → (Scalar.ofInt n : Float).isFinite = true) :
    ((s.advance b count).fault? ≠ none ↔ s.load.Refuses count) ∧
    ((s.advance b count).fault? ≠ none → (s.advance b count).state = s) ∧
    (∀ fault, (s.advance b count).fault? = some fault → fault.kind ≠ .undefined) ∧
    ((s.advance b count).fault? = none → ∃ n : Nat, count.value? = some (n : ℚ) ∧
      s.Kept (s.advance b count).state ∧ s.load.Advanced n (s.advance b count).state.load ∧
      ∀ steps, Reference.ofSimulation (s.advance b count).state.load steps =
        Reference.ofSimulation s.load steps) ∧
    (count.value? = some 0 → s.advance b count = ⟨s, none⟩) := by
  have hshape : s.load.velocityScaling.shape = [3, 3] := hmatrix
  obtain ⟨m, hm⟩ := Tensor.exists_eq_ofMat3 hshape
  obtain ⟨hrefused, hundone, hadvanced⟩ := hb.all_or_nothing hshape hcount
  have hfollows := hs.follows hb hm count
  have hsize : s.load.atoms.size = s.size := Array.size_ofFn
  refine ⟨?_, fun h => ?_, fun fault h => ?_, fun h => ?_, fun h => ?_⟩
  · rw [hfollows.fault]
    exact hrefused
  · rw [hfollows.fault] at h
    exact hfollows.undone (hundone h)
  · rw [hfollows.fault] at h
    exact hb.kind_of_advance hm (hcovers.imp_right fun hle => hsize.trans_le hle) h
  · rw [hfollows.fault] at h
    obtain ⟨n, hn, hafter⟩ := hadvanced h
    rw [← hfollows.load] at hafter
    exact ⟨n, hn, hfollows.kept, hafter, hafter.reference_eq⟩
  · exact advance_of_zero (Number.steps_eq_ok_iff.mpr (by rw [h, Nat.cast_zero]))

section

open Workstation

/-- Without a table of groups the loop refuses two steps, and with one the kernel takes them. -/
theorem advance_all_or_nothing_ungrouped :
    (Simulation.ungrouped.Refuses (.scalar 2) ∧
      ((own .ungrouped).advance .host (.scalar 2)).fault? ≠ none ∧
      ((own .ungrouped).advance .host (.scalar 2)).state = own .ungrouped) ∧
    (Scalar.ofInt 2 : Float).isFinite = true ∧
      Simulation.grouped.Advanced 2
        ((own .grouped).advance (.device Device.processor) (.whole 2)).state.load := by
  have hrefuses : Simulation.ungrouped.Refuses (.scalar 2) :=
    .inr ⟨⟨2, by decide, Number.value?_two⟩, Simulation.not_hasGroups_ungrouped⟩
  have hhost : (Backend.host : Backend Float).IsGenuine := .inl rfl
  have hscalar : ∀ n : Int, Number.scalar (2 : Float) = .whole n →
      (Scalar.ofInt n : Float).isFinite = true := nofun
  obtain ⟨hiff, hkept, -⟩ := advance_all_or_nothing hhost (ownsMotion_own .ungrouped) rfl (.inl rfl)
    hscalar
  rw [load_own] at hiff
  have hfault := hiff.mpr hrefuses
  have htwo : (Scalar.ofInt 2 : Float).isFinite = true := by decide +kernel
  have hdevice : (Backend.device Device.processor : Backend Float).IsGenuine := .inr rfl
  have hwhole : ∀ n : Int, Number.whole (α := Float) 2 = .whole n →
      (Scalar.ofInt n : Float).isFinite = true := by
    rintro n ⟨⟩
    exact htwo
  obtain ⟨-, -, -, htaken, -⟩ := advance_all_or_nothing hdevice (ownsMotion_own .grouped) rfl
    (.inr (Nat.le_refl 2)) hwhole
  obtain ⟨n, hn, -, hadvanced, -⟩ := htaken (by decide +kernel)
  obtain rfl : n = 2 := by
    have hcast : ((2 : Int) : ℚ) = (n : Int) := Option.some.inj hn
    have hint := Rat.intCast_inj.mp hcast
    omega
  rw [load_own] at hadvanced
  exact ⟨⟨hrefuses, hfault, hkept hfault⟩, htwo, hadvanced⟩

end

end State

/-- Two atoms and a single group, which is in the table. -/
def Simulation.undergrouped : Simulation Float := { grouped with groups := #[0] }

/-- The atom with one array for its positions and its start positions. -/
def Supplies.sharing : Supplies Float :=
  (lone.withArray (.column .positions) [1, 3] 0).withArray (.column .startPositions) [1, 3] 0

/-- Where there are fewer groups than atoms, an advance of the loop is refused although each group is in
the table. Where positions are start positions as well, an advance that succeeds changes these too.
Where velocities must not be written, an advance that is refused has changed the positions. -/
theorem advance_halfway :
    ((∀ group ∈ Simulation.undergrouped.groups, 0 ≤ group ∧
        group < Simulation.undergrouped.couplings.length) ∧
      ((State.own .undergrouped).advance .host (.whole 1)).fault? = some .unknownSlot) ∧
    (∃ s, State.make .borrowed .sharing = .ok s ∧ (s.advance .host (.whole 1)).fault? = none ∧
      (s.advance .host (.whole 1)).state.load.atoms.map Atom.startPosition ≠
        s.load.atoms.map Atom.startPosition) ∧
    ∃ s, State.make .borrowed .fixed = .ok s ∧
      (s.advance .host (.whole 1)).fault? = some .readOnly ∧
      (s.advance .host (.whole 1)).state.load.positions ≠ s.load.positions := by
  refine ⟨by decide +kernel, ?_, ?_⟩
  · exact exists_ok_of_any (by decide +kernel)
  · exact exists_ok_of_any (by decide +kernel)

end Leapfrog
