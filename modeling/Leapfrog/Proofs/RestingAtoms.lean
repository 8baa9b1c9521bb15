import Leapfrog.Proofs.BuiltSimulations
import Leapfrog.Proofs.CalibrationCurve
import Leapfrog.Proofs.SyntheticPeriods
import Leapfrog.Proofs.Zeros

/-!
# Atoms at rest

An atom without velocity and without force stays where it is, and no rounding moves it. What a step
adds to its velocity and to its position is made of products with a zero in them, as long as
everything else that is read is finite. At most the sign of a zero changes.

The reference of a scenario at rest adds zeros as well, but associates them in its own way: they are
products with the time and with its square. Where the square is finite, both stay where they
started, and a run finds no mismatch for any tolerance.
-/

namespace Leapfrog

open Host (Drive)

/-- Everything that a step reads besides the atoms is finite. -/
structure Host.Drive.IsFinite (d : Drive Float) : Prop where
  timestep : d.timestep.isFinite = true
  matrix : ∀ m, d.matrix? = some m → ∀ axis other, ((m.row axis).get other).isFinite = true

/-- A row of finite entries times a vector of zeros is a zero. -/
theorem isZero_dot {row v : Vec3 Float} (hrow : ∀ axis, (row.get axis).isFinite = true)
    (hv : ∀ axis, IsZero (v.get axis)) : IsZero (row.dot v) :=
  ((IsZero.finite_mul (hrow .x) (hv .x)).add (IsZero.finite_mul (hrow .y) (hv .y))).add
    (IsZero.finite_mul (hrow .z) (hv .z))

namespace Atom

/-- An atom without velocity and without force. -/
structure IsResting (a : Atom Float) : Prop where
  velocity : ∀ axis, IsZero (a.velocity.get axis)
  force : ∀ axis, IsZero (a.force.get axis)
  inverseMass : ∀ axis, (a.inverseMassPerAxis.get axis).isFinite = true

/-- The position and the velocity of an atom are the same numbers as those of another one. -/
structure IsUnmoved (a c : Atom Float) : Prop where
  position : ∀ axis, IsSameNumber (a.position.get axis) (c.position.get axis)
  velocity : ∀ axis, IsSameNumber (a.velocity.get axis) (c.velocity.get axis)

theorem IsUnmoved.refl (a : Atom Float) : a.IsUnmoved a := ⟨fun _ => .refl _, fun _ => .refl _⟩

theorem IsUnmoved.trans {a b c : Atom Float} (h : a.IsUnmoved b) (h' : b.IsUnmoved c) :
    a.IsUnmoved c :=
  ⟨fun axis => (h.position axis).trans (h'.position axis),
    fun axis => (h.velocity axis).trans (h'.velocity axis)⟩

variable {a : Atom Float} {d : Drive Float} {factor : Float}

/-- The next velocity of an atom at rest is a zero. -/
theorem IsResting.isZero_nextVelocity (h : a.IsResting) (hd : d.IsFinite)
    (hfactor : factor.isFinite = true) (axis : Axis) :
    IsZero ((a.nextVelocity d factor).get axis) := by
  have hfree : IsZero ((a.velocity.scale factor +
      (a.force.mul a.inverseMassPerAxis).times d.timestep).get axis) := by
    have hold := IsZero.finite_mul hfactor (h.velocity axis)
    have hpush := ((h.force axis).mul_finite (h.inverseMass axis)).mul_finite hd.timestep
    simpa using hold.add hpush
  unfold nextVelocity
  cases hmatrix : d.matrix? with
  | none => exact hfree
  | some m =>
    have hcoupled := IsZero.finite_mul hd.timestep
      (isZero_dot (hd.matrix m hmatrix axis) h.velocity)
    dsimp only
    rw [Vec3.get_sub, Vec3.get_scale, Mat3.get_mulVec]
    exact hfree.sub hcoupled

/-- An atom at rest is at rest after a step. -/
theorem IsResting.next (h : a.IsResting) (hd : d.IsFinite) (hfactor : factor.isFinite = true) :
    (a.next d factor).IsResting :=
  ⟨h.isZero_nextVelocity hd hfactor, h.force, h.inverseMass⟩

/-- A step does not move an atom at rest. -/
theorem IsResting.isUnmoved_next (h : a.IsResting) (hd : d.IsFinite)
    (hfactor : factor.isFinite = true) : a.IsUnmoved (a.next d factor) := by
  refine ⟨fun axis => ?_, fun axis => ?_⟩
  · have hmove := (h.isZero_nextVelocity hd hfactor axis).mul_finite hd.timestep
    simpa [Atom.next] using hmove.isSameNumber_add (x := a.position.get axis)
  · exact .of_isZero (h.velocity axis) (h.isZero_nextVelocity hd hfactor axis)

/-- No number of steps moves an atom at rest. -/
theorem IsResting.isUnmoved_iterate (h : a.IsResting) (hd : d.IsFinite)
    (hfactor : factor.isFinite = true) (n : Nat) : a.IsUnmoved ((Atom.next d factor)^[n] a) := by
  induction n generalizing a with
  | zero => exact .refl a
  | succ n ih => exact (h.isUnmoved_next hd hfactor).trans (ih (h.next hd hfactor))

end Atom

namespace Simulation

variable {s : Simulation Float}

/-- A simulation whose atoms rest and in which everything else that a step reads is finite. -/
structure IsResting (s : Simulation Float) : Prop where
  atoms : ∀ a ∈ s.atoms, a.IsResting
  timestep : s.timestep.isFinite = true
  couplings : ∀ factor ∈ s.couplings, factor.isFinite = true
  shape : s.velocityScaling.shape = [3, 3]
  entries : ∀ entry ∈ s.velocityScaling.entries, entry.isFinite = true

/-- The factor of a group is one of the table. -/
theorem mem_couplings_of_scalingOf {group : Int} {factor : Float}
    (h : s.scalingOf group = .ok factor) : factor ∈ s.couplings := by
  obtain ⟨k, hk, -⟩ := exists_entry_of_scalingOf h
  exact List.mem_of_getElem? hk

/-- What a step of a simulation at rest reads besides the atoms is finite. -/
theorem IsResting.isFinite_drive (hs : s.IsResting) {m : Mat3 Float}
    (hm : s.velocityScaling = .ofMat3 m) :
    (Drive.mk s.timestep (Device.activeMatrix? s.barostat m)).IsFinite := by
  refine ⟨hs.timestep, fun m' hm' axis other => ?_⟩
  have hsame : m' = m := by
    unfold Device.activeMatrix? at hm'
    split at hm'
    · exact (Option.some.inj hm').symm
    · cases hm'
  subst hsame
  have hentries := hs.entries
  rw [hm] at hentries
  exact hentries _ (by cases axis <;> cases other <;> simp [Tensor.ofMat3, Mat3.rows, Mat3.row,
    Vec3.get, Vec3.toList])

end Simulation

namespace Backend

variable {b : Backend Float} {s : Simulation Float}

/-- An advance moves no atom of a simulation at rest, whether it succeeds or not. -/
theorem IsGenuine.forall₂_isUnmoved [Machine] (hb : b.IsGenuine) (hs : s.IsResting)
    (count : Number Float) :
    List.Forall₂ Atom.IsUnmoved s.atoms.toList (b.advance count s).simulation.atoms.toList := by
  have hsame : List.Forall₂ Atom.IsUnmoved s.atoms.toList s.atoms.toList :=
    List.forall₂_same.mpr fun a _ => .refl a
  obtain ⟨m, hm⟩ := Tensor.exists_eq_ofMat3 hs.shape
  cases hsteps : count.steps with
  | error fault =>
    rw [advance_of_refused hsteps]
    exact hsame
  | ok n =>
    rw [advance_of_steps hsteps]
    by_cases hfound : ∃ scaling, s.HasScaling scaling
    · obtain ⟨scaling, hscaling⟩ := hfound
      rw [hb.atoms_advance hm hscaling]
      refine forall₂_iterate_stepAll fun i a ha => ?_
      obtain ⟨group, factor, -, hfactor, hgroup⟩ := hscaling.exists_factor ha
      rw [stepAt_of_some hfactor]
      exact (hs.atoms a (Array.mem_of_getElem? ha)).isUnmoved_iterate (hs.isFinite_drive hm)
        (hs.couplings factor (Simulation.mem_couplings_of_scalingOf hgroup)) n
    · obtain ⟨fault, hfault⟩ := hb.exists_advance_eq hm (not_exists.mp hfound) n
      rw [hfault]
      exact hsame

/-- Where all groups are in the table and the count converts to a double, an advance succeeds. -/
theorem IsGenuine.fault?_of_isResting [Machine] (hb : b.IsGenuine) (hs : s.IsResting)
    (hgroups : s.HasGroups) {count : Number Float} {n : ℕ} (hcount : count.value? = some (n : ℚ))
    (hfinite : (Scalar.ofInt n : Float).isFinite = true) : (b.advance count s).fault? = none := by
  obtain ⟨m, hm⟩ := Tensor.exists_eq_ofMat3 hs.shape
  rcases Nat.eq_zero_or_pos n with rfl | hn
  · rw [advance_of_zero (by rw [hcount, Nat.cast_zero])]
  · obtain ⟨after, hafter, -⟩ := hb.exists_advanced hm hcount hn hfinite hgroups
    rw [hafter]

end Backend

namespace Reference

/-- Each component of a position is computed from the components along its axis. -/
theorem Start.get_positionAt (s : Start Float) (time squared : Float) (axis : Axis) :
    (s.positionAt time squared).get axis = Reference.position (s.position.get axis)
      (s.velocity.get axis) (s.force.get axis) s.inverseMass time squared := by
  cases axis <;> rfl

/-- Each component of a velocity is computed from the components along its axis. -/
theorem Start.get_velocityAt (s : Start Float) (time : Float) (axis : Axis) :
    (s.velocityAt time).get axis = Reference.velocity (s.velocity.get axis) (s.force.get axis)
      s.inverseMass time := by
  cases axis <;> rfl

variable {velocity force inverseMass time squared : Float}

/-- A position stays what it is without velocity and without force. -/
theorem isSameNumber_position (start : Float) (hvelocity : IsZero velocity)
    (hforce : IsZero force) (hmass : inverseMass.isFinite = true) (htime : time.isFinite = true)
    (hsquared : squared.isFinite = true) :
    IsSameNumber start (position start velocity force inverseMass time squared) := by
  have hhalf : (Scalar.ofInt 1 / Scalar.ofInt 2 : Float).isFinite = true := by decide +kernel
  have hdrift := hvelocity.mul_finite htime
  have hpush := ((IsZero.finite_mul hhalf hforce).mul_finite hsquared).mul_finite hmass
  exact hdrift.isSameNumber_add.trans hpush.isSameNumber_add

/-- A velocity stays what it is without force. -/
theorem isSameNumber_velocity (start : Float) (hforce : IsZero force)
    (hmass : inverseMass.isFinite = true) (htime : time.isFinite = true) :
    IsSameNumber start (Reference.velocity start force inverseMass time) :=
  ((hforce.mul_finite htime).mul_finite hmass).isSameNumber_add

end Reference

namespace Synthetic

/-- The inverse mass of an atom is finite. -/
theorem isFinite_inverseMass (i : ℕ) : (inverseMass i : Float).isFinite = true :=
  (isBetween_inverseMass i).isFinite

/-- The coordinates of an atom are finite. -/
theorem isFinite_position (i : ℕ) (axis : Axis) :
    ((position i : Vec3 Float).get axis).isFinite = true := by
  obtain ⟨hx, hy, hz⟩ := isBetween_position i
  cases axis with
  | x => exact hx.isFinite
  | y => exact hy.isFinite
  | z => exact congrArg Float.isFinite hz

/-- An atom is at rest if it starts without velocity and force. -/
theorem isResting_atom {velocity force : Vec3 Float} (hvelocity : ∀ axis, IsZero (velocity.get axis))
    (hforce : ∀ axis, IsZero (force.get axis)) (i : ℕ) : (atom velocity force i).IsResting :=
  ⟨hvelocity, hforce, fun axis => by cases axis <;> exact isFinite_inverseMass i⟩

end Synthetic

namespace Scenario

/-- A scenario without velocity and without force. -/
structure IsResting (p : Scenario Float) : Prop where
  velocity : ∀ axis, IsZero (p.velocity.get axis)
  force : ∀ axis, IsZero (p.force.get axis)

variable {p : Scenario Float}

/-- No step moves an atom of a scenario at rest. -/
theorem IsResting.isUnmoved_atomAt (hp : p.IsResting) (i : ℕ) :
    (Synthetic.atom p.velocity p.force i).IsUnmoved (p.atomAt i) := by
  have htimestep := p.timestep_positive
  rw [Scalar.isPositive, Bool.and_eq_true] at htimestep
  have hatom := Synthetic.isResting_atom hp.velocity hp.force i
  have hdrive : (Drive.mk p.timestep none).IsFinite := ⟨htimestep.1, nofun⟩
  have hfactor : (Scalar.ofInt 1 : Float).isFinite = true := by decide +kernel
  exact hatom.isUnmoved_iterate hdrive hfactor p.steps

/-- What is compared in a scenario at rest are the same numbers, where the square of the time is
finite. -/
theorem IsResting.isSameNumber_of_mem (hp : p.IsResting) {squared : Float}
    (htime : p.time.isFinite = true) (hsquared : squared.isFinite = true) {c : Component Float}
    (hc : c ∈ p.componentsBelow squared p.atoms) :
    c.actual.isFinite = true ∧ IsSameNumber c.actual c.expected := by
  have hunmoved := hp.isUnmoved_atomAt c.atom
  have hmass := Synthetic.isFinite_inverseMass c.atom
  rw [componentsBelow, List.mem_append, Component.mem_ofVectors, Component.mem_ofVectors] at hc
  rcases hc with ⟨-, x, y, hx, hy, hactual, hexpected⟩ | ⟨-, x, y, hx, hy, hactual, hexpected⟩
  all_goals
    obtain rfl := eq_of_getElem?_map_range hx
    obtain rfl := eq_of_getElem?_map_range hy
    rw [hactual, hexpected]
  · have hactual := hunmoved.position c.axis
    have hexpected := Reference.isSameNumber_position ((Synthetic.position c.atom).get c.axis)
      (hp.velocity c.axis) (hp.force c.axis) hmass htime hsquared
    rw [Reference.Start.get_positionAt]
    exact ⟨hactual.isFinite (Synthetic.isFinite_position c.atom c.axis), hactual.symm.trans hexpected⟩
  · have hactual := hunmoved.velocity c.axis
    have hexpected := Reference.isSameNumber_velocity (p.velocity.get c.axis) (hp.force c.axis)
      hmass htime
    rw [Reference.Start.get_velocityAt]
    exact ⟨hactual.isFinite (hp.velocity c.axis).isFinite, hactual.symm.trans hexpected⟩

/-- A scenario at rest has no mismatches, where the square of the time is finite. -/
theorem IsResting.filter_misses_eq_nil (hp : p.IsResting) {squared : Float}
    (htime : p.time.isFinite = true) (hsquared : squared.isFinite = true) {bound : Float}
    (hbound : Scalar.le (Scalar.ofInt 0) bound = true) :
    (p.componentsBelow squared p.atoms).filter (Component.misses bound) = [] := by
  rw [List.filter_eq_nil_iff]
  intro c hc
  obtain ⟨hfinite, hsame⟩ := hp.isSameNumber_of_mem htime hsquared hc
  rw [Component.misses, hsame.isWithin hfinite hbound]
  decide

/-- A scenario at rest passes after its last step, where its time has a finite square. -/
theorem IsResting.check_last (hp : p.IsResting)
    (hsteps : Scalar.isFinite (Scalar.ofInt p.steps : Float) = true)
    (hsquare : (Scalar.square p.time).isFinite = true) (tolerance : Tolerance Float) :
    p.last.check (.whole p.steps) tolerance = .ok [] := by
  have hproduct : (p.time * p.time).isFinite = true :=
    (Decimal.Binary64.isFinite_square p.time).symm.trans hsquare
  have htime : p.time.isFinite = true := (isFinite_of_mul hproduct).1
  have hsquared : Reference.square p.time = .ok (Scalar.square p.time) := by
    change (if p.time.isFinite && !(p.time * p.time).isFinite then _ else _) = _
    rw [htime, hproduct]
    rfl
  obtain ⟨reference, hreference, hcomponents⟩ := exists_reference hsteps hsquared
  refine Simulation.check_eq_ok_iff.mpr
    ⟨reference, hreference, _, Tolerance.bound_whole hsteps tolerance, ?_⟩
  rw [hcomponents, hp.filter_misses_eq_nil htime hsquare (tolerance.zero_le_bound hsteps)]
  rfl

end Scenario

/-- Rest is exact. Whatever a genuine backend is asked for, and whether or not a barostat couples the
axes, it leaves every position and every velocity of a simulation at rest the number that it was,
and it succeeds where all groups are in the table and the count converts to a double. A scenario at
rest whose time has a finite square therefore passes for every tolerance: a run finds no mismatch,
provided that there is memory for its atoms. -/
theorem rest_is_exact [Machine] {b : Backend Float} (hb : b.IsGenuine) :
    (∀ s : Simulation Float, s.IsResting → ∀ count : Number Float,
      List.Forall₂ Atom.IsUnmoved s.atoms.toList (b.advance count s).simulation.atoms.toList ∧
      (s.HasGroups → ∀ n : ℕ, count.value? = some (n : ℚ) →
        (Scalar.ofInt n : Float).isFinite = true → (b.advance count s).fault? = none)) ∧
    ∀ p : Scenario Float, p.IsResting → ∀ time, p.totalTime = .ok time →
      (Scalar.square time).isFinite = true → ∀ tolerance : Tolerance Float,
        (∃ last, b.advance (.whole p.steps)
            (Synthetic.simulation p.atoms p.timestep p.velocity p.force) = ⟨last, none⟩ ∧
          last.check (.whole p.steps) tolerance = .ok []) ∧
        p.run b tolerance =
          (Synthetic.checkSize p.atoms).map fun _ => ⟨b.name, p, 2 * 3 * p.atoms, []⟩ := by
  refine ⟨fun s hs count => ⟨hb.forall₂_isUnmoved hs count, fun hgroups n hcount hfinite =>
    hb.fault?_of_isResting hs hgroups hcount hfinite⟩, fun p hp time htime hsquare tolerance => ?_⟩
  obtain ⟨hsteps, htime⟩ := Number.eq_of_times htime
  obtain rfl : time = p.time := htime
  have hcheck := hp.check_last hsteps hsquare tolerance
  have hadvance : b.advance (.whole p.steps) p.first = ⟨p.last, none⟩ :=
    Scenario.advance_first hb hsteps
  have hsize : p.last.atoms.size = p.atoms := by
    rw [← Array.length_toList, Scenario.atoms_last, List.length_map, List.length_range]
  refine ⟨⟨p.last, hadvance, hcheck⟩, ?_⟩
  rw [Scenario.run, Scenario.simulation, Synthetic.fresh]
  cases Synthetic.checkSize (α := Float) p.atoms with
  | error fault => rfl
  | ok _ =>
    change ((b.advance (.whole p.steps) p.first).toExcept >>= _) = _
    rw [hadvance]
    change (p.last.check (.whole p.steps) tolerance >>= _) = _
    rw [hcheck, ← hsize]
    rfl

/-- A statement about every axis is decided axis by axis. -/
instance {q : Axis → Prop} [DecidablePred q] : Decidable (∀ axis, q axis) :=
  decidable_of_iff (q .x ∧ q .y ∧ q .z)
    ⟨fun ⟨hx, hy, hz⟩ axis => by cases axis <;> assumption, fun h => ⟨h .x, h .y, h .z⟩⟩

/-- A vector of zeros of either sign. -/
def Vec3.nothing : Vec3 Float := ⟨0, -0.0, 0⟩

/-- Two atoms at rest in a simulation that couples the axes. -/
def Simulation.idle : Simulation Float :=
  { Synthetic.simulation 2 0.5 .nothing .nothing with
    barostat := .parrinelloRahman
    couplings := [0.5] }

/-- Two atoms at rest for three steps. -/
def Scenario.idle : Scenario Float :=
  { single 3 with atoms := 2, velocity := .nothing, force := .nothing, atoms_pos := Nat.two_pos }

open Workstation

/-- The kernel leaves both atoms where they are, and three steps of the loop pass for a tolerance of
one eighth. -/
theorem rest_is_exact_idle :
    (Simulation.idle.IsResting ∧ Simulation.idle.HasGroups ∧
      (Number.scalar 2).value? = some ((2 : ℕ) : ℚ) ∧ (Scalar.ofInt 2 : Float).isFinite = true ∧
      ((Backend.device Device.processor).advance (.scalar 2) .idle).fault? = none ∧
      List.Forall₂ Atom.IsUnmoved Simulation.idle.atoms.toList
        ((Backend.device Device.processor).advance (.scalar 2) .idle).simulation.atoms.toList) ∧
    Scenario.idle.IsResting ∧ Scenario.idle.totalTime = .ok Scenario.idle.time ∧
      (Scalar.square Scenario.idle.time).isFinite = true ∧
      Scenario.idle.run .host .tight = .ok ⟨"host", .idle, 2 * 3 * 2, []⟩ := by
  have hnothing : ∀ axis, IsZero (Vec3.nothing.get axis) := by decide +kernel
  have hatoms : ∀ a ∈ (Synthetic.simulation 2 0.5 .nothing .nothing : Simulation Float).atoms,
      a.IsResting :=
    Synthetic.forall_atoms (Synthetic.isResting_atom hnothing hnothing)
  have hidle : Simulation.idle.IsResting :=
    { atoms := hatoms
      timestep := by decide +kernel
      couplings := by decide +kernel
      shape := rfl
      entries := by decide +kernel }
  have hgroups : Simulation.idle.HasGroups := by
    refine ⟨Nat.le_refl 2, fun group hgroup => ?_⟩
    have hzero : group = 0 := Array.eq_of_mem_replicate hgroup
    rw [hzero]
    decide
  have hfinite : (Scalar.ofInt 2 : Float).isFinite = true := by decide +kernel
  have hdevice : (Backend.device Device.processor : Backend Float).IsGenuine := .inr rfl
  have hhost : (Backend.host : Backend Float).IsGenuine := .inl rfl
  have hresting : Scenario.idle.IsResting := ⟨hnothing, hnothing⟩
  have htime : Scenario.idle.totalTime = .ok Scenario.idle.time := by decide +kernel
  have hsquare : (Scalar.square Scenario.idle.time).isFinite = true :=
    (Decimal.Binary64.isFinite_square _).trans (by decide +kernel)
  have hsize : Synthetic.checkSize (α := Float) 2 = .ok () := by decide
  obtain ⟨hunmoved, hfault⟩ := (rest_is_exact hdevice).1 .idle hidle (.scalar 2)
  have hrun := ((rest_is_exact hhost).2 .idle hresting _ htime hsquare .tight).2
  rw [show Scenario.idle.atoms = 2 from rfl, hsize] at hrun
  exact ⟨⟨hidle, hgroups, Number.value?_two, hfinite,
    hfault hgroups 2 Number.value?_two hfinite, hunmoved⟩, hresting, htime, hsquare, hrun⟩

end Leapfrog
