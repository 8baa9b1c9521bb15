import Leapfrog.Proofs.AdvanceOutcome
import Leapfrog.Proofs.Comparison

/-!
# What an atom's motion depends on

Two simulations of any sizes may differ in nearly everything. If one atom of the first and one of
the second have the same position, velocity, force, inverse masses along the axes and factor, and
both are stepped with the same timestep and the same matrix or none, then both go the same way. If
there is no matrix, that is true along every single axis.

What was looked up is the only thing that ties an atom to its simulation. Each step is then one of
`Atom.next`, and the steps of two atoms are compared without regard to where they stand.
-/

namespace Leapfrog

/-- Two atoms that a step cannot tell apart along an axis. -/
structure Atom.AlikeAlong {α : Type} (axis : Axis) (a a' : Atom α) : Prop where
  position : a.position.get axis = a'.position.get axis
  velocity : a.velocity.get axis = a'.velocity.get axis
  force : a.force.get axis = a'.force.get axis
  inverseMass : a.inverseMassPerAxis.get axis = a'.inverseMassPerAxis.get axis

section

variable {α : Type} [Add α] [Sub α] [Mul α]

/-- The new velocity along an axis reads the atom along this axis, and along all of them if there is
a matrix. -/
theorem Atom.nextVelocity_of_alikeAlong {d : Host.Drive α} (factor : α) {a a' : Atom α}
    {axes : Set Axis} (haxes : d.matrix? = none ∨ axes = Set.univ)
    (h : ∀ axis ∈ axes, a.AlikeAlong axis a') {axis : Axis} (haxis : axis ∈ axes) :
    (a.nextVelocity d factor).get axis = (a'.nextVelocity d factor).get axis := by
  have hfree : (a.velocity.scale factor + (a.force.mul a.inverseMassPerAxis).times d.timestep).get
      axis = (a'.velocity.scale factor +
        (a'.force.mul a'.inverseMassPerAxis).times d.timestep).get axis := by
    simp [(h axis haxis).velocity, (h axis haxis).force, (h axis haxis).inverseMass]
  unfold nextVelocity
  rcases haxes with hnone | rfl
  · rw [hnone]
    exact hfree
  · have hvelocity : a.velocity = a'.velocity :=
      Vec3.ext_get fun other => (h other (Set.mem_univ other)).velocity
    cases d.matrix? with
    | none => exact hfree
    | some matrix =>
      dsimp only
      rw [Vec3.get_sub, Vec3.get_sub, hfree, hvelocity]

/-- A step by the same factor keeps atoms alike. -/
theorem Atom.next_alikeAlong {d : Host.Drive α} (factor : α) {a a' : Atom α} {axes : Set Axis}
    (haxes : d.matrix? = none ∨ axes = Set.univ) (h : ∀ axis ∈ axes, a.AlikeAlong axis a') :
    ∀ axis ∈ axes, (a.next d factor).AlikeAlong axis (a'.next d factor) := by
  intro axis haxis
  have hvelocity := nextVelocity_of_alikeAlong factor haxes h haxis
  refine ⟨?_, hvelocity, (h axis haxis).force, (h axis haxis).inverseMass⟩
  simp only [next, Vec3.get_add, Vec3.get_times, hvelocity, (h axis haxis).position]

/-- Any number of steps by the same factor keeps atoms alike. -/
theorem Atom.iterate_next_alikeAlong {d : Host.Drive α} (factor : α) {axes : Set Axis}
    (haxes : d.matrix? = none ∨ axes = Set.univ) (n : Nat) {a a' : Atom α}
    (h : ∀ axis ∈ axes, a.AlikeAlong axis a') :
    ∀ axis ∈ axes, ((next d factor)^[n] a).AlikeAlong axis ((next d factor)^[n] a') := by
  induction n generalizing a a' with
  | zero => exact h
  | succ n ih =>
    rw [Function.iterate_succ_apply, Function.iterate_succ_apply]
    exact ih (next_alikeAlong factor haxes h)

end

/-- A list is cut into as many pieces as asked for, none longer than asked for. -/
theorem Tensor.length_pieces {α : Type} (n length : Nat) (entries : List α) :
    (pieces n length entries).length = n ∧ ∀ piece ∈ pieces n length entries,
      piece.length ≤ length := by
  induction n generalizing entries with
  | zero => simp [pieces]
  | succ n ih =>
    obtain ⟨hlength, hpieces⟩ := ih (entries.drop length)
    rw [pieces, List.forall_mem_cons, List.length_cons, hlength]
    exact ⟨rfl, by simp, hpieces⟩

/-- A device makes no matrix of more than nine entries. -/
theorem Device.length_of_matrixOf {α : Type} [Scalar α] {t : Tensor α} {m : Mat3 α}
    (h : matrixOf t = .ok m) : t.entries.length ≤ 9 := by
  unfold matrixOf at h
  split at h
  · next hentries => simp [hentries]
  · next hentries => simp [hentries]
  · cases h
  · next hentries => simp [hentries]
  · cases h

namespace Simulation

variable {α : Type}

/-- An array that the host can read a matrix from is a table of at least three rows and three
columns. -/
theorem shape_of_leadingMatrix {t : Tensor α} {m : Mat3 α} (h : leadingMatrix t = .ok m) :
    ∃ rows columns, t.shape = [rows, columns] ∧ 3 ≤ rows ∧ 3 ≤ columns := by
  unfold leadingMatrix at h
  split at h
  · cases h
  · cases h
  · next rows columns hshape =>
    refine ⟨rows, columns, hshape, ?_⟩
    split at h
    · next xx xy xz xs yx yy yz ys zx zy zz zs rest hrows =>
      have hpieces : t.rows = Tensor.pieces rows columns t.entries := by
        simp [Tensor.rows, hshape]
      obtain ⟨hlength, hbound⟩ := Tensor.length_pieces rows columns t.entries
      rw [← hpieces, hrows] at hlength hbound
      have hfirst := hbound _ List.mem_cons_self
      simp only [List.length_cons] at hlength hfirst
      omega
    · cases h
  · cases h

/-- The host and a device read the same matrix from an array that both can read. -/
theorem matrixOf_of_leadingMatrix [Scalar α] {t : Tensor α} {m m' : Mat3 α}
    (hhost : leadingMatrix t = .ok m) (hdevice : Device.matrixOf t = .ok m') : m = m' := by
  obtain ⟨rows, columns, hshape, hrows, hcolumns⟩ := shape_of_leadingMatrix hhost
  have hmost := Device.length_of_matrixOf hdevice
  rw [t.length_entries, hshape] at hmost
  simp only [List.foldr_cons, List.foldr_nil, mul_one] at hmost
  have hrow : rows * 3 ≤ rows * columns := Nat.mul_le_mul_left _ hcolumns
  have hcolumn : 3 * columns ≤ rows * columns := Nat.mul_le_mul_right _ hrows
  have hthree : rows = 3 ∧ columns = 3 := by omega
  obtain ⟨rfl, rfl⟩ := hthree
  obtain ⟨m'', rfl⟩ := Tensor.exists_eq_ofMat3 hshape
  rw [leadingMatrix_ofMat3] at hhost
  rw [Device.matrixOf_ofMat3] at hdevice
  rw [← Except.ok.inj hhost, Except.ok.inj hdevice]

/-- An array that the host or a device reads a matrix from. -/
def Reads [Scalar α] (t : Tensor α) (m : Mat3 α) : Prop :=
  leadingMatrix t = .ok m ∨ Device.matrixOf t = .ok m

/-- Only one matrix is read from an array. -/
theorem Reads.unique [Scalar α] {t : Tensor α} {m m' : Mat3 α} (h : Reads t m) (h' : Reads t m') :
    m = m' := by
  rcases h with hhost | hdevice <;> rcases h' with hhost' | hdevice'
  · exact Except.ok.inj (hhost.symm.trans hhost')
  · exact matrixOf_of_leadingMatrix hhost hdevice'
  · exact (matrixOf_of_leadingMatrix hhost' hdevice).symm
  · exact Except.ok.inj (hdevice.symm.trans hdevice')

/-- The matrix, if any, that a genuine backend applies: the one that it reads from the velocity
scaling if there is a Parrinello-Rahman barostat, and none otherwise. -/
def Applies [Scalar α] (s : Simulation α) : Option (Mat3 α) → Prop
  | none => s.barostat ≠ .parrinelloRahman
  | some m => s.barostat = .parrinelloRahman ∧ Reads s.velocityScaling m

/-- Two simulations whose velocities are scaled by the same matrix, or by none. -/
def SameScaling (s s' : Simulation α) : Prop :=
  s.barostat ≠ .parrinelloRahman ∧ s'.barostat ≠ .parrinelloRahman ∨
    s.barostat = .parrinelloRahman ∧ s'.barostat = .parrinelloRahman ∧
      s.velocityScaling = s'.velocityScaling

variable [Scalar α] {s s' : Simulation α} {matrix? matrix?' : Option (Mat3 α)}

/-- What the host reads is applied. -/
theorem applies_of_activeScaling? (h : s.activeScaling? = .ok matrix?) : s.Applies matrix? := by
  unfold activeScaling? at h
  split at h
  · next hbarostat =>
    cases hmatrix : leadingMatrix s.velocityScaling with
    | error fault =>
      rw [hmatrix] at h
      cases h
    | ok m =>
      rw [hmatrix] at h
      obtain rfl := Except.ok.inj h
      exact ⟨hbarostat, .inl hmatrix⟩
  · next hbarostat =>
    obtain rfl := Except.ok.inj h
    exact hbarostat

/-- What the device reads is applied. -/
theorem applies_activeMatrix? {m : Mat3 α} (h : Device.matrixOf s.velocityScaling = .ok m) :
    s.Applies (Device.activeMatrix? s.barostat m) := by
  unfold Device.activeMatrix?
  split
  · next hbarostat => exact ⟨hbarostat, .inr h⟩
  · next hbarostat => exact hbarostat

/-- Where the scaling is the same, the same matrix is applied, whoever reads it. -/
theorem Applies.eq (hscaling : s.SameScaling s') (h : s.Applies matrix?) (h' : s'.Applies matrix?') :
    matrix? = matrix?' := by
  rcases hscaling with ⟨hoff, hoff'⟩ | ⟨hon, hon', htensor⟩
  · cases matrix? with
    | some m => exact absurd h.1 hoff
    | none =>
      cases matrix?' with
      | some m' => exact absurd h'.1 hoff'
      | none => rfl
  · cases matrix? with
    | none => exact absurd hon h
    | some m =>
      cases matrix?' with
      | none => exact absurd hon' h'
      | some m' =>
        exact congrArg some (h.2.unique (htensor ▸ h'.2))

variable [Add α] [Sub α] [Mul α]

/-- What a number of steps makes of the atom at a position: without a step it stays what it is, and
otherwise each step is one by the factor at the position. -/
def Takes (s : Simulation α) (n i : Nat) (a c : Atom α) : Prop :=
  n = 0 ∧ c = a ∨
    0 < n ∧ ∃ factor matrix?, s.factorAt i = .ok factor ∧ s.Applies matrix? ∧
      c = (Atom.next ⟨s.timestep, matrix?⟩ factor)^[n] a

/-- As many steps keep atoms alike that have the same factor and the same matrix, or no matrix. -/
theorem Takes.alikeAlong {axes : Set Axis} {n i i' : Nat} {a a' c c' : Atom α}
    (h : s.Takes n i a c) (h' : s'.Takes n i' a' c') (hfactor : s.factorAt i = s'.factorAt i')
    (htimestep : s.timestep = s'.timestep) (hscaling : s.SameScaling s')
    (haxes : s.barostat ≠ .parrinelloRahman ∨ axes = Set.univ)
    (halike : ∀ axis ∈ axes, a.AlikeAlong axis a') :
    ∀ axis ∈ axes, c.AlikeAlong axis c' := by
  rcases h with ⟨hzero, rfl⟩ | ⟨hpos, factor, matrix?, hlookup, happlies, rfl⟩
  · rcases h' with ⟨-, rfl⟩ | ⟨hpos, -⟩
    · exact halike
    · omega
  · rcases h' with ⟨hzero, -⟩ | ⟨-, factor', matrix?', hlookup', happlies', rfl⟩
    · omega
    · rw [hlookup, hlookup', Except.ok.injEq] at hfactor
      subst hfactor
      obtain rfl := happlies.eq hscaling happlies'
      rw [htimestep]
      -- The axes are all of them unless the barostat is off, and then no matrix is applied.
      refine Atom.iterate_next_alikeAlong factor (haxes.imp_left fun hoff => ?_) n halike
      cases matrix? with
      | none => rfl
      | some m => exact absurd happlies.1 hoff

end Simulation

/-- Where there is no fault in an outcome, there was none in the result that it keeps. -/
theorem Outcome.exists_of_ofExcept {α : Type} {s : Simulation α}
    {result : Except (Fault α) (Simulation α)} (h : (ofExcept s result).fault? = none) :
    ∃ after, result = .ok after := by
  cases result with
  | error fault => cases h
  | ok after => exact ⟨after, rfl⟩

/-- Where there is no fault after a second change, there was none after the first. -/
theorem Outcome.fault?_of_andThen {α : Type} {o : Outcome α} {next : Simulation α → Outcome α}
    (h : (o.andThen next).fault? = none) : o.fault? = none := by
  obtain ⟨after, fault?⟩ := o
  cases fault? with
  | none => rfl
  | some fault => cases h

namespace Backend

variable {α : Type} [Add α] [Sub α] [Mul α] [Scalar α] {b : Backend α} {s : Simulation α}

/-- A genuine backend that has not failed has looked up all factors, and the matrix that it
applies. -/
theorem IsGenuine.exists_stepped [Machine] (hb : b.IsGenuine) {n : Nat} (hn : 0 < n)
    (h : (b.integrate s n).fault? = none) :
    ∃ scaling matrix?, s.HasScaling scaling ∧ s.Applies matrix? ∧
      b.integrate s n = ⟨s.stepped scaling matrix? n, none⟩ := by
  rcases hb with rfl | rfl
  · obtain ⟨_, hhost⟩ := Outcome.exists_of_ofExcept h
    obtain ⟨scaling, hlookup, hhost⟩ := bind_eq_ok_iff.mp hhost
    obtain ⟨matrix?, hmatrix, -⟩ := bind_eq_ok_iff.mp hhost
    have hcovers : s.atoms.size ≤ s.groups.size := by
      refine Nat.le_of_not_lt fun hmisses => ?_
      change (Host.integrate s n).fault? = none at h
      rw [Host.integrate_of_lt hlookup hmatrix hmisses hn] at h
      cases h
    exact ⟨scaling, matrix?, ⟨hlookup, hcovers⟩, Simulation.applies_of_activeScaling? hmatrix,
      Host.integrate_eq_stepped ⟨hlookup, hcovers⟩ hmatrix n⟩
  · obtain ⟨_, hdevice⟩ := Outcome.exists_of_ofExcept h
    obtain ⟨_, -, hdevice⟩ := bind_eq_ok_iff.mp hdevice
    obtain ⟨scaling, hlookup, hdevice⟩ := bind_eq_ok_iff.mp hdevice
    obtain ⟨m, hmatrix, -⟩ := bind_eq_ok_iff.mp hdevice
    have hcovers : s.atoms.size ≤ s.groups.size := by
      refine Nat.le_of_not_lt fun hmisses => ?_
      change (Device.integrate Device.processor s n).fault? = none at h
      rw [Device.integrate_of_lt hlookup hmatrix hmisses] at h
      cases h
    exact ⟨scaling, _, ⟨hlookup, hcovers⟩, Simulation.applies_activeMatrix? hmatrix,
      Device.integrate_eq_stepped ⟨hlookup, hcovers⟩ hmatrix n⟩

/-- A genuine backend that has not failed has taken every atom through all steps. -/
theorem IsGenuine.exists_takes [Machine] (hb : b.IsGenuine) {count : Number α}
    (h : (b.advance count s).fault? = none) :
    ∃ n, count.steps = .ok n ∧ ∀ (i : Nat) (a : Atom α), s.atoms[i]? = some a →
      ∃ c, (b.advance count s).simulation.atoms[i]? = some c ∧ s.Takes n i a c := by
  cases hsteps : count.steps with
  | error fault =>
    rw [advance_of_refused hsteps] at h
    cases h
  | ok n =>
    refine ⟨n, rfl, fun i a ha => ?_⟩
    rw [advance_of_steps hsteps, advance_whole] at h ⊢
    by_cases hn : n = 0
    · rw [if_pos hn]
      exact ⟨a, ha, .inl ⟨hn, rfl⟩⟩
    · rw [if_neg hn] at h ⊢
      obtain ⟨scaling, matrix?, hscaling, happlies, hstepped⟩ :=
        hb.exists_stepped (by omega) (Outcome.fault?_of_andThen h)
      obtain ⟨factor, hfactor, hat⟩ := hscaling.exists_factorAt ha
      rw [hstepped]
      change ∃ c, (clock n (s.stepped scaling matrix? n)).simulation.atoms[i]? = some c ∧ _
      rw [atoms_clock]
      refine ⟨(Atom.next ⟨s.timestep, matrix?⟩ factor)^[n] a, ?_,
        .inr ⟨by omega, factor, matrix?, hat, happlies, rfl⟩⟩
      rw [Simulation.stepped, getElem?_iterate_stepAll, ha, stepAt_of_some hfactor]
      rfl

end Backend

/-- The reference has the motion of each atom at its own position. -/
theorem Reference.getElem?_of_ofSimulation {α : Type} [Add α] [Mul α] [Div α] [Scalar α]
    {s : Simulation α} {steps : Number α} {r : Reference α}
    (h : Reference.ofSimulation s steps = .ok r) :
    ∃ time, steps.times s.timestep = .ok time ∧ ∃ squared, Reference.square time = .ok squared ∧
      ∀ (i : Nat) (a : Atom α), s.atoms[i]? = some a →
        r.positions[i]? = some ((Start.ofAtom a).positionAt time squared) ∧
        r.velocities[i]? = some ((Start.ofAtom a).velocityAt time) := by
  obtain ⟨-, time, htime, squared, hsquared, rfl⟩ := ofSimulation_eq_ok_iff.mp h
  refine ⟨time, htime, squared, hsquared, fun i a ha => ?_⟩
  simp [ha]

/-- The motion of an atom is its own. Whichever genuine backends take two simulations through as many
steps, two of their atoms that are alike end at the same position with the same velocity, as long as
both are stepped with the same timestep, factor and matrix, and without a matrix that is true of every
axis on its own. The reference of an atom depends on how it started and on the time only. -/
theorem motion_is_local [Machine] {α : Type} [Add α] [Sub α] [Mul α] [Div α] [Scalar α] :
    (∀ b b' : Backend α, b.IsGenuine → b'.IsGenuine →
      ∀ (s s' : Simulation α) (count count' : Number α), count.steps = count'.steps →
        (b.advance count s).fault? = none → (b'.advance count' s').fault? = none →
        s.timestep = s'.timestep → s.SameScaling s' →
      ∀ (i i' : Nat) (a a' : Atom α), s.atoms[i]? = some a → s'.atoms[i']? = some a' →
        s.factorAt i = s'.factorAt i' →
      ∃ c c', (b.advance count s).simulation.atoms[i]? = some c ∧
        (b'.advance count' s').simulation.atoms[i']? = some c' ∧
        ((∀ axis, a.AlikeAlong axis a') → c.position = c'.position ∧ c.velocity = c'.velocity) ∧
        (s.barostat ≠ .parrinelloRahman → ∀ axis, a.AlikeAlong axis a' →
          c.position.get axis = c'.position.get axis ∧
          c.velocity.get axis = c'.velocity.get axis)) ∧
    ∀ (s s' : Simulation α) (steps steps' : Number α) (r r' : Reference α),
      Reference.ofSimulation s steps = .ok r → Reference.ofSimulation s' steps' = .ok r' →
      steps.times s.timestep = steps'.times s'.timestep →
      ∀ (i i' : Nat) (a a' : Atom α), s.atoms[i]? = some a → s'.atoms[i']? = some a' →
        Reference.Start.ofAtom a = Reference.Start.ofAtom a' →
      ∃ x v, r.positions[i]? = some x ∧ r'.positions[i']? = some x ∧
        r.velocities[i]? = some v ∧ r'.velocities[i']? = some v := by
  constructor
  · intro b b' hb hb' s s' count count' hcount hok hok' htimestep hscaling i i' a a' ha ha' hfactor
    obtain ⟨n, hsteps, hall⟩ := hb.exists_takes hok
    obtain ⟨n', hsteps', hall'⟩ := hb'.exists_takes hok'
    rw [hcount, hsteps', Except.ok.injEq] at hsteps
    subst hsteps
    obtain ⟨c, hc, htakes⟩ := hall i a ha
    obtain ⟨c', hc', htakes'⟩ := hall' i' a' ha'
    refine ⟨c, c', hc, hc', fun halike => ?_, fun hoff axis halike => ?_⟩
    · have hafter := htakes.alikeAlong htakes' hfactor htimestep hscaling (.inr rfl)
        fun axis _ => halike axis
      exact ⟨Vec3.ext_get fun axis => (hafter axis (Set.mem_univ axis)).position,
        Vec3.ext_get fun axis => (hafter axis (Set.mem_univ axis)).velocity⟩
    · have hone : ∀ other ∈ ({axis} : Set Axis), a.AlikeAlong other a' := by
        rintro other rfl
        exact halike
      have hafter := htakes.alikeAlong htakes' hfactor htimestep hscaling (.inl hoff) hone
      exact ⟨(hafter axis rfl).position, (hafter axis rfl).velocity⟩
  · intro s s' steps steps' r r' hr hr' htimes i i' a a' ha ha' hstart
    obtain ⟨time, htime, squared, hsquared, hall⟩ := Reference.getElem?_of_ofSimulation hr
    obtain ⟨time', htime', squared', hsquared', hall'⟩ := Reference.getElem?_of_ofSimulation hr'
    rw [htime, htime', Except.ok.injEq] at htimes
    subst htimes
    rw [hsquared, Except.ok.injEq] at hsquared'
    subst hsquared'
    obtain ⟨hx, hv⟩ := hall i a ha
    obtain ⟨hx', hv'⟩ := hall' i' a' ha'
    rw [← hstart] at hx' hv'
    exact ⟨_, _, hx, hx', hv, hv'⟩

/-- An atom that differs from the grouped one in all that a step does not read. -/
def Atom.stranger : Atom Float :=
  { Atom.grouped with
    startPosition := ⟨9, 9, 9⟩
    startVelocity := ⟨8, 8, 8⟩
    inverseMass := 7 }

/-- The strange atom in strange company. -/
def Simulation.stranger : Simulation Float :=
  { Simulation.grouped with
    atoms := #[Synthetic.atom ⟨5, 5, 5⟩ ⟨1, 1, 1⟩ 3, .stranger, .stranger]
    velocityScaling := .row []
    thermostat := .berendsen
    barostat := .berendsen
    groups := #[0, -1, 0]
    couplings := [0.5, Scalar.ofInt 1]
    step := 7
    time := 3 }

/-- An atom that differs from the grouped one in all that the reference does not read. -/
def Atom.displaced : Atom Float :=
  { Atom.grouped with
    position := ⟨9, 9, 9⟩
    velocity := ⟨8, 8, 8⟩
    inverseMassPerAxis := ⟨7, 7, 7⟩ }

/-- The displaced atom with twice the timestep. -/
def Simulation.displaced : Simulation Float :=
  { Simulation.stranger with atoms := #[.stranger, .displaced], timestep := 1 }

open Workstation

/-- The strange atom goes the way of the grouped one, and the reference of the displaced atom after
one step of one is that of the grouped one after two steps of one half. -/
theorem motion_is_local_stranger :
    (∃ c c', (Backend.host.advance (.whole 2) .grouped).simulation.atoms[0]? = some c ∧
      (Backend.host.advance (.whole 2) .stranger).simulation.atoms[1]? = some c' ∧
      c.position = c'.position ∧ c.velocity = c'.velocity) ∧
    ∃ r r', Reference.ofSimulation .grouped (.whole 2) = .ok r ∧
      Reference.ofSimulation .displaced (.whole 1) = .ok r' ∧
      ∃ x v, r.positions[0]? = some x ∧ r'.positions[1]? = some x ∧
        r.velocities[0]? = some v ∧ r'.velocities[1]? = some v := by
  constructor
  · have hhost : (Backend.host : Backend Float).IsGenuine := .inl rfl
    have hscaling : Simulation.grouped.SameScaling .stranger := .inl ⟨by decide, by decide⟩
    have hok : (Backend.host.advance (.whole 2) Simulation.grouped).fault? = none := by
      decide +kernel
    have hok' : (Backend.host.advance (.whole 2) Simulation.stranger).fault? = none := by
      decide +kernel
    have hfactor : Simulation.grouped.factorAt 0 = .ok (Scalar.ofInt 1) := rfl
    have hfactor' : Simulation.stranger.factorAt 1 = .ok (Scalar.ofInt 1) := rfl
    have halike : ∀ axis, Atom.grouped.AlikeAlong axis .stranger := fun _ => ⟨rfl, rfl, rfl, rfl⟩
    obtain ⟨c, c', hc, hc', hmotion, -⟩ := motion_is_local.1 .host .host hhost hhost
      .grouped .stranger (.whole 2) (.whole 2) rfl hok hok' rfl hscaling 0 1 .grouped .stranger rfl
      rfl (hfactor.trans hfactor'.symm)
    exact ⟨c, c', hc, hc', hmotion halike⟩
  · have htimes : (Number.whole 2).times Simulation.grouped.timestep =
        (Number.whole 1).times Simulation.displaced.timestep := by
      decide +kernel
    obtain ⟨r, hr⟩ : ∃ r, Reference.ofSimulation .grouped (.whole 2) = .ok r :=
      exists_ok_of_toBool (by decide +kernel)
    obtain ⟨r', hr'⟩ : ∃ r', Reference.ofSimulation .displaced (.whole 1) = .ok r' :=
      exists_ok_of_toBool (by decide +kernel)
    exact ⟨r, r', hr, hr', motion_is_local.2 .grouped .displaced _ _ r r' hr hr' htimes 0 1
      .grouped .displaced rfl rfl rfl⟩

end Leapfrog
