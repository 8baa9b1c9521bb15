import Leapfrog.Proofs.AdvanceOutcome
import Leapfrog.Proofs.DiscreteTrajectory
import Leapfrog.Proofs.ReferenceFlow

/-!
# Mass sensitivity

Two atoms that start at rest under the same force move in proportion to their inverse masses. A step
multiplies the velocities of both by the same matrix and adds accelerations that are in this
proportion, so velocities that are in it stay in it, whatever matrix couples their components; and
positions add up velocities. The reference has the force in one term of each formula, with the
inverse mass as a factor, and everything else it has is zero.
-/

namespace Leapfrog

open scoped Matrix

/-- All components of a vector whose components are the same. -/
theorem Vec3.get_replicate {α : Type} (a : α) (axis : Axis) : (replicate a).get axis = a := by
  cases axis <;> rfl

namespace Atom

section

variable {K : Type} [CommRing K]

/-- Two atoms at rest under the same force, each with an inverse mass that is the same along all
axes. -/
structure AlikeAtRest (mi mj : K) (a c : Atom K) : Prop where
  rest : a.velocity = .replicate 0 ∧ c.velocity = .replicate 0
  force : a.force = c.force
  masses : a.inverseMassPerAxis = .replicate mi ∧ c.inverseMassPerAxis = .replicate mj

/-- Two atoms that have come from where two others are, in proportion to two inverse masses: by what
they have moved, and in their velocities. -/
structure InProportion (mi mj : K) (a c a' c' : Atom K) : Prop where
  displacement : mj • (a'.position.get - a.position.get) = mi • (c'.position.get - c.position.get)
  velocity : mj • a'.velocity.get = mi • c'.velocity.get

variable {mi mj : K} {a c a' c' : Atom K}

/-- Atoms at rest are in any proportion. -/
theorem AlikeAtRest.inProportion (h : AlikeAtRest mi mj a c) : InProportion mi mj a c a c where
  displacement := by rw [sub_self, sub_self, smul_zero, smul_zero]
  velocity := by
    have hzero : (Vec3.replicate (0 : K)).get = 0 := funext (Vec3.get_replicate 0)
    rw [h.rest.1, h.rest.2, hzero, smul_zero, smul_zero]

/-- Under the same force, accelerations are in the proportion of the inverse masses. -/
theorem AlikeAtRest.acceleration (h : AlikeAtRest mi mj a c) :
    mj • a.acceleration = mi • c.acceleration := by
  funext axis
  simp only [Atom.acceleration, h.force, h.masses.1, h.masses.2, Pi.smul_apply, Vec3.get_mul,
    Vec3.get_replicate, smul_eq_mul]
  ring

/-- A step keeps atoms in proportion if their accelerations are in it. -/
theorem InProportion.next (h : InProportion mi mj a c a' c')
    (hacceleration : mj • a'.acceleration = mi • c'.acceleration) (barostat : Barostat) (m : Mat3 K)
    (timestep factor : K) :
    InProportion mi mj a c (a'.next ⟨timestep, Device.activeMatrix? barostat m⟩ factor)
      (c'.next ⟨timestep, Device.activeMatrix? barostat m⟩ factor) := by
  have hvelocity : mj • (a'.next ⟨timestep, Device.activeMatrix? barostat m⟩ factor).velocity.get =
      mi • (c'.next ⟨timestep, Device.activeMatrix? barostat m⟩ factor).velocity.get := by
    rw [velocity_next, velocity_next, smul_add, smul_add, ← Matrix.mulVec_smul,
      ← Matrix.mulVec_smul, h.velocity, smul_comm mj, smul_comm mi, hacceleration]
  refine ⟨?_, hvelocity⟩
  rw [position_next, position_next, add_sub_right_comm, add_sub_right_comm, smul_add, smul_add,
    h.displacement, smul_comm mj, smul_comm mi, hvelocity]

/-- Any number of steps keeps atoms in proportion that have started alike at rest. -/
theorem AlikeAtRest.after (h : AlikeAtRest mi mj a c) (barostat : Barostat) (m : Mat3 K)
    (timestep factor : K) (n : ℕ) :
    InProportion mi mj a c (a.after ⟨timestep, Device.activeMatrix? barostat m⟩ factor n)
      (c.after ⟨timestep, Device.activeMatrix? barostat m⟩ factor n) := by
  induction n with
  | zero => exact h.inProportion
  | succ n ih =>
    rw [Atom.after_succ, Atom.after_succ]
    refine ih.next ?_ barostat m timestep factor
    rw [(a.moved_after _ _ _).acceleration_eq, (c.moved_after _ _ _).acceleration_eq]
    exact h.acceleration

end

end Atom

/-- An advance keeps two atoms in proportion that are alike, at rest and in groups with the same
factor, whether or not it is refused. -/
theorem Backend.IsGenuine.inProportion_advance [Machine] {K : Type} [CommRing K] [Scalar K]
    {b : Backend K} (hb : b.IsGenuine) {s : Simulation K} {m : Mat3 K}
    (hmatrix : s.velocityScaling = .ofMat3 m) {i j : ℕ} {a c : Atom K} (ha : s.atoms[i]? = some a)
    (hc : s.atoms[j]? = some c) {mi mj : K} (halike : a.AlikeAtRest mi mj c)
    (hgroups : s.factorAt i = s.factorAt j) (n : ℕ) :
    ∃ a' c', (b.advance (.whole n) s).simulation.atoms[i]? = some a' ∧
      (b.advance (.whole n) s).simulation.atoms[j]? = some c' ∧
      Atom.InProportion mi mj a c a' c' := by
  by_cases hfound : ∃ scaling, s.HasScaling scaling
  · obtain ⟨scaling, hscaling⟩ := hfound
    obtain ⟨factor, hfactor, hat⟩ := hscaling.exists_factorAt ha
    obtain ⟨factor', hfactor', hat'⟩ := hscaling.exists_factorAt hc
    obtain rfl : factor = factor' := Except.ok.inj (hat.symm.trans (hgroups.trans hat'))
    exact ⟨_, _, hb.getElem?_advance hmatrix hscaling ha hfactor n,
      hb.getElem?_advance hmatrix hscaling hc hfactor' n,
      halike.after s.barostat m s.timestep factor n⟩
  · obtain ⟨fault, hfault⟩ := hb.exists_advance_eq hmatrix (not_exists.mp hfound) n
    rw [hfault]
    exact ⟨a, c, ha, hc, halike.inProportion⟩

namespace Reference

variable {K : Type} [CommRing K]

/-- A velocity from rest. -/
theorem velocity_of_rest (f m time : K) : velocity 0 f m time = f * time * m := by
  simp [velocity]

/-- What is computed for a row at rest, and not from its positions, is computed from its forces. -/
theorem Row.HasWidth.along_of_rest {width : ℕ} {row : Row K} (h : row.HasWidth width)
    (hrest : row.1.2 = .replicate width 0) (component : K → K → K → K → K) (push : K → K → K)
    (hcomponent : ∀ x f m, component x 0 f m = push f m) :
    along component row = row.2.1.map fun f => push f row.2.2 := by
  have hforces : ((row.1.1.zip row.1.2).zip row.2.1).map Prod.snd = row.2.1 :=
    List.map_snd_zip (by simp [h.positions, h.velocities, h.forces])
  conv_rhs => rw [← hforces, List.map_map]
  refine List.map_congr_left fun e he => ?_
  have hv := (List.of_mem_zip (List.of_mem_zip he).1).2
  rw [hrest] at hv
  rw [List.eq_of_mem_replicate hv, hcomponent]
  rfl

variable [Div K] [Scalar K]

/-- A displacement from rest. -/
theorem position_of_rest (x f m time squared : K) :
    position x 0 f m time squared - x = Scalar.ofInt 1 / Scalar.ofInt 2 * f * squared * m := by
  simp [position]

/-- What the positions of a row have moved by after a time. -/
def Row.displacement (time : K) (row : Row K) : List K :=
  List.zipWith (· - ·) (row.after time).1.1 row.1.1

/-- The displacement of a row that starts at rest. -/
theorem Row.HasWidth.displacement_of_rest {width : ℕ} {row : Row K} (h : row.HasWidth width)
    (hrest : row.1.2 = .replicate width 0) (time : K) :
    row.displacement time = row.2.1.map fun f =>
      Scalar.ofInt 1 / Scalar.ofInt 2 * f * (time * time) * row.2.2 := by
  have halong : row.displacement time =
      along (fun x v f m => position x v f m time (time * time) - x) row := by
    rw [displacement]
    conv_lhs => rw [← h.along_positions]
    simp only [Row.after, along, List.zipWith_map, List.zipWith_self]
  rw [halong]
  exact h.along_of_rest hrest (fun x v f m => position x v f m time (time * time) - x)
    (fun f m => Scalar.ofInt 1 / Scalar.ofInt 2 * f * (time * time) * m)
    fun x f m => position_of_rest x f m _ _

/-- The velocities of a row that starts at rest. -/
theorem Row.HasWidth.velocities_of_rest {width : ℕ} {row : Row K} (h : row.HasWidth width)
    (hrest : row.1.2 = .replicate width 0) (time : K) :
    (row.after time).1.2 = row.2.1.map fun f => f * time * row.2.2 := by
  rw [Row.after]
  exact h.along_of_rest hrest (fun _ v f m => velocity v f m time) (fun f m => f * time * m)
    fun _ f m => velocity_of_rest f m time

/-- The displacement and the velocity of an atom that starts at rest. -/
theorem Start.after_of_rest {start : Start K} (hrest : start.velocity = .replicate 0) (time : K)
    (axis : Axis) :
    (start.after time).position.get axis - start.position.get axis =
        Scalar.ofInt 1 / Scalar.ofInt 2 * start.force.get axis * (time * time) * start.inverseMass ∧
      (start.after time).velocity.get axis = start.force.get axis * time * start.inverseMass := by
  have hzero : start.velocity.get axis = 0 := by
    rw [hrest, Vec3.get_replicate]
  have hposition : (start.after time).position.get axis =
      Reference.position (start.position.get axis) (start.velocity.get axis) (start.force.get axis)
        start.inverseMass time (time * time) := by
    cases axis <;> rfl
  have hvelocity : (start.after time).velocity.get axis =
      Reference.velocity (start.velocity.get axis) (start.force.get axis) start.inverseMass
        time := by
    cases axis <;> rfl
  rw [hposition, hvelocity, hzero, position_of_rest, velocity_of_rest]
  exact ⟨rfl, rfl⟩

/-- Rows that start at rest under the same forces are displaced in proportion to their inverse
masses, and so are their velocities. -/
theorem Row.HasWidth.inProportion {width : ℕ} {p q push : List K} {mi mj : K}
    (hp : Row.HasWidth width ((p, .replicate width 0), (push, mi)))
    (hq : Row.HasWidth width ((q, .replicate width 0), (push, mj))) (time : K) :
    (displacement time ((p, .replicate width 0), (push, mi))).map (mj * ·) =
        (displacement time ((q, .replicate width 0), (push, mj))).map (mi * ·) ∧
      (Row.after time ((p, .replicate width 0), (push, mi))).1.2.map (mj * ·) =
        (Row.after time ((q, .replicate width 0), (push, mj))).1.2.map (mi * ·) := by
  rw [hp.displacement_of_rest rfl, hq.displacement_of_rest rfl, hp.velocities_of_rest rfl,
    hq.velocities_of_rest rfl]
  simp only [List.map_map]
  constructor <;>
    · refine List.map_congr_left fun f _ => ?_
      simp only [Function.comp_apply]
      ring

/-- Starts at rest under the same force move in proportion to their inverse masses. -/
theorem Start.inProportion {p q : Start K} (hp : p.velocity = .replicate 0)
    (hq : q.velocity = .replicate 0) (hforce : p.force = q.force) (time : K) (axis : Axis) :
    q.inverseMass * ((p.after time).position.get axis - p.position.get axis) =
        p.inverseMass * ((q.after time).position.get axis - q.position.get axis) ∧
      q.inverseMass * (p.after time).velocity.get axis =
        p.inverseMass * (q.after time).velocity.get axis := by
  obtain ⟨hposition, hvelocity⟩ := Start.after_of_rest hp time axis
  obtain ⟨hposition', hvelocity'⟩ := Start.after_of_rest hq time axis
  rw [hposition, hposition', hvelocity, hvelocity', hforce]
  constructor <;> ring

end Reference

/-- Atoms that start at rest under the same force move in proportion to their inverse masses. A
genuine backend keeps two atoms in this proportion for any number of steps, with any matrix that
couples velocities or none, if each has the same inverse mass along all axes and their groups have
the same factor. The reference has the proportion at any time, for the atoms of a simulation and for
the rows of arrays with any number of components. -/
theorem motion_scales_with_inverse_mass [Machine] {K : Type} [CommRing K] [Div K] [Scalar K]
    [Scalar.IsExact K] :
    (∀ (b : Backend K), b.IsGenuine → ∀ s : Simulation K, s.velocityScaling.shape = [3, 3] →
      ∀ (i j : ℕ) (a c : Atom K), s.atoms[i]? = some a → s.atoms[j]? = some c →
      ∀ mi mj : K, a.AlikeAtRest mi mj c → s.factorAt i = s.factorAt j → ∀ n : ℕ,
        (s.HasGroups → (b.advance (.whole n) s).fault? = none) ∧
        ∃ a' c', (b.advance (.whole n) s).simulation.atoms[i]? = some a' ∧
          (b.advance (.whole n) s).simulation.atoms[j]? = some c' ∧
          ∀ axis,
            mj * (a'.position.get axis - a.position.get axis) =
              mi * (c'.position.get axis - c.position.get axis) ∧
            mj * a'.velocity.get axis = mi * c'.velocity.get axis) ∧
    (∀ (starts : List (Reference.Start K)) (i j : ℕ) (p q : Reference.Start K),
      starts[i]? = some p → starts[j]? = some q → p.velocity = .replicate 0 →
      q.velocity = .replicate 0 → p.force = q.force → ∀ time : K,
        ∃ r xi xj vi vj, Reference.motion starts time = .ok r ∧
          r.positions[i]? = some xi ∧ r.positions[j]? = some xj ∧
          r.velocities[i]? = some vi ∧ r.velocities[j]? = some vj ∧
          ∀ axis,
            q.inverseMass * (xi.get axis - p.position.get axis) =
              p.inverseMass * (xj.get axis - q.position.get axis) ∧
            q.inverseMass * vi.get axis = p.inverseMass * vj.get axis) ∧
    ∀ (n width : ℕ) (xs vs fs : List (List K)) (ms : Tensor K),
      Reference.Matching n width xs vs fs ms → ∀ (i j : ℕ) (p q push : List K) (mi mj : K),
      (Reference.table xs vs fs ms)[i]? = some ((p, .replicate width 0), (push, mi)) →
      (Reference.table xs vs fs ms)[j]? = some ((q, .replicate width 0), (push, mj)) → ∀ time : K,
        ∃ xs' vs' xi xj vi vj, Reference.ofRows xs vs fs ms time = .ok (xs', vs') ∧
          Reference.Matching n width xs' vs' fs ms ∧
          xs'[i]? = some xi ∧ xs'[j]? = some xj ∧ vs'[i]? = some vi ∧ vs'[j]? = some vj ∧
          (List.zipWith (· - ·) xi p).map (mj * ·) = (List.zipWith (· - ·) xj q).map (mi * ·) ∧
          vi.map (mj * ·) = vj.map (mi * ·) := by
  refine ⟨?_, ?_, ?_⟩
  · intro b hb s hshape i j a c ha hc mi mj halike hgroups n
    obtain ⟨m, hmatrix⟩ := Tensor.exists_eq_ofMat3 hshape
    obtain ⟨a', c', ha', hc', hproportion⟩ :=
      hb.inProportion_advance hmatrix ha hc halike hgroups n
    refine ⟨fun hall => ?_, a', c', ha', hc', fun axis => ⟨?_, ?_⟩⟩
    · obtain ⟨scaling, hscaling⟩ := Simulation.exists_hasScaling_iff.mpr hall
      rw [hb.advance_of_finite hmatrix hscaling (Scalar.IsExact.isFinite_eq _)]
    · exact congrFun hproportion.displacement axis
    · exact congrFun hproportion.velocity axis
  · intro starts i j p q hi hj hp hq hforce time
    obtain ⟨r, hr, hplaces⟩ := Reference.exists_motion starts time
    obtain ⟨hxi, hvi⟩ := hplaces i p hi
    obtain ⟨hxj, hvj⟩ := hplaces j q hj
    exact ⟨r, _, _, _, _, hr, hxi, hxj, hvi, hvj, Reference.Start.inProportion hp hq hforce time⟩
  · intro n width xs vs fs ms h i j p q push mi mj hi hj time
    obtain ⟨xs', vs', hmoved, hmatching, hplaces⟩ := h.exists_ofRows time
    obtain ⟨hxi, hvi⟩ := hplaces i _ hi
    obtain ⟨hxj, hvj⟩ := hplaces j _ hj
    have hp := h.hasWidth (List.mem_of_getElem? hi)
    have hq := h.hasWidth (List.mem_of_getElem? hj)
    exact ⟨xs', vs', _, _, _, _, hmoved, hmatching, hxi, hxj, hvi, hvj, hp.inProportion hq time⟩

/-- Two sheared atoms that start at rest, the second of them twice as heavy as the first. -/
def Simulation.resting : Simulation ℚ :=
  { Simulation.sheared with atoms := (Synthetic.simulation 2 (1 / 2) ⟨0, 0, 0⟩ ⟨0, 0, 6⟩).atoms }

/-- One of the resting atoms. -/
def Atom.resting (i : ℕ) : Atom ℚ := Synthetic.atom ⟨0, 0, 0⟩ ⟨0, 0, 6⟩ i

open Workstation

/-- The resting atoms have been moved in proportion after three sheared steps, and are in proportion
at any time in the reference. So are the components of two rows. -/
theorem motion_scales_with_inverse_mass_resting :
    (∃ a c : Atom ℚ,
      (Backend.host.advance (.whole 3) Simulation.resting).simulation.atoms[0]? = some a ∧
      (Backend.host.advance (.whole 3) Simulation.resting).simulation.atoms[1]? = some c ∧
      ∀ axis, 1 / 2 * (a.position.get axis - (Atom.resting 0).position.get axis) =
          1 * (c.position.get axis - (Atom.resting 1).position.get axis) ∧
        1 / 2 * a.velocity.get axis = 1 * c.velocity.get axis) ∧
    (∀ time : ℚ, ∃ r, ∃ vi vj : Vec3 ℚ, Reference.motion Simulation.resting.starts time = .ok r ∧
      r.velocities[0]? = some vi ∧ r.velocities[1]? = some vj ∧
      ∀ axis, 1 / 2 * vi.get axis = 1 * vj.get axis) ∧
    ∀ time : ℚ, ∃ xs vs, ∃ xi xj : List ℚ,
      Reference.ofRows [[5, 0], [7, 3]] [[0, 0], [0, 0]] [[2, -4], [2, -4]] (.row [1, 1 / 2]) time =
        .ok (xs, vs) ∧
      xs[0]? = some xi ∧ xs[1]? = some xj ∧
      (List.zipWith (· - ·) xi [5, 0]).map (1 / 2 * ·) =
        (List.zipWith (· - ·) xj [7, 3]).map (1 * ·) := by
  obtain ⟨hadvance, hmotion, hrows⟩ := motion_scales_with_inverse_mass (K := ℚ)
  have halike : (Atom.resting 0).AlikeAtRest 1 (1 / 2) (.resting 1) :=
    ⟨⟨rfl, rfl⟩, rfl, by decide +kernel, by decide +kernel⟩
  have hmatching : Reference.Matching 2 2 [[5, 0], [7, 3]] [[0, 0], [0, 0]] [[2, -4], [2, -4]]
      (.row [(1 : ℚ), 1 / 2]) := by
    refine ⟨?_, ?_, ?_, rfl⟩ <;> simp
  have hfirst : Simulation.resting.atoms[0]? = some (.resting 0) := rfl
  have hsecond : Simulation.resting.atoms[1]? = some (.resting 1) := rfl
  have hgroups : Simulation.resting.factorAt 0 = Simulation.resting.factorAt 1 := rfl
  have hstart : Simulation.resting.starts[0]? = some (.ofAtom (.resting 0)) := rfl
  have hstart' : Simulation.resting.starts[1]? = some (.ofAtom (.resting 1)) := rfl
  have hmasses : (Atom.resting 0).inverseMass = 1 ∧ (Atom.resting 1).inverseMass = 1 / 2 := by
    decide +kernel
  refine ⟨?_, fun time => ?_, fun time => ?_⟩
  · obtain ⟨-, a, c, ha, hc, hproportion⟩ :=
      hadvance .host (.inl rfl) .resting rfl 0 1 _ _ hfirst hsecond 1 (1 / 2) halike hgroups 3
    exact ⟨a, c, ha, hc, hproportion⟩
  · obtain ⟨r, _, _, vi, vj, hr, -, -, hvi, hvj, hproportion⟩ :=
      hmotion _ 0 1 _ _ hstart hstart' rfl rfl rfl time
    refine ⟨r, vi, vj, hr, hvi, hvj, fun axis => ?_⟩
    have hvelocity := (hproportion axis).2
    rwa [Reference.Start.ofAtom, Reference.Start.ofAtom, hmasses.1, hmasses.2] at hvelocity
  · obtain ⟨xs, vs, xi, xj, _, _, hmoved, -, hxi, hxj, -, -, hproportion, -⟩ :=
      hrows 2 2 _ _ _ _ hmatching 0 1 [5, 0] [7, 3] [2, -4] 1 (1 / 2) rfl rfl time
    exact ⟨xs, vs, xi, xj, hmoved, hxi, hxj, hproportion⟩

end Leapfrog
