import Leapfrog.Proofs.ScenarioRun

/-!
# What a check compares

A check compares the components of positions and then those of velocities, atom by atom and axis by
axis, and its mismatches are those components that are not within the bound. Nothing is compared
twice: the components are listed in strictly increasing order.
-/

namespace Leapfrog

/-- The number of an axis. -/
def Axis.index : Axis → Nat
  | .x => 0
  | .y => 1
  | .z => 2

/-- The axes are listed in the order of their numbers. -/
theorem Axis.pairwise_all : Axis.all.Pairwise fun axis other => axis.index < other.index := by
  decide

namespace Quantity

/-- Positions come before velocities. -/
def index : Quantity → Nat
  | position => 0
  | velocity => 1

variable {α : Type}

/-- The vectors that a simulation has of a quantity. -/
def ofSimulation (q : Quantity) (s : Simulation α) : List (Vec3 α) :=
  match q with
  | position => s.positions
  | velocity => s.velocities

/-- The vectors that a reference has of a quantity. -/
def ofReference (q : Quantity) (r : Reference α) : List (Vec3 α) :=
  match q with
  | position => r.positions
  | velocity => r.velocities

end Quantity

/-- A component that is compared. -/
structure Component (α : Type) where
  quantity : Quantity
  atom : Nat
  axis : Axis
  actual : α
  expected : α

namespace Component

variable {α : Type}

/-- Where a component stands: its quantity, its atom and its axis. -/
def key (c : Component α) : List Nat := [c.quantity.index, c.atom, c.axis.index]

/-- The components of two lists of vectors, atom by atom. -/
def ofVectors (q : Quantity) (actual expected : List (Vec3 α)) : List (Component α) :=
  (actual.zip expected).zipIdx.flatMap fun ((a, e), i) =>
    Axis.all.map fun axis => ⟨q, i, axis, a.get axis, e.get axis⟩

/-- A component is listed if both lists have its atom. -/
theorem mem_ofVectors {q : Quantity} {actual expected : List (Vec3 α)} {c : Component α} :
    c ∈ ofVectors q actual expected ↔
      c.quantity = q ∧ ∃ a e, actual[c.atom]? = some a ∧ expected[c.atom]? = some e ∧
        c.actual = a.get c.axis ∧ c.expected = e.get c.axis := by
  unfold ofVectors
  rw [List.mem_flatMap]
  constructor
  · intro h
    obtain ⟨⟨⟨a, e⟩, i⟩, hpair, hc⟩ := h
    obtain ⟨axis, -, rfl⟩ := List.mem_map.mp hc
    obtain ⟨ha, he⟩ := List.getElem?_zip_eq_some.mp (List.mk_mem_zipIdx_iff_getElem?.mp hpair)
    exact ⟨rfl, a, e, ha, he, rfl, rfl⟩
  · obtain ⟨q', i, axis, x, y⟩ := c
    intro h
    obtain ⟨rfl, a, e, ha, he, hx, hy⟩ := h
    dsimp only at hx hy
    subst hx hy
    have hpair : (actual.zip expected)[i]? = some (a, e) :=
      List.getElem?_zip_eq_some.mpr ⟨ha, he⟩
    exact ⟨((a, e), i), List.mk_mem_zipIdx_iff_getElem?.mpr hpair,
      List.mem_map.mpr ⟨axis, Axis.mem_all axis, rfl⟩⟩

/-- There are three components for each atom. -/
theorem length_ofVectors {q : Quantity} {actual expected : List (Vec3 α)}
    (h : actual.length = expected.length) :
    (ofVectors q actual expected).length = 3 * actual.length := by
  unfold ofVectors
  simp [List.length_flatMap, Axis.all, h, Nat.mul_comm]

/-- Components are listed by atoms and, within an atom, by axes. -/
theorem pairwise_ofVectors (q : Quantity) (actual expected : List (Vec3 α)) :
    (ofVectors q actual expected).Pairwise fun c d => c.key < d.key := by
  unfold ofVectors
  rw [List.pairwise_flatMap]
  constructor
  · intro entry _
    rw [List.pairwise_map]
    refine Axis.pairwise_all.imp fun {axis other} haxis => ?_
    simp [key, List.cons_lt_cons_iff, haxis]
  · refine (pairwise_zipIdx _).imp fun {p p'} hatom c hc d hd => ?_
    obtain ⟨axis, -, rfl⟩ := List.mem_map.mp hc
    obtain ⟨other, -, rfl⟩ := List.mem_map.mp hd
    simp [key, List.cons_lt_cons_iff, hatom]

/-- The components of all atoms by positions and velocities that are given for each. -/
theorem ofVectors_map_range (q : Quantity) (actual expected : Nat → Vec3 α) (n : Nat) :
    ofVectors q ((List.range n).map actual) ((List.range n).map expected) =
      (List.range n).flatMap fun i =>
        Axis.all.map fun axis => ⟨q, i, axis, (actual i).get axis, (expected i).get axis⟩ := by
  have hzip : (((List.range n).map actual).zip ((List.range n).map expected)).zipIdx =
      (List.range n).map fun i => ((actual i, expected i), i) := by
    apply List.ext_getElem?
    intro i
    by_cases hi : i < n <;> simp [hi]
  unfold ofVectors
  rw [hzip, List.flatMap_map]

/-- Row-major order is the order of the components. -/
theorem zipIdx_toList (q : Quantity) (actual expected : List (Vec3 α)) :
    ((actual.flatMap Vec3.toList).zip (expected.flatMap Vec3.toList)).zipIdx =
      (ofVectors q actual expected).map fun c =>
        ((c.actual, c.expected), 3 * c.atom + c.axis.index) := by
  have hfrom (i : Nat) :
      ((actual.flatMap Vec3.toList).zip (expected.flatMap Vec3.toList)).zipIdx (3 * i) =
        ((actual.zip expected).zipIdx i).flatMap fun ((a, e), i) =>
          Axis.all.map fun axis => ((a.get axis, e.get axis), 3 * i + axis.index) := by
    induction actual generalizing expected i with
    | nil => rfl
    | cons a rest ih =>
      cases expected with
      | nil => simp
      | cons e others =>
        have hrest := ih others (i + 1)
        simp only [List.flatMap_cons, List.zip_cons_cons, List.zipIdx_cons, ← hrest]
        rfl
  rw [ofVectors, List.map_flatMap]
  simp only [List.map_map]
  exact hfrom 0

variable [Sub α] [Scalar α]

/-- Whether the two values of a component are too far apart. -/
def misses (bound : α) (c : Component α) : Bool := !isWithin c.actual c.expected bound

/-- The mismatch that is recorded for a component. -/
def mismatch (bound : α) (c : Component α) : Mismatch α :=
  ⟨c.atom, c.axis.index, c.quantity, c.actual, c.expected, bound⟩

/-- A scan in row-major order finds the components that are too far apart. -/
theorem mismatch_ofVectors (q : Quantity) (bound : α) (actual expected : List (Vec3 α)) :
    Mismatch.ofVectors q bound actual expected =
      ((ofVectors q actual expected).filter (misses bound)).map (mismatch bound) := by
  have hplace (c : Component α) : (3 * c.atom + c.axis.index) / 3 = c.atom ∧
      (3 * c.atom + c.axis.index) % 3 = c.axis.index := by
    have hindex : c.axis.index < 3 := by
      cases c.axis <;> decide
    omega
  rw [Mismatch.ofVectors, Mismatch.scan_eq, zipIdx_toList q, List.filterMap_map,
    ← List.filterMap_eq_map, List.filterMap_filter]
  refine List.filterMap_congr fun c hc => ?_
  obtain ⟨rfl, -⟩ := mem_ofVectors.mp hc
  obtain ⟨hatom, haxis⟩ := hplace c
  by_cases hwithin : isWithin c.actual c.expected bound
  · simp [misses, hwithin]
  · simp only [Function.comp_apply, misses, mismatch, hwithin, hatom, haxis, Bool.not_false,
      Bool.false_eq_true, if_true, if_false]

end Component

section

variable {α : Type}

/-- All components that a check compares. -/
def Simulation.components (s : Simulation α) (r : Reference α) : List (Component α) :=
  Component.ofVectors .position s.positions r.positions ++
    Component.ofVectors .velocity s.velocities r.velocities

/-- The components of all atoms, positions and velocities alike. -/
theorem Simulation.mem_components {s : Simulation α} {r : Reference α} {c : Component α} :
    c ∈ s.components r ↔
      ∃ a e, (c.quantity.ofSimulation s)[c.atom]? = some a ∧
        (c.quantity.ofReference r)[c.atom]? = some e ∧
        c.actual = a.get c.axis ∧ c.expected = e.get c.axis := by
  rw [components, List.mem_append, Component.mem_ofVectors, Component.mem_ofVectors]
  cases hq : c.quantity <;> simp [Quantity.ofSimulation, Quantity.ofReference]

/-- Positions come first, and nothing is listed twice. -/
theorem Simulation.pairwise_components (s : Simulation α) (r : Reference α) :
    (s.components r).Pairwise fun c d => c.key < d.key := by
  refine List.pairwise_append.mpr ⟨Component.pairwise_ofVectors _ _ _,
    Component.pairwise_ofVectors _ _ _, fun c hc d hd => ?_⟩
  obtain ⟨hposition, -⟩ := Component.mem_ofVectors.mp hc
  obtain ⟨hvelocity, -⟩ := Component.mem_ofVectors.mp hd
  simp [Component.key, hposition, hvelocity, Quantity.index, List.cons_lt_cons_iff]

end

/-- A count multiplies a scalar only if it is converted to one. -/
theorem Number.eq_of_times {α : Type} [Mul α] [Scalar α] {n : Nat} {a b : α}
    (h : (Number.whole n).times a = .ok b) :
    Scalar.isFinite (Scalar.ofInt n : α) = true ∧ b = Scalar.ofInt n * a := by
  obtain ⟨scalar, hscalar, h⟩ := bind_eq_ok_iff.mp h
  obtain rfl := Except.ok.inj h
  unfold Number.toScalar at hscalar
  dsimp only at hscalar
  split at hscalar
  · next hfinite =>
    obtain rfl := Except.ok.inj hscalar
    exact ⟨hfinite, rfl⟩
  · cases hscalar

/-- The bound after a number of steps is so many times the bound for one step. -/
theorem Tolerance.bound_whole_eq {α : Type} [Mul α] [Scalar α] {t : Tolerance α} {n : Nat}
    {bound : α} (h : t.bound (.whole n) = .ok bound) : bound = Scalar.ofInt n * t.epsilon := by
  unfold Tolerance.bound at h
  split at h
  · cases h
  · exact (Number.eq_of_times h).2

section

variable {α : Type} [Add α] [Mul α] [Div α] [Scalar α]

/-- There is a reference if the count is not negative, the time is a scalar and its square is none
that is refused. -/
theorem Reference.ofSimulation_eq_ok_iff {s : Simulation α} {steps : Number α} {r : Reference α} :
    Reference.ofSimulation s steps = .ok r ↔
      steps.isNegative = false ∧ ∃ time, steps.times s.timestep = .ok time ∧
      ∃ squared, Reference.square time = .ok squared ∧
        ⟨s.atoms.toList.map fun a => (Start.ofAtom a).positionAt time squared,
          s.atoms.toList.map fun a => (Start.ofAtom a).velocityAt time, time⟩ = r := by
  unfold Reference.ofSimulation
  cases steps.isNegative with
  | true =>
    constructor
    · intro h
      cases h
    · intro h
      cases h.1
  | false =>
    change (steps.times s.timestep >>= motion _) = _ ↔ _
    simp only [motion, bind_eq_ok_iff, pure, Except.pure, Except.ok.injEq, List.map_map, true_and]
    rfl

/-- The reference has the motion of every atom, all over the same time. -/
theorem Reference.exists_time {s : Simulation α} {steps : Number α} {r : Reference α}
    (h : Reference.ofSimulation s steps = .ok r) :
    ∃ time squared,
      r.positions = s.atoms.toList.map (fun a => (Start.ofAtom a).positionAt time squared) ∧
      r.velocities = s.atoms.toList.map fun a => (Start.ofAtom a).velocityAt time := by
  obtain ⟨-, time, -, squared, -, rfl⟩ := ofSimulation_eq_ok_iff.mp h
  exact ⟨time, squared, rfl, rfl⟩

/-- Three components of the position and three of the velocity of every atom are compared. -/
theorem Simulation.length_components {s : Simulation α} {steps : Number α} {r : Reference α}
    (h : Reference.ofSimulation s steps = .ok r) :
    (s.components r).length = 2 * 3 * s.atoms.size := by
  obtain ⟨time, squared, hpositions, hvelocities⟩ := Reference.exists_time h
  have hx : s.positions.length = r.positions.length := by
    simp [hpositions, positions]
  have hv : s.velocities.length = r.velocities.length := by
    simp [hvelocities, velocities]
  rw [components, List.length_append, Component.length_ofVectors hx, Component.length_ofVectors hv]
  simp only [positions, velocities, List.length_map, Array.length_toList]
  omega

variable [Sub α]

/-- The mismatches of a check are the components that are too far apart, in order. -/
theorem Simulation.check_eq_ok_iff {s : Simulation α} {steps : Number α} {tolerance : Tolerance α}
    {mismatches : List (Mismatch α)} :
    s.check steps tolerance = .ok mismatches ↔
      ∃ reference, Reference.ofSimulation s steps = .ok reference ∧
      ∃ bound, tolerance.bound steps = .ok bound ∧
        ((s.components reference).filter (Component.misses bound)).map (Component.mismatch bound) =
          mismatches := by
  unfold Simulation.check
  simp only [bind_eq_ok_iff, pure, Except.pure, Except.ok.injEq, components, List.filter_append,
    List.map_append, Component.mismatch_ofVectors]

variable [Machine]

/-- What a run of a scenario compares: the components of the simulation that the backend leaves
behind. -/
def Scenario.compared (scenario : Scenario α) (b : Backend α) :
    Except (Fault α) (List (Component α)) := do
  let start ← scenario.simulation
  let last ← (b.advance (.whole scenario.steps) start).toExcept
  let reference ← Reference.ofSimulation last (.whole scenario.steps)
  return last.components reference

/-- There is something to compare if the steps have been taken and there is a reference. -/
theorem Scenario.compared_eq_ok_iff {scenario : Scenario α} {b : Backend α}
    {components : List (Component α)} :
    scenario.compared b = .ok components ↔
      ∃ start, scenario.simulation = .ok start ∧
      ∃ last, (b.advance (.whole scenario.steps) start).toExcept = .ok last ∧
      ∃ reference, Reference.ofSimulation last (.whole scenario.steps) = .ok reference ∧
        last.components reference = components := by
  unfold Scenario.compared
  simp only [bind_eq_ok_iff, pure, Except.pure, Except.ok.injEq]

/-- The components of a scenario are listed in strictly increasing order. -/
theorem Scenario.pairwise_compared {scenario : Scenario α} {b : Backend α}
    {components : List (Component α)} (h : scenario.compared b = .ok components) :
    components.Pairwise fun c d => c.key < d.key := by
  obtain ⟨_, -, last, -, reference, -, rfl⟩ := Scenario.compared_eq_ok_iff.mp h
  exact last.pairwise_components reference

/-- What a run returns for its components: how many there are, and which of them are too far
apart. -/
def Scenario.resultOf (scenario : Scenario α) (b : Backend α) (tolerance : Tolerance α)
    (components : List (Component α)) : Result α :=
  let bound := Scalar.ofInt scenario.steps * tolerance.epsilon
  ⟨b.name, scenario, components.length,
    (components.filter (Component.misses bound)).map (Component.mismatch bound)⟩

/-- The result of a run is that of its components. -/
theorem Scenario.exists_components {scenario : Scenario α} {b : Backend α}
    {tolerance : Tolerance α} {result : Result α} (h : scenario.run b tolerance = .ok result) :
    ∃ components, scenario.compared b = .ok components ∧
      result = scenario.resultOf b tolerance components := by
  obtain ⟨start, hstart, last, hlast, mismatches, hmismatches, rfl⟩ := Scenario.run_eq_ok_iff.mp h
  obtain ⟨reference, hreference, bound, hbound, rfl⟩ := Simulation.check_eq_ok_iff.mp hmismatches
  obtain rfl := Tolerance.bound_whole_eq hbound
  refine ⟨last.components reference, Scenario.compared_eq_ok_iff.mpr
    ⟨start, hstart, last, hlast, reference, hreference, rfl⟩, ?_⟩
  rw [Scenario.resultOf, Simulation.length_components hreference]
  rfl

end

end Leapfrog
