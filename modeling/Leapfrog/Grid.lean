import Leapfrog.Scenario

/-!
# Parameter grids

A grid gives a list of values for each of nine parameters; its scenarios are all combinations, the
last parameter varying fastest. `Axes.combinations` lists them and `Axes.foldlM` visits them one by
one; `foldlM_eq` says that these agree. `Axes.select?` finds the combination at an index without
listing the others: the digits of the index in the mixed radix of the axis lengths say which value
each axis contributes.

The values of a grid are not checked before a combination is reached, so a grid may hold
combinations that are no scenario. The first of them ends the enumeration with a fault.
-/

namespace Leapfrog

/-- The values of the nine parameters. -/
structure Axes (α : Type) where
  atoms : List (Number α)
  timesteps : List (Number α)
  vx : List α
  vy : List α
  vz : List α
  fx : List α
  fy : List α
  fz : List α
  steps : List (Number α)
  deriving DecidableEq, Repr

/-- One value for each parameter. -/
structure Combination (α : Type) where
  atoms : Number α
  timestep : Number α
  velocity : Vec3 α
  force : Vec3 α
  steps : Number α
  deriving DecidableEq, Repr

namespace Combination

variable {α : Type} [Scalar α]

/-- The scenario of a combination. -/
def scenario (c : Combination α) : Except (Fault α) (Scenario α) :=
  Scenario.make c.atoms c.timestep c.velocity.toList c.force.toList c.steps

/-- The scenarios of some combinations up to the first that has none, and the fault it has. -/
def scenarios : List (Combination α) → List (Scenario α) × Option (Fault α)
  | [] => ([], none)
  | c :: rest =>
    match c.scenario with
    | .error fault => ([], some fault)
    | .ok s =>
      let (more, fault?) := scenarios rest
      (s :: more, fault?)

end Combination

namespace Axes

variable {α : Type}

/-- The names of the axes with their lengths, the slowest axis first. -/
def lengths (a : Axes α) : List (String × Nat) :=
  [("n_atoms", a.atoms.length), ("timesteps", a.timesteps.length),
   ("vx", a.vx.length), ("vy", a.vy.length), ("vz", a.vz.length),
   ("fx", a.fx.length), ("fy", a.fy.length), ("fz", a.fz.length),
   ("n_steps", a.steps.length)]

/-- How many combinations there are. -/
def size (a : Axes α) : Nat := a.lengths.foldl (fun n axis => n * axis.2) 1

/-- All combinations, the last axis varying fastest. -/
def combinations (a : Axes α) : List (Combination α) :=
  a.atoms.flatMap fun n => a.timesteps.flatMap fun t =>
  a.vx.flatMap fun vx => a.vy.flatMap fun vy => a.vz.flatMap fun vz =>
  a.fx.flatMap fun fx => a.fy.flatMap fun fy => a.fz.flatMap fun fz =>
  a.steps.map fun k => ⟨n, t, ⟨vx, vy, vz⟩, ⟨fx, fy, fz⟩, k⟩

/-- A fold over all combinations in order. None is formed before the fold has come to it, so a fold
that is stopped early is short however many combinations there are. -/
def foldlM {m : Type → Type} [Monad m] {σ : Type} (visit : σ → Combination α → m σ) (start : σ)
    (a : Axes α) : m σ :=
  a.atoms.foldlM (fun s n => a.timesteps.foldlM (fun s t =>
  a.vx.foldlM (fun s vx => a.vy.foldlM (fun s vy => a.vz.foldlM (fun s vz =>
  a.fx.foldlM (fun s fx => a.fy.foldlM (fun s fy => a.fz.foldlM (fun s fz =>
  a.steps.foldlM (fun s k => visit s ⟨n, t, ⟨vx, vy, vz⟩, ⟨fx, fy, fz⟩, k⟩)
  s) s) s) s) s) s) s) s) start

/-- A fold over lists that are put one after the other is a fold of the folds over each. -/
theorem foldlM_flatMap {m : Type → Type} [Monad m] [LawfulMonad m] {β γ σ : Type}
    (visit : σ → γ → m σ) (lists : β → List γ) (start : σ) (values : List β) :
    (values.flatMap lists).foldlM visit start =
      values.foldlM (fun s b => (lists b).foldlM visit s) start := by
  induction values generalizing start with
  | nil => rfl
  | cons b rest ih => simp [List.foldlM_append, ih]

/-- The fold visits the combinations as they are listed. -/
theorem foldlM_eq {m : Type → Type} [Monad m] [LawfulMonad m] {σ : Type}
    (visit : σ → Combination α → m σ) (start : σ) (a : Axes α) :
    a.foldlM visit start = a.combinations.foldlM visit start := by
  simp only [combinations, foldlM_flatMap, List.foldlM_map, foldlM]

/-- The value of the least significant digit of an index, and the index without that digit. -/
def digit? {β : Type} (values : List β) (index : Nat) : Option (β × Nat) :=
  (values[index % values.length]?).map (·, index / values.length)

/-- The combination at an index. -/
def select? (a : Axes α) (index : Nat) : Option (Combination α) := do
  let (k, index) ← digit? a.steps index
  let (fz, index) ← digit? a.fz index
  let (fy, index) ← digit? a.fy index
  let (fx, index) ← digit? a.fx index
  let (vz, index) ← digit? a.vz index
  let (vy, index) ← digit? a.vy index
  let (vx, index) ← digit? a.vx index
  let (t, index) ← digit? a.timesteps index
  let (n, index) ← digit? a.atoms index
  if index = 0 then return ⟨n, t, ⟨vx, vy, vz⟩, ⟨fx, fy, fz⟩, k⟩ else none

end Axes

/-- Axes none of which is empty. -/
structure Grid (α : Type) extends Axes α where
  nonempty : ∀ axis ∈ toAxes.lengths, axis.2 ≠ 0

namespace Grid

variable {α : Type}

/-- The grid of given axes. The first empty one is named. -/
def ofAxes (a : Axes α) : Except (Fault α) (Grid α) :=
  match h : a.lengths.find? fun axis => axis.2 = 0 with
  | some (name, _) => .error (.emptyAxis name)
  | none => .ok ⟨a, fun axis member => by simpa using List.find?_eq_none.1 h axis member⟩

/-- How many scenarios a grid has, if that is a machine integer. -/
def length (g : Grid α) : Except (Fault α) Nat :=
  if g.size < Limits.bound then .ok g.size else .error .sizeTooLarge

variable [Scalar α]

/-- The scenarios of a grid in order, up to the first fault. -/
def scenarios (g : Grid α) : List (Scenario α) × Option (Fault α) :=
  Combination.scenarios g.combinations

/-- The scenarios at `count` indices from `index` on, or as many as there are, behind those in
`earlier`, which are in reverse. The first fault ends it. -/
def form (g : Grid α) (count index : Nat) (earlier : List (Scenario α)) :
    Except (Fault α) (List (Scenario α)) :=
  match count with
  | 0 => .ok earlier.reverse
  | count + 1 =>
    match g.select? index with
    | none => .ok earlier.reverse
    | some c =>
      match c.scenario with
      | .error fault => .error fault
      | .ok s => form g count (index + 1) (s :: earlier)

/-- The scenarios at the indices that are not below `start` but below `stop`. The first scenario that
is not below `stop` is still formed, so a fault there counts. Nothing behind it is looked at. -/
def slice (g : Grid α) (start stop : Number α) : Except (Fault α) (List (Scenario α)) := do
  let count := stop.position?.getD g.size
  let formed ← g.form (count + 1) 0 []
  return (formed.take count).drop (start.position?.getD count)

end Grid

/-- The values that are used for the parameters that are not given. -/
def Axes.standard {α : Type} [Div α] [Scalar α] : Axes α where
  atoms := [.whole 1, .whole 10, .whole 300]
  timesteps :=
    [.scalar (Scalar.ofInt 1 / Scalar.ofInt 1000), .scalar (Scalar.ofInt 5 / Scalar.ofInt 10000)]
  vx := [Scalar.ofInt (-2), Scalar.ofInt 0]
  vy := [Scalar.ofInt 0, Scalar.ofInt 2]
  vz := [Scalar.ofInt 0]
  fx := [Scalar.ofInt (-1), Scalar.ofInt 0]
  fy := [Scalar.ofInt 0, Scalar.ofInt 1]
  fz := [Scalar.ofInt 2]
  steps := [.whole 1, .whole 10]

end Leapfrog
