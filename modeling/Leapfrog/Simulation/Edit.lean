import Leapfrog.Simulation.Outcome

/-!
# Edits of a simulation

Single numbers, whole atoms and whole arrays can be overwritten, and the coupling can be replaced.
An edit checks where it writes and not what it writes, except that a group has to fit into 32 bits.
All indices of a place are read before the first of them is looked up.
-/

namespace Leapfrog

/-- The arrays with a vector or a scalar for each atom. -/
inductive Field where
  | startPosition
  | position
  | startVelocity
  | velocity
  | force
  | inverseMassPerAxis
  | inverseMass
  deriving DecidableEq, Repr

/-- The names of the arrays. -/
def Field.ofName? : String → Option Field
  | "x0" => some .startPosition
  | "x" => some .position
  | "v0" => some .startVelocity
  | "v" => some .velocity
  | "f" => some .force
  | "inverse_masses_per_dim" => some .inverseMassPerAxis
  | "inverse_masses" => some .inverseMass
  | _ => none

/-- How many axes an array has. -/
def Field.axes (field : Field) : Nat := if field = .inverseMass then 1 else 2

/-- The arrays of a simulation that can be written to. -/
inductive Target where
  | field (field : Field)
  | groups
  | velocityScaling
  deriving DecidableEq, Repr

/-- The names of these arrays. -/
def Target.ofName? : String → Option Target
  | "group_indices" => some .groups
  | "pr_scaling_matrix" => some .velocityScaling
  | name => (Field.ofName? name).map .field

/-- The groups of the atoms as they are given. -/
inductive Groups (α : Type) where
  /-- One group for all atoms. -/
  | shared (group : Number α)
  /-- A row of groups. -/
  | row (groups : List (Number α))
  /-- Lists inside a list, which are no row. -/
  | nested

namespace Atom

variable {α : Type}

/-- An atom with one of its vectors changed; the scalar inverse mass is not a vector and is left
alone. -/
def modifyVector (field : Field) (change : Vec3 α → Vec3 α) (a : Atom α) : Atom α :=
  match field with
  | .startPosition => { a with startPosition := change a.startPosition }
  | .position => { a with position := change a.position }
  | .startVelocity => { a with startVelocity := change a.startVelocity }
  | .velocity => { a with velocity := change a.velocity }
  | .force => { a with force := change a.force }
  | .inverseMassPerAxis => { a with inverseMassPerAxis := change a.inverseMassPerAxis }
  | .inverseMass => a

/-- An atom with a value written over a whole field. -/
def overwrite (field : Field) (value : α) (a : Atom α) : Atom α :=
  match field with
  | .inverseMass => { a with inverseMass := value }
  | field => a.modifyVector field fun _ => .replicate value

end Atom

namespace Simulation

variable {α : Type}

/-- How many axes an array of a simulation has. -/
def axesOf (s : Simulation α) : Target → Nat
  | .field field => field.axes
  | .groups => 1
  | .velocityScaling => s.velocityScaling.shape.length

/-- The axis that an index along the second axis of an array stands for. -/
def axisAt (index : Int) : Except (Fault α) Axis := do
  match Axis.ofNat? (← wrapIndex 1 3 index) with
  | some axis => return axis
  | none => throw (.outOfBounds index 1 3)

/-- The atom and the axis that two indices stand for. -/
def componentAt (atom axis : Int) (s : Simulation α) : Except (Fault α) (Nat × Axis) := do
  return (← wrapIndex 0 s.atoms.size atom, ← axisAt axis)

/-- A change of one component of one vector. -/
def modifyAt (field : Field) (component : Nat × Axis) (change : α → α) (s : Simulation α) :
    Simulation α :=
  let (atom, axis) := component
  { s with
    atoms := s.atoms.modify atom
      (Atom.modifyVector field fun v => v.set axis (change (v.get axis))) }

/-- A value written over a field of one atom, over one component of it or, if there is no index at
all, over the field of all atoms. -/
def putField (field : Field) (place : List Int) (value : α) (s : Simulation α) :
    Except (Fault α) (Simulation α) :=
  match place with
  | [] => .ok { s with atoms := s.atoms.map (Atom.overwrite field value) }
  | [atom] => do
    let i ← wrapIndex 0 s.atoms.size atom
    return { s with atoms := s.atoms.modify i (Atom.overwrite field value) }
  | atom :: axis :: _ => do
    return s.modifyAt field (← s.componentAt atom axis) fun _ => value

/-- A number added to one component of one vector. It becomes a scalar once the component has been
found. -/
def addAt [Add α] [Scalar α] (field : Field) (atom axis amount : Number α) (s : Simulation α) :
    Except (Fault α) (Simulation α) := do
  match ← readPlace field.axes [atom, axis] with
  | [atom, axis] =>
    let component ← s.componentAt atom axis
    let amount ← amount.toScalar
    return s.modifyAt field component (· + amount)
  | _ => return s

section

variable [Scalar α]

/-- A group written over one of the groups or, if there is no index, over all of them. -/
def putGroup (place : List Int) (value : Number α) (s : Simulation α) :
    Except (Fault α) (Simulation α) :=
  match place with
  | [] => do
    let group ← groupOf value
    return { s with groups := s.groups.map fun _ => group }
  | atom :: _ => do
    let i ← wrapIndex 0 s.groups.size atom
    let group ← groupOf value
    return { s with groups := s.groups.modify i fun _ => group }

/-- A value written at a place of an array. -/
def put (target : Target) (place : List (Number α)) (value : α) (s : Simulation α) :
    Except (Fault α) (Simulation α) := do
  let place ← readPlace (s.axesOf target) place
  match target with
  | .field field => s.putField field place value
  | .groups => s.putGroup place (.scalar value)
  | .velocityScaling =>
    return { s with velocityScaling := ← s.velocityScaling.overwrite place value }

/-- A value written over all entries along the first axis of an array, which must have one. -/
def fill (target : Target) (value : α) (s : Simulation α) : Except (Fault α) (Simulation α) :=
  if s.axesOf target = 0 then .error (.tooManyIndices 0 1) else s.put target [] value

/-- The groups at the front of a row that are fit to be written, and the fault of the next one. -/
def readGroups : List (Number α) → List Int × Option (Fault α)
  | [] => ([], none)
  | given :: rest =>
    match groupOf given with
    | .error fault => ([], some fault)
    | .ok group =>
      let (groups, fault?) := readGroups rest
      (group :: groups, fault?)

/-- All groups overwritten by a row of groups, one after the other up to the first that does not fit.
A row of one group is written over all of them. -/
def putGroups (given : List (Number α)) (s : Simulation α) : Outcome α :=
  let (groups, fault?) := readGroups given
  if given.length = s.groups.size then
    let written := groups.toArray
    ⟨{ s with groups := s.groups.mapIdx fun i old => written[i]?.getD old }, fault?⟩
  else
    match fault?, groups with
    | some fault, _ => ⟨s, some fault⟩
    | none, [group] => ⟨{ s with groups := s.groups.map fun _ => group }, none⟩
    | none, _ => ⟨s, some (.groupCount given.length s.groups.size)⟩

/-- All groups overwritten. -/
def assignGroups (given : Groups α) (s : Simulation α) : Outcome α :=
  match given with
  | .shared group => .ofExcept s (s.putGroup [] group)
  | .row groups => s.putGroups groups
  | .nested => ⟨s, some (.tooManyAxes 1)⟩

/-- The coupling groups replaced, and then the groups of the atoms overwritten if they are given. -/
def regroup (couplings : List α) (groups? : Option (Groups α)) (s : Simulation α) : Outcome α :=
  match groups? with
  | none => ⟨{ s with couplings }, none⟩
  | some groups => assignGroups groups { s with couplings }

end

end Simulation

end Leapfrog
