import Leapfrog.Backend.Basic
import Leapfrog.Machine

/-!
# The step as a kernel

A device works on buffers of its own. Every launch runs the kernel once for each atom, in any order
the device likes, and the kernel updates the whole vectors of its atom. After the last launch the
positions and velocities are copied back.

The processor itself is a device that every machine has. A device that a machine does not have is
found missing when it is to take a step, and not before. A device makes its matrix of all entries of
the velocity scaling, whether or not it is going to apply it.

A device does not notice that a thread reads behind the end of a buffer, and what such a thread finds
there is not defined. Where there are fewer factors than atoms no steps are described.
-/

namespace Leapfrog.Device

/-- Whether a device is there. The name of an accelerator without a number stands for any one. -/
def find [Machine] {α : Type} (name : String) : Except (Fault α) Unit :=
  if Machine.hasDevice name then .ok ()
  else if name = "cuda" then .error .noAccelerator
  else .error (.unknownDevice name)

/-- The processor is there. -/
@[simp] theorem find_processor [Machine] {α : Type} : find (α := α) processor = .ok () :=
  if_pos Machine.hasDevice_processor

/-- The matrix that a device makes of the entries of an array: nine of them are its rows, one fills
it, and none at all leave it zero. -/
def matrixOf {α : Type} [Scalar α] (t : Tensor α) : Except (Fault α) (Mat3 α) :=
  match t.entries with
  | [] => .ok (.replicate (Scalar.ofInt 0))
  | [a] => .ok (.replicate a)
  | [a, _, _] => .error (.matrixRow a)
  | [xx, xy, xz, yx, yy, yz, zx, zy, zz] => .ok ⟨⟨xx, xy, xz⟩, ⟨yx, yy, yz⟩, ⟨zx, zy, zz⟩⟩
  | entries => .error (.matrixSize entries.length)

/-- An array made from a matrix holds that matrix. -/
@[simp] theorem matrixOf_ofMat3 {α : Type} [Scalar α] (m : Mat3 α) :
    matrixOf (.ofMat3 m) = .ok m := rfl

/-- The matrix that the kernel applies: only a Parrinello-Rahman barostat has one. -/
def activeMatrix? {α : Type} (barostat : Barostat) (matrix : Mat3 α) : Option (Mat3 α) :=
  if barostat = .parrinelloRahman then some matrix else none

variable {α : Type} [Add α] [Sub α] [Mul α]

/-- The memory of a device: one buffer for each quantity, and what all threads share. -/
structure Buffers (α : Type) where
  position : Array (Vec3 α)
  velocity : Array (Vec3 α)
  force : Array (Vec3 α)
  inverseMassPerAxis : Array (Vec3 α)
  scaling : Array α
  matrix? : Option (Mat3 α)
  timestep : α

/-- A simulation copied to a device. -/
def upload (s : Simulation α) (scaling : Array α) (matrix? : Option (Mat3 α)) : Buffers α where
  position := s.atoms.map Atom.position
  velocity := s.atoms.map Atom.velocity
  force := s.atoms.map Atom.force
  inverseMassPerAxis := s.atoms.map Atom.inverseMassPerAxis
  scaling := scaling
  matrix? := matrix?
  timestep := s.timestep

/-- The new velocity of an atom. -/
def newVelocity (b : Buffers α) (scaling : α) (old force inverseMass : Vec3 α) : Vec3 α :=
  let free := old.scale scaling + (force.mul inverseMass).times b.timestep
  match b.matrix? with
  | none => free
  | some matrix => free - (matrix.mulVec old).scale b.timestep

/-- The kernel: one thread updates one atom. A thread without an atom does nothing. -/
def kernel (b : Buffers α) (thread : Nat) : Buffers α :=
  match b.velocity[thread]?, b.force[thread]?, b.inverseMassPerAxis[thread]?,
    b.scaling[thread]? with
  | some old, some force, some inverseMass, some scaling =>
    let new := newVelocity b scaling old force inverseMass
    { b with
      velocity := b.velocity.modify thread fun _ => new
      position := b.position.modify thread fun x => x + new.times b.timestep }
  | _, _, _, _ => b

/-- One launch, with the threads in a given order. -/
def launch (order : List Nat) (b : Buffers α) : Buffers α := order.foldl kernel b

/-- Launches one after the other, each with an order of its own. -/
def launches (orders : List (List Nat)) (b : Buffers α) : Buffers α :=
  orders.foldl (fun b order => launch order b) b

/-- The positions and velocities copied back into the atoms. -/
def download (b : Buffers α) (atoms : Array (Atom α)) : Array (Atom α) :=
  atoms.mapIdx fun i a =>
    { a with
      position := b.position[i]?.getD a.position
      velocity := b.velocity[i]?.getD a.velocity }

/-- One launch for each of `n` steps with the threads in the order of the atoms. -/
def launchTimes (threads : Nat) : Nat → Buffers α → Buffers α
  | 0, b => b
  | n + 1, b => launchTimes threads n (launch (List.range threads) b)

/-- The atoms after a number of steps on a named device. -/
def integrate [Machine] [Scalar α] (name : String) (s : Simulation α) (n : Nat) : Outcome α :=
  .ofExcept s do
    find name
    let scaling ← s.groupScaling
    let matrix ← matrixOf s.velocityScaling
    if scaling.size < s.atoms.size then throw .strayRead
    let buffers := upload s scaling (activeMatrix? s.barostat matrix)
    return { s with atoms := download (launchTimes s.atoms.size n buffers) s.atoms }

end Leapfrog.Device

namespace Leapfrog

/-- The backend on a named device. -/
def Backend.device [Machine] {α : Type} [Add α] [Sub α] [Mul α] [Scalar α] (name : String) :
    Backend α :=
  ⟨"warp-" ++ name, .device name, Device.integrate name⟩

end Leapfrog
