import TensorGraph.Device.Data
import TensorGraph.Program.Basic
import TensorGraph.Shape.Reading
import TensorGraph.Table

/-!
# Device buffers

A device gives every leaf of a program a buffer of its shape. The host device keeps tensors; the
abstract one only says what a device has to do.
-/

namespace TensorGraph

open Number

inductive Backend where
  | host
  | abstract
deriving DecidableEq, Repr, Inhabited

/-- What a buffer holds. -/
inductive Contents where
  | unwritten
  | zeros
  /-- The elements last uploaded. -/
  | elements (xs : List Floating)
deriving DecidableEq, Repr, Inhabited

structure Buffer where
  backend : Backend
  shape : Shape
  contents : Contents
deriving DecidableEq, Repr, Inhabited

/-- Buffers by their ids, in the order in which they were allocated. -/
abbrev Buffers := Table Nat Buffer

namespace Buffer

def isWritten (b : Buffer) : Bool := b.contents ≠ .unwritten

/-- The elements in row-major order; a buffer that was never written has none. -/
def elements? (b : Buffer) : Option (List Floating) :=
  match b.contents with
  | .unwritten => none
  | .zeros => some (List.replicate b.shape.size (.finite false ⟨0, binary32.least⟩))
  | .elements xs => some xs

/-- The most bytes that a buffer can address. -/
def addressable : Nat := Nat.pow 2 63 - 1

/-- What keeps the host from allocating a shape, where there is `room` for so many bytes or not.
Dimensions of size zero do not make a shape small: the others have to be addressable too. -/
def allocationFault? (room : Nat → Bool) (s : Shape) : Option Error :=
  if Shape.rankLimit < s.rank then some (.tooManyDimensions s.rank)
  else if s.dims.any fun d => !Width.word.holds d then some .dimensionTooLarge
  else if addressable < Shape.bytes ⟨s.dims.filter (· ≠ 0)⟩ then some .bufferTooLarge
  else if !room s.bytes then some (.cannotAllocate s)
  else none

/-- A new buffer. An abstract device does not allocate anything. -/
def allocate (room : Nat → Bool) (backend : Backend) (s : Shape) : Except Error Buffer :=
  match backend, allocationFault? room s with
  | .host, some e => .error e
  | _, _ => .ok ⟨backend, s, .unwritten⟩

/-- A tensor of the buffer's shape replaces its contents. -/
def write (b : Buffer) (t : Tensor) : Except Error Buffer :=
  match b.backend with
  | .abstract => .error .notImplemented
  | .host =>
    if t.shape ≠ b.shape then .error (.shapeMismatch .upload t.shape b.shape)
    else .ok { b with contents := .elements t.elements }

/-- Data are converted by the device, so an abstract one does not look at them. -/
def upload (b : Buffer) (d : Data) : Except Error Buffer :=
  match b.backend with
  | .abstract => .error .notImplemented
  | .host => do
    let t ← Tensor.ofData d
    b.write t

def download (b : Buffer) : Except Error (Option (List Floating)) :=
  match b.backend with
  | .abstract => .error .notImplemented
  | .host => .ok b.elements?

/-- An element as its word in hexadecimal digits. -/
def elementText (x : Floating) : String :=
  match x.word32? with
  | some w => Text.hex 8 w.toNat
  | none => "nan"

end Buffer

namespace Backend

/-- The device that a backend runs on. -/
def device (_ : Backend) : String := "CPU"

/-- A buffer for one leaf, filled when it holds zeros. -/
def allocate (room : Nat → Bool) (backend : Backend) (leaf : Nat × Shape × Bool) :
    Except Error Buffer :=
  match backend with
  | .abstract => .error .notImplemented
  | .host =>
    (Buffer.allocate room .host leaf.2.1).map fun b =>
      if leaf.2.2 then { b with contents := .zeros } else b

/-- A buffer for every leaf of a program. -/
def bind (room : Nat → Bool) (backend : Backend) (p : Program) : Except Error Buffers :=
  p.leaves.foldlM
    (fun bufs leaf => do
      let b ← backend.allocate room leaf
      return bufs.insert leaf.1 b)
    Table.empty

end Backend

namespace Buffers

def getBuffer (bufs : Buffers) (id : Int) : Except Error Buffer :=
  match (if 0 ≤ id then Table.get? bufs id.toNat else none) with
  | some b => .ok b
  | none => .error (.missingBuffer id)

def upload (bufs : Buffers) (id : Int) (d : Data) : Except Error Buffers := do
  let b ← bufs.getBuffer id
  let b ← b.upload d
  return Table.insert bufs id.toNat b

def download (bufs : Buffers) (id : Int) : Except Error (Shape × Option (List Floating)) := do
  let b ← bufs.getBuffer id
  let contents ← b.download
  return (b.shape, contents)

end Buffers

end TensorGraph
