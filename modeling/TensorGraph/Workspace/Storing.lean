import TensorGraph.Network.Attribute
import TensorGraph.Workspace.Building

/-!
# Objects of a workspace

Objects are looked up where they are needed and new ones are stored as they come. What is built
becomes a new handle, and an object that is stored stays where it is.
-/

namespace TensorGraph.Workspace

def object (a : Address) : Work (Option Object) := fun w => .ok (w.heap.get? a) w

/-- What the objects at hand tell. -/
def asking {α : Type} (f : Heap → α) : Work α := fun w => .ok (f w.heap) w

/-- Stores something new. -/
def storing (f : Heap → Address × Heap) : Work Address := fun w =>
  let heap := w.heap
  let w := { w with heap := ⟨#[]⟩ }
  let (a, heap) := f heap
  .ok a { w with heap }

def newObject (o : Object) : Work Address := storing (Heap.alloc o)

def newValue (v : Value) : Work Address := storing (Heap.ofValue v)

/-- Changes what is stored. -/
def changing (f : Heap → Heap) : Work Unit := fun w => .ok () { w with heap := f w.heap }

/-- Computes on objects. -/
def onHeap {α : Type} (f : Heap → Except Error (α × Heap)) : Work α := fun w =>
  match f w.heap with
  | .ok (x, heap) => .ok x { w with heap }
  | .error e => .error e w

/-- A new handle. -/
def hold (e : Expr) : Work Address := newObject (.expr e)

/-- A new handle with any parts. -/
def holdHandle (h : Handle) : Work Address :=
  match h.expr? with
  | some e => hold e
  | none => newObject (.stray h)

/-- An index as an object. -/
def indexObject : Index → Work Address
  | .int n => newValue (.int n)
  | .object a => pure a

def isHandle (a : Address) : Work Bool := fun w =>
  match w.heap.get? a with
  | some (.expr _) | some (.stray _) => .ok true w
  | _ => .ok false w

/-- That an object has no attribute of a name. -/
def lacks {α : Type} (a : Address) (name : String) : Work α := fun w =>
  .error (w.heap.missing a name) w

/-- An error about an object, of which the type is told. -/
def reject {α : Type} (error : TypeName → Error) (a : Address) : Work α := fun w =>
  .error (error (w.heap.typeName a)) w

/-- That an object does not do what it is asked. -/
def decline {α : Type} (why : TypeName → Refusal) (a : Address) : Work α :=
  reject (fun type => .refused (why type)) a

/-- Does something else where errors of a kind come up; what was done before stays. -/
def orElse {α : Type} (x : Work α) (covers : Error → Bool) (y : Work α) : Work α := fun w =>
  match x w with
  | .ok v w => .ok v w
  | .error e w => if covers e then y w else .error e w

theorem hold_eq (e : Expr) (w : Workspace) :
    hold e w = .ok w.heap.size { w with heap := (w.heap.alloc (.expr e)).2 } := rfl

end TensorGraph.Workspace
