import TensorGraph.Grid.Arithmetic
import TensorGraph.Network.Object

/-!
# Arithmetic of objects

Operators apply to plain values as well as to expressions. A sequence can be joined to one of its
type and be repeated a whole number of times; where it meets a number of a fixed width otherwise, or
a grid at all, it is taken for a grid. What has no arithmetic is reported by its type. What classes
say about the arithmetic of their members comes later.
-/

namespace TensorGraph

/-- What can be joined and repeated beside texts. A shape is the tuple of its dimensions. -/
inductive Sequence where
  | list (items : List Address)
  | tuple (items : List Address)
deriving Repr, Inhabited

namespace Sequence

def typeName : Sequence → TypeName
  | .list _ => ⟨"list", none⟩
  | .tuple _ => ⟨"tuple", none⟩

def items : Sequence → List Address
  | .list items => items
  | .tuple items => items

def join? : Sequence → Sequence → Option Sequence
  | .list xs, .list ys => some (.list (xs ++ ys))
  | .tuple xs, .tuple ys => some (.tuple (xs ++ ys))
  | _, _ => none

/-- The sequence a number of times over. -/
def times (n : Nat) : Sequence → Sequence
  | .list items => .list (n.repeat (items ++ ·) [])
  | .tuple items => .tuple (n.repeat (items ++ ·) [])

def repeated (s : Sequence) (count : Int) : Except Error Sequence :=
  (Repetition.times Repetition.listMemory s.items.length count).map fun n => s.times n

def object : Sequence → Object
  | .list items => .list items
  | .tuple items => .tuple items

end Sequence

namespace Heap

/-- An object as an atom. -/
def atom (h : Heap) (a : Address) : Atom :=
  match h.get? a with
  | some (.value v) => .value v
  | _ => .object a (h.typeName a)

/-- An object as a sequence; the dimensions of a shape are stored first. -/
def sequence? (h : Heap) (a : Address) : Option (Sequence × Heap) :=
  match h.get? a with
  | some (.shape s _) =>
    let (items, h) := h.ofValues (Value.ofDims s)
    some (.tuple items, h)
  | some (.list items) => some (.list items, h)
  | some (.tuple items) => some (.tuple items, h)
  | _ => none

def isSequence (h : Heap) (a : Address) : Bool := (h.sequence? a).isSome

def isGrid (h : Heap) (a : Address) : Bool :=
  match h.get? a with
  | some (.grid _) => true
  | _ => false

/-- Whether two objects meet as grids. -/
def meetAsGrids (h : Heap) (op : Operator) (l r : Address) : Bool :=
  h.isGrid l || h.isGrid r ||
    (op != .mul &&
      ((h.isSequence l && (h.atom r).isSized) || ((h.atom l).isSized && h.isSequence r)))

/-- Joins an object to a sequence. -/
def join (h : Heap) (s : Sequence) (r : Address) : Except Error (Address × Heap) :=
  match h.sequence? r with
  | none => .error (.notJoinable s.typeName (h.typeName r))
  | some (t, h') =>
    match s.join? t with
    | some u => .ok (h'.alloc u.object)
    | none => .error (.notJoinable s.typeName (h.typeName r))

/-- Repeats a sequence as many times as an object says. -/
def repeatBy (h : Heap) (s : Sequence) (count : Address) : Except Error (Address × Heap) :=
  match (h.atom count).count? with
  | none => .error (.notRepeatable (h.typeName count))
  | some n => (s.repeated n).map fun s => h.alloc s.object

/-- An operator between two objects that do not meet as grids. A product repeats the left object if
it is a sequence or a text, else the right one. -/
def combine (h : Heap) (op : Operator) (l r : Address) : Except Error (Address × Heap) :=
  match op, h.sequence? l, (h.atom l).text?, h.sequence? r with
  | .add, some (s, h), _, _ => h.join s r
  | .mul, some (s, h), _, _ => h.repeatBy s r
  | .mul, none, none, some (s, h) => h.repeatBy s l
  | _, _, _, _ => (Atom.combine op (h.atom l) (h.atom r)).map fun v => h.alloc (.value v)

/-- The sign of an object that is no grid turned round. -/
def negate (h : Heap) (a : Address) : Except Error (Address × Heap) :=
  (h.atom a).negate.map fun v => h.alloc (.value v)

/-- An atom as an object; a value becomes a new one. -/
def ofAtom (h : Heap) : Atom → Address × Heap
  | .value v => h.alloc (.value v)
  | .object a _ => (a, h)

end Heap

end TensorGraph
