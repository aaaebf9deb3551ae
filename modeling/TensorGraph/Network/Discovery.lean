import TensorGraph.Network.Attribute
import TensorGraph.Table

/-!
# What objects hold

Finding the parameters of a network means going through an object and all that it holds. Here is
what an object holds, each part with a name, where no class has a say in it: the items of a
container, the entries of a dictionary, what a function captures, the attributes of anything else. A
class holds nothing.
-/

namespace TensorGraph

/-- The node kinds that handles refer to, across arenas. -/
abbrev Arenas := Array Arena

namespace Arenas

def of? (arenas : Arenas) (e : Expr) : Option Arena := arenas[e.arena]?

def node? (arenas : Arenas) (e : Expr) : Option Node := (arenas.of? e).bind fun a => a.at? e.index

def getNode (arenas : Arenas) (e : Expr) : Except Error Node :=
  match arenas.node? e with
  | some n => .ok n
  | none => .error (.absent e.index)

/-- The parameters below an expression. -/
def parametersOf (arenas : Arenas) (e : Expr) : Except Error (List Expr) :=
  match (arenas.of? e).bind fun a => a.parameters? e.index with
  | some ps => .ok (ps.map fun i => ⟨e.arena, i⟩)
  | none => .error (.absent e.index)

end Arenas

/-- The name of a part of an object. -/
def joinName (path part : String) : String := if path.isEmpty then part else path ++ "." ++ part

/-- Attributes whose name starts with an underscore are private. -/
def isPrivate (name : String) : Bool := name.toList.head? == some '_'

/-- Objects with the names of the parts that they are. -/
abbrev Parts := List (String × Address)

namespace Heap

open Number.Numeral (digitLimit)

def isCallable (h : Heap) (a : Address) : Bool :=
  match h.get? a with
  | some (.member (.layer _) ..) | some (.function ..) | some (.method ..) | some (.bound ..)
  | some (.type _) => true
  | some (.member c ..) => h.hasInClass c "__call__"
  | _ => false

def numbered (items : List Address) : Parts := ((List.range items.length).map toString).zip items

def visible (entries : Entries) : Except Error Parts :=
  entries.foldlM
    (fun found e =>
      match e.1 with
      | .text name => .ok (if isPrivate name then found else found ++ [(name, e.2)])
      | key => .error (.noAttribute key.typeName "startswith"))
    []

/-- A function, also one whose first argument is given, with its attributes. -/
def function? (h : Heap) (a : Address) : Option (Function × Address) :=
  match h.get? a with
  | some (.function f attrs) => some (f, attrs)
  | some (.method f _) =>
    match h.get? f with
    | some (.function f attrs) => some (f, attrs)
    | _ => none
  | _ => none

/-- The attributes of an object whose class is not made, except for classes. -/
def attributesOf (h : Heap) (a : Address) : Entries :=
  match h.get? a, h.function? a with
  | some (.member _ attrs _), _ => h.entries attrs
  | _, some (_, attrs) => h.entries attrs
  | _, _ => []

/-- An entry of a dictionary, by the text of its key. -/
def entryPart (digits : Option Nat) (e : Value × Address) : Except Error (String × Address) := do
  return (← e.1.shown digits, e.2)

/-- What a function captures, by its name. -/
def capturedPart : String × Option Address → Except Error (String × Address)
  | (name, some item) => .ok (name, item)
  | (_, none) => .error .emptyCell

/-- What an object holds that is a container, or a function that captures something. All names and
all that is captured are told before any part is looked into. -/
def contents? (h : Heap) (a : Address) : Option (Except Error Parts) :=
  match h.get? a, h.function? a with
  | some (.list items), _ | some (.tuple items), _ => some (.ok (numbered items))
  | some (.dict entries), _ => some (entries.mapM (entryPart (some digitLimit)))
  | some (.shape ..), _ => some (.ok [])
  | _, some (f, _) => if f.captured.isEmpty then none else some (f.captured.mapM capturedPart)
  | _, _ => none

end Heap

end TensorGraph
