import TensorGraph.Error.Category
import TensorGraph.Workspace.Storing

/-!
# Attributes

Every object has the parts that its type gives it. A class can say what the attributes of its
members are: by functions, which are bound to a member, by objects that say what they stand for, and
by hooks, which are asked for any attribute. Whoever asks says how an object is called.
-/

namespace TensorGraph.Workspace

/-- What calls an object with arguments. -/
abbrev Caller := Address → List Address → Work Address

def fieldOf (a : Address) (name : String) : Work Address := do
  match ← asking fun h => h.field? a name with
  | some item => return item
  | none => reject (fun type => .unsetField type name) a

/-- What an object found in a class stands for, for a member or for the class alone. A function is
bound to the member, a field is looked up in it, and an object that says what it stands for is
asked. -/
def through (call : Caller) (item : Address) (member : Option Address) (type : Address) :
    Work Address := do
  match ← object item, ← asking fun h => h.inClass? item "__get__", member with
  | some (.function ..), _, some a => newObject (.method item a)
  | some (.field name), _, some a => fieldOf a name
  | _, some get, some a => call get [item, a, type]
  | _, some get, none => do
    let absent ← newValue .none
    call get [item, absent, type]
  | _, _, _ => return item

/-- What the class of an object has under a name, for the object. -/
def special? (call : Caller) (a : Address) (name : String) : Work (Option Address) := do
  match ← asking fun h => h.madeClassOf? a with
  | none => return none
  | some (type, c) =>
    match c.attrs.get? name with
    | none => return none
    | some item => some <$> through call item (some a) type

/-- The same, where an error in finding it out counts as nothing found. -/
def specialOrNone (call : Caller) (a : Address) (name : String) : Work (Option Address) :=
  orElse (special? call a name) (fun _ => true) (pure none)

/-- Whether an object found in a class is told of what is set in its place. -/
def isSetter (h : Heap) (item : Address) : Bool :=
  match h.get? item with
  | some (.field _) => true
  | _ => (h.inClass? item "__set__").isSome || (h.inClass? item "__delete__").isSome

/-- Whether an object found in a class is asked before what a member has itself. -/
def isLeading (h : Heap) (item : Address) : Bool :=
  match h.get? item with
  | some (.field _) => true
  | _ => isSetter h item && (h.inClass? item "__get__").isSome

def functionPart? (f : Function) (attrs : Address) (name : String) : Work (Option Address) := do
  match name with
  | "__closure__" =>
    if f.captured.isEmpty then some <$> newValue .none
    else
      let cells ← f.captured.mapM fun e => newObject (.cell e.2)
      some <$> newObject (.tuple cells)
  | "__code__" => some <$> newObject (.code (f.captured.map Prod.fst))
  | "__dict__" => return some attrs
  | "__name__" | "__qualname__" => some <$> newValue (.text f.name)
  | "__defaults__" =>
    if f.defaults.isEmpty then some <$> newValue .none else some <$> newObject (.tuple f.defaults)
  | "__kwdefaults__" | "__doc__" => some <$> newValue .none
  | _ => return none

/-- A part that the type of an object gives it and that cannot be hidden. -/
def fixedPart? (a : Address) (name : String) : Work (Option Address) := do
  match ← object a, name with
  | some (.function f attrs), name => functionPart? f attrs name
  | some (.member _ attrs _), "__dict__" | some (.shape _ attrs), "__dict__" => return some attrs
  | some (.code names), "co_freevars" => some <$> newValue (.tuple (names.map .text))
  | some (.cell item), "cell_contents" =>
    match item with
    | some item => return some item
    | none => throw .emptyCell
  | some (.kind k), "name" => some <$> newValue (.text k.name)
  | some (.kind k), "value" => some <$> newValue (.text k.word)
  | some (.value (.sized ..)), "shape" | some (.value (.sizedFloat _)), "shape" =>
    some <$> newObject (.tuple [])
  | some (.grid g), "shape" => some <$> newValue (.tuple (g.dims.map fun n => .int (Int.ofNat n)))
  | _, _ => return none

def hasFunction (h : Heap) (a : Address) (name : String) : Bool :=
  match h.get? a with
  | some (.list _) => name == "append"
  | some (.dict _) => name == "items"
  | some (.member (.layer _) ..) => name == "forward" || name == "__call__"
  | some (.value _) | some (.shape ..) | some (.tuple _) => h.guard? a name == some .shared
  | _ => false

def partOf (a : Address) (name : String) : Work Address := do
  match ← fixedPart? a name with
  | some part => return part
  | none =>
    match ← asking fun h => h.ownAttribute? a name with
    | some own => return own
    | none =>
      if ← asking fun h => hasFunction h a name then newObject (.bound name a) else lacks a name

/-- A function whose first argument is given has the parts of the function. -/
def naturalAttribute (call : Caller) (a : Address) (name : String) : Work Address := do
  match ← object a with
  | some (.method f first) =>
    if name == "__func__" then return f
    else if name == "__self__" then return first
    else partOf f name
  | some (.type _) => through call (← partOf a name) none a
  | _ => partOf a name

/-- A part that every member of a class has, unless the class puts something else there. -/
def memberPart? (h : Heap) (a type : Address) (c : MadeClass) (name : String) : Option Address :=
  match h.get? a with
  | some (.member _ attrs _) =>
    if name == "__class__" then some type
    else if name == "__dict__" && c.layout.hasDictionary then some attrs
    else none
  | _ => none

/-- An attribute of a member of a class that is asked for no hook. What is told of changes comes
before what the member has itself, and anything else in its class after that. -/
def plainAttribute (call : Caller) (a type : Address) (c : MadeClass) (name : String) :
    Work Address := do
  let own ← asking fun h => h.ownAttribute? a name
  match c.attrs.get? name, own with
  | some item, some own =>
    if ← asking fun h => isLeading h item then through call item (some a) type else return own
  | some item, none => through call item (some a) type
  | none, own =>
    match ← asking fun h => memberPart? h a type c name, own with
    | some part, _ => return part
    | none, some own => return own
    | none, none => lacks a name

def askHook (call : Caller) (hook a type : Address) (name : String) : Work Address := do
  let f ← through call hook (some a) type
  call f [← newValue (.text name)]

/-- An attribute of a member of a class. A hook of the class may stand in for all attributes, and
another one for those that the member lacks. -/
def memberAttribute (call : Caller) (a type : Address) (c : MadeClass) (name : String) :
    Work Address :=
  let first :=
    match c.attrs.get? "__getattribute__" with
    | some hook => askHook call hook a type name
    | none => plainAttribute call a type c name
  match c.attrs.get? "__getattr__" with
  | none => first
  | some hook => orElse first Error.isOfAttribute (askHook call hook a type name)

/-- Asks an object for its class, as is done to find out what it is. -/
def askClass (call : Caller) (a : Address) : Work Unit := do
  match ← asking fun h => h.madeClassOf? a with
  | none => pure ()
  | some (type, c) =>
    let asked := some <$> memberAttribute call a type c "__class__"
    let _ ← orElse asked Error.isOfAttribute (pure none)

/-- Sets an attribute of an object. A hook of its class may do that instead, or the object that the
class has under the name. -/
def assign (call : Caller) (a : Address) (name : String) (item : Address) : Work Unit := do
  match ← special? call a "__setattr__" with
  | some f =>
    let _ ← call f [← newValue (.text name), item]
  | none =>
    match ← asking fun h => (h.inClass? a name).filter fun found => isSetter h found with
    | none => onHeap fun h => (h.setAttribute a name item).map fun h => ((), h)
    | some found =>
      match ← object found with
      | some (.field name) => changing fun h => h.setField a name item
      | _ =>
        match ← special? call found "__set__" with
        | some f =>
          let _ ← call f [a, item]
        | none => throw (.refused .noSetter)

end TensorGraph.Workspace
