import TensorGraph.Network.Guard

/-!
# Attributes

An object has attributes of its own and those of its class. Setting one changes the dictionary of
the object; the dictionary as a whole, the class and the parts of a handle can be replaced as well.
Here objects are taken as they are: what classes say about the attributes of their members comes
later.
-/

namespace TensorGraph

namespace Heap

/-- The class of an object that is a member of a made one. -/
def madeClassOf? (h : Heap) (a : Address) : Option (Address × MadeClass) :=
  match h.get? a with
  | some (.member (.made type) ..) => (h.madeClass? type).map fun c => (type, c)
  | _ => none

def inClass? (h : Heap) (a : Address) (name : String) : Option Address :=
  (h.madeClassOf? a).bind fun c => c.2.attrs.get? name

def ownAttribute? (h : Heap) (a : Address) (name : String) : Option Address :=
  match h.get? a with
  | some (.member _ attrs _) | some (.shape _ attrs) | some (.function _ attrs) =>
    inDictionary attrs
  | some (.method f _) =>
    match h.get? f with
    | some (.function _ attrs) => inDictionary attrs
    | _ => none
  | some (.type c) => c.attrs.get? name
  | _ => none
where
  inDictionary (attrs : Address) : Option Address := (h.entries attrs).get? (.text name)

/-- That an object has no attribute of a name. A function is asked for its methods. -/
def missing (h : Heap) (a : Address) (name : String) : Error :=
  match h.get? a with
  | some (.type c) => .noClassAttribute c.name name
  | some (.method f _) => .noAttribute (h.typeName f) name
  | some (.bound _ first) => .noAttribute (h.functionTypeName first) name
  | _ => .noAttribute (h.typeName a) name

/-- That an attribute of an object cannot be set, since it has no place for it. -/
def noPlaceFor (h : Heap) (a : Address) (name : String) : Error := .noPlaceFor (h.typeName a) name

def isFunction (h : Heap) (a : Address) : Bool :=
  match h.get? a with
  | some (.function ..) => true
  | _ => false

/-- What is in an object beside its class, if that can be known. -/
def layout? (h : Heap) (a : Address) : Option Layout :=
  match h.get? a with
  | some (.member (.made type) ..) => (h.madeClass? type).map MadeClass.layout
  | some (.member ..) => some {}
  | some (.expr _) | some (.stray _) =>
    some { hasDictionary := false, hasWeakReferences := false, fields := ["_arena", "_index"] }
  | _ => none

def handleFields (h : Heap) (handle : Handle) : Attributes × Heap :=
  let (store, h) :=
    match handle.store with
    | .arena id => h.alloc (.arena id)
    | .object a => (a, h)
  let (index, h) :=
    match handle.index with
    | .int n => h.alloc (.value (.int n))
    | .object a => (a, h)
  ([("_arena", store), ("_index", index)], h)

/-- Makes an object a member of a class, whose members have to be laid out like it. Fields keep what
they hold. -/
def setClass (h : Heap) (a item : Address) : Except Error Heap :=
  match h.madeClass? item with
  | none => .error (.notAClass (h.typeName item))
  | some c =>
    match h.get? a, h.layout? a with
    | some (.member _ attrs fields), some layout =>
      if layout = c.layout then .ok (h.replace a (.member (.made item) attrs fields))
      else .error (.otherLayout c.name (h.typeName a))
    | some (.shape ..), _ => .error (.otherLayout c.name (h.typeName a))
    | _, some layout =>
      if layout = c.layout then
        let (fields, h) := ((h.handle? a).map h.handleFields).getD ([], h)
        let (attrs, h) := h.alloc (.dict [])
        .ok (h.replace a (.member (.made item) attrs fields))
      else .error (.otherLayout c.name (h.typeName a))
    | _, none => .error .fixedClass

def setDictionary (h : Heap) (a item : Address) : Except Error Heap :=
  match h.get? a with
  | some (.member c _ fields) =>
    if (h.layout? a).all Layout.hasDictionary then put fun item => .member c item fields
    else .error (h.noPlaceFor a "__dict__")
  | some (.shape s _) => put (.shape s)
  | some (.function f _) => put (.function f)
  | some (.type ..) => .error (.fixedAttribute "type" "__dict__")
  | _ => .error (h.noPlaceFor a "__dict__")
where
  put (o : Address → Object) : Except Error Heap :=
    match h.get? item with
    | some (.dict _) => .ok (h.replace a (o item))
    | _ => .error (.notADictionary (h.typeName item))

/-- The objects that a tuple holds; the dimensions of a shape are stored first. -/
def tupleItems (h : Heap) (a : Address) : List Address × Heap :=
  match h.get? a with
  | some (.tuple items) => (items, h)
  | some (.shape s _) => h.ofValues (Value.ofDims s)
  | _ => ([], h)

/-- Sets an attribute of a function. Of its parts the name for messages and the defaults count. -/
def setFunctionAttribute (h : Heap) (a : Address) (f : Function) (attrs : Address) (name : String)
    (item : Address) : Except Error Heap :=
  match PartKind.ofName? name with
  | some kind =>
    if !kind.admits h item then .error (.wrongPart name kind.word)
    else
      match name, h.get? item with
      | "__qualname__", some (.value (.text s)) =>
        .ok (h.replace a (.function { f with name := s } attrs))
      | "__defaults__", _ =>
        let (defaults, h) := h.tupleItems item
        .ok (h.replace a (.function { f with defaults } attrs))
      | _, _ => .ok h
  | none =>
    if name == "__doc__" || name == "__module__" then .ok h
    else .ok (h.setEntry attrs (.text name) item)

/-- The base whose members are laid out for a class with the bases given: the first one with fields
of its own, or else the first. -/
def leadingBase? (h : Heap) (bases : List Address) : Option MadeClass :=
  let classes := bases.filterMap h.madeClass?
  match classes.find? fun c => !c.layout.fields.isEmpty with
  | some c => some c
  | none => classes.head?

/-- Why a class cannot have the bases given. No class can take the place of the common base of all
objects. -/
def basesFault (h : Heap) (a : Address) (className : String) (item : Address) : Refusal :=
  match h.get? item with
  | some (.tuple []) => .noBases className
  | some (.tuple bases) =>
    match bases.find? fun b => b == a || (h.madeClass? b).isNone with
    | some b => if b = a then .cyclicBases else .baseNotClass className (h.typeName b)
    | none => .otherBase (((h.leadingBase? bases).map MadeClass.name).getD className)
  | some (.shape s _) =>
    if s.dims.isEmpty then .noBases className else .baseNotClass className ⟨"int", none⟩
  | _ => .basesNotTuple className (h.typeName item)

/-- Sets an attribute of a class, whose name has to be a text. -/
def setClassAttribute (h : Heap) (a : Address) (c : MadeClass) (name : String) (item : Address) :
    Except Error Heap :=
  if name == "__name__" || name == "__qualname__" then
    match h.get? item with
    | some (.value (.text s)) =>
      if name == "__qualname__" then .ok h
      else if s.toList.contains '\x00' then .error (.refused .nullInName)
      else .ok (h.replace a (.type { c with name := s }))
    | _ => .error (.classNotNamed c.name name (h.typeName item))
  else if name == "__bases__" then .error (.refused (h.basesFault a c.name item))
  else .ok (h.replace a (.type { c with attrs := c.attrs.set name item }))

/-- What an object is as an index: a whole number, unless it is a truth value, is known by its
value. -/
def indexOf (h : Heap) (a : Address) : Index :=
  match h.get? a with
  | some (.value (.int n)) | some (.value (.sized _ n)) => .int n
  | _ => .object a

def isHandlePart (name : String) : Bool := name == "_arena" || name == "_index"

def setHandlePart (h : Heap) (a : Address) (handle : Handle) (name : String) (item : Address) :
    Heap :=
  let handle : Handle :=
    if name == "_index" then { handle with index := h.indexOf item }
    else { handle with store := .object item }
  match handle.expr? with
  | some e => h.replace a (.expr e)
  | none => h.replace a (.stray handle)

def setOwn (h : Heap) (a attrs : Address) (name : String) (item : Address) : Except Error Heap :=
  if (h.layout? a).all Layout.hasDictionary then .ok (h.setEntry attrs (.text name) item)
  else if (h.inClass? a name).isSome then .error (.sharedAttribute (h.typeName a) name)
  else .error (h.noPlaceFor a name)

def setField (h : Heap) (a : Address) (name : String) (item : Address) : Heap :=
  match h.get? a with
  | some (.member c attrs fields) => h.replace a (.member c attrs (fields.set name item))
  | _ => h

def field? (h : Heap) (a : Address) (name : String) : Option Address :=
  match h.get? a with
  | some (.member _ _ fields) => fields.get? name
  | _ => none

/-- Sets an attribute of an object that has attributes. What a class has under the name of its
members' class or dictionary takes its place. -/
def setAttribute (h : Heap) (a : Address) (name : String) (item : Address) : Except Error Heap :=
  if name == "__class__" && !(h.inClass? a name).isSome then h.setClass a item
  else if name == "__dict__" && !(h.inClass? a name).isSome then h.setDictionary a item
  else
    match h.guard? a name with
    | some g => .error (g.error (h.typeName a) name)
    | none =>
      match h.get? a with
      | some (.member _ attrs _) => h.setOwn a attrs name item
      | some (.shape _ attrs) => .ok (h.setEntry attrs (.text name) item)
      | some (.function f attrs) => h.setFunctionAttribute a f attrs name item
      | some (.type c) => h.setClassAttribute a c name item
      | some (.expr e) =>
        if isHandlePart name then .ok (h.setHandlePart a (.ofExpr e) name item)
        else .error (h.noPlaceFor a name)
      | some (.stray handle) =>
        if isHandlePart name then .ok (h.setHandlePart a handle name item)
        else .error (h.noPlaceFor a name)
      | _ => .error (h.noPlaceFor a name)

end Heap

end TensorGraph
