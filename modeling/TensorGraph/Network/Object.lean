import TensorGraph.Grid.Basic
import TensorGraph.Value.Signature

/-!
# Objects

Networks are made of objects that hold one another: containers, layers, functions and plain
holders of attributes. Objects live in a heap and are known by their address, so they can be
shared, they can form cycles, and a change is seen by all who hold them. A handle is an object too,
and the attributes of an object are a dictionary, which is an object of its own.
-/

namespace TensorGraph

/-- Functions that act on each element of one tensor. -/
inductive Pointwise where
  | node (k : Unary)
  /-- A value times its step function. -/
  | relu
deriving DecidableEq, Repr, Inhabited

/-- The result of a function, over its argument `x` and named objects. -/
inductive Body where
  | name (s : String)
  | apply (f : Pointwise) (b : Body)
  | combine (op : Operator) (l r : Body)
deriving Repr, Inhabited

/-- A value times its step function. -/
def Body.relu : Body := .combine .mul (.name "x") (.apply (.node .gtz) (.name "x"))

/-- What a layer does with its input. -/
inductive Layer where
  /-- Times the weight, plus the bias if there is one. -/
  | affine
  /-- Applies its layers from left to right. -/
  | sequential
  /-- A layer without a rule. -/
  | bare
  /-- A body over the layer's attributes. -/
  | custom (body : Body)
deriving Repr, Inhabited

/-- What an object with attributes is a member of. -/
inductive Class where
  | layer (l : Layer)
  /-- A holder of attributes, which cannot be called. -/
  | plain
  /-- A class that is an object itself. -/
  | made (type : Address)
deriving Repr, Inhabited

/-- Named objects, each name once. -/
abbrev Attributes := List (String × Address)

/-- What is in a member of a class beside the class. -/
structure Layout where
  hasDictionary : Bool := true
  hasWeakReferences : Bool := true
  /-- The names of its fields, in order. -/
  fields : List String := []
deriving DecidableEq, Repr, Inhabited

/-- A class that is an object. -/
structure MadeClass where
  name : String
  attrs : Attributes := []
  layout : Layout := {}
  /-- Whether members can be made. -/
  isAbstract : Bool := false
deriving Repr, Inhabited

/-- The entries of a dictionary, in the order in which their keys came. -/
abbrev Entries := List (Value × Address)

structure Function where
  /-- The name that messages give. -/
  name : String
  body : Body
  /-- What it captures, in the order of the names. Nothing stands for what was not set yet, or was
  deleted. -/
  captured : List (String × Option Address) := []
  /-- What the argument may be when none is given; the last one counts. -/
  defaults : List Address := []
deriving Repr, Inhabited

inductive Object where
  /-- A value that is no sequence. -/
  | value (v : Value)
  /-- A handle. -/
  | expr (e : Expr)
  /-- A handle of which a part was replaced, so it is no expression. -/
  | stray (h : Handle)
  /-- A shape with the dictionary of its attributes. -/
  | shape (s : Shape) (attrs : Address)
  | grid (g : Grid)
  | list (items : List Address)
  | tuple (items : List Address)
  | dict (entries : Entries)
  /-- A member of a class with the dictionary of its attributes and the fields that are set. -/
  | member (c : Class) (attrs : Address) (fields : Attributes)
  /-- A function with the dictionary of its attributes. -/
  | function (f : Function) (attrs : Address)
  /-- A function whose first argument is given. -/
  | method (function first : Address)
  /-- A function that the type of an object has, with the object as its first argument. -/
  | bound (name : String) (first : Address)
  /-- A class, which is never looked into. -/
  | type (c : MadeClass)
  /-- A field of the members of a class, as the class has it. -/
  | field (name : String)
  /-- What a function does, of which the names that it captures can be told. -/
  | code (names : List String)
  /-- A place where a function keeps what it captures, which can be empty. -/
  | cell (item : Option Address)
  | kind (k : Kind)
  | arena (id : ArenaId)
deriving Repr, Inhabited

/-- Values of which there is one object each: among texts the empty one and single characters of one
byte. -/
def Value.isSingle : Value → Bool
  | .none | .bool _ => true
  | .int n => decide (-5 ≤ n) && decide (n ≤ 256)
  | .text s => s.toList.all (fun c => c.toNat < 256) && s.length ≤ 1
  | _ => false

namespace Attributes

def get? (attrs : Attributes) (name : String) : Option Address :=
  (attrs.find? fun a => a.1 == name).map Prod.snd

/-- A name that is there keeps its place. -/
def set (attrs : Attributes) (name : String) (item : Address) : Attributes :=
  if attrs.any fun a => a.1 == name then
    attrs.map fun a => if a.1 == name then (name, item) else a
  else attrs ++ [(name, item)]

/-- Sets the entries one after the other, so a repeated name takes the last object. -/
def ofEntries (entries : List (String × Address)) : Attributes :=
  entries.foldl (fun attrs e => attrs.set e.1 e.2) []

/-- In the order of the names. -/
def sorted (attrs : Attributes) : Attributes := attrs.mergeSort fun a b => decide (a.1 ≤ b.1)

end Attributes

namespace Entries

/-- Keys are compared as values. -/
def get? (entries : Entries) (key : Value) : Option Address :=
  (entries.find? fun e => e.1.same key).map Prod.snd

/-- A key that is there keeps its place. -/
def set (entries : Entries) (key : Value) (item : Address) : Entries :=
  if entries.any fun e => e.1.same key then
    entries.map fun e => if e.1.same key then (e.1, item) else e
  else entries ++ [(key, item)]

def ofAttributes (attrs : Attributes) : Entries := attrs.map fun a => (.text a.1, a.2)

end Entries

structure Heap where
  objects : Array Object := #[]
deriving Repr

namespace Heap

/-- One function is there from the start, the same for all that use it. -/
def start : Heap := ⟨#[.function { name := "relu", body := .relu } 1, .dict []]⟩

/-- That function: a value times its step function. -/
def relu : Address := 0

instance : Inhabited Heap := ⟨start⟩

def size (h : Heap) : Nat := h.objects.size

def get? (h : Heap) (a : Address) : Option Object := h.objects[a]?

/-- Stores a new object. -/
def alloc (o : Object) (h : Heap) : Address × Heap := (h.size, ⟨h.objects.push o⟩)

/-- Puts an object in the place of another one. -/
def replace (h : Heap) (a : Address) (o : Object) : Heap := ⟨h.objects.setIfInBounds a o⟩

/-- The entries of a dictionary. -/
def entries (h : Heap) (a : Address) : Entries :=
  match h.get? a with
  | some (.dict entries) => entries
  | _ => []

/-- Sets an entry of a dictionary. -/
def setEntry (h : Heap) (a : Address) (key : Value) (item : Address) : Heap :=
  h.replace a (.dict ((h.entries a).set key item))

mutual

/-- Stores a value; lists and tuples become containers of their own. -/
def ofValue (v : Value) (h : Heap) : Address × Heap :=
  match v with
  | .list items =>
    let (items, h) := ofValues items h
    h.alloc (.list items)
  | .tuple items =>
    let (items, h) := ofValues items h
    h.alloc (.tuple items)
  | .shape s =>
    let (attrs, h) := h.alloc (.dict [])
    h.alloc (.shape s attrs)
  | v => h.alloc (.value v)

def ofValues (vs : List Value) (h : Heap) : List Address × Heap :=
  match vs with
  | [] => ([], h)
  | v :: vs =>
    let (a, h) := ofValue v h
    let (items, h) := ofValues vs h
    (a :: items, h)

end

/-- A class that is an object. -/
def madeClass? (h : Heap) (type : Address) : Option MadeClass :=
  match h.get? type with
  | some (.type c) => some c
  | _ => none

def className (h : Heap) : Class → String
  | .layer .affine => "Affine"
  | .layer .sequential => "Sequential"
  | .layer .bare => "Module"
  | .layer (.custom _) | .plain => "object"
  | .made type => ((h.madeClass? type).map MadeClass.name).getD "object"

/-- Functions of layers and of handles are like those of a class. -/
def hasMethods (h : Heap) (first : Address) : Bool :=
  match h.get? first with
  | some (.member ..) | some (.expr _) | some (.stray ..) => true
  | _ => false

/-- The type of a function that the type of an object has. -/
def functionTypeName (h : Heap) (first : Address) : TypeName :=
  if h.hasMethods first then ⟨"function", none⟩ else ⟨"builtin_function_or_method", none⟩

/-- The type of such a function with the object as its first argument. -/
def boundTypeName (h : Heap) (first : Address) : TypeName :=
  if h.hasMethods first then ⟨"method", none⟩ else ⟨"builtin_function_or_method", none⟩

def typeName (h : Heap) (a : Address) : TypeName :=
  match h.get? a with
  | some (.value v) => v.typeName
  | some (.expr _) | some (.stray ..) => Expr.typeName
  | some (.shape s _) => (Value.shape s).typeName
  | some (.grid _) => Grid.typeName
  | some (.list _) => ⟨"list", none⟩
  | some (.tuple _) => ⟨"tuple", none⟩
  | some (.dict _) => ⟨"dict", none⟩
  | some (.member c ..) => ⟨h.className c, none⟩
  | some (.function ..) => ⟨"function", none⟩
  | some (.method ..) => ⟨"method", none⟩
  | some (.bound _ first) => h.boundTypeName first
  | some (.type ..) => ⟨"type", none⟩
  | some (.field _) => ⟨"member_descriptor", none⟩
  | some (.code _) => ⟨"code", none⟩
  | some (.cell _) => ⟨"cell", none⟩
  | some (.kind _) => ⟨"Kind", none⟩
  | some (.arena _) => ⟨"Arena", none⟩
  | none => ⟨"object", none⟩

/-- An object as a value, where it is one. -/
def value? (h : Heap) (a : Address) : Option Value :=
  match h.get? a with
  | some (.value v) => some v
  | some (.shape s _) => some (.shape s)
  | _ => none

/-- An object as a value with all that it holds, at most `depth` objects deep. -/
def valueWithin? (h : Heap) : Nat → Address → Option Value
  | 0, _ => none
  | depth + 1, a =>
    match h.get? a with
    | some (.list items) => .list <$> items.mapM (valueWithin? h depth)
    | some (.tuple items) => .tuple <$> items.mapM (valueWithin? h depth)
    | _ => h.value? a

/-- An object as a value, where all that it holds are values. -/
def wholeValue? (h : Heap) (a : Address) : Option Value := h.valueWithin? (h.size + 1) a

/-- An object as a handle, where it is one. -/
def handle? (h : Heap) (a : Address) : Option Handle :=
  match h.get? a with
  | some (.expr e) => some (.ofExpr e)
  | some (.stray handle) => some handle
  | _ => none

/-- Whether two objects are one. -/
def isSame (h : Heap) (a b : Address) : Bool :=
  a == b ||
    match h.get? a, h.get? b with
    | some (.value v), some (.value w) => v.isSingle && v.typeName = w.typeName && v.same w
    | some (.tuple []), some (.tuple []) => true
    | some (.kind k), some (.kind l) => k = l
    | some (.arena i), some (.arena j) => i = j
    | _, _ => false

/-- Whether two stores are one. -/
def isSameStore (h : Heap) : Store → Store → Bool
  | .arena a, .arena b => a == b
  | .object a, .object b => h.isSame a b
  | _, _ => false

/-- An object where an expression is expected. -/
def operand (h : Heap) (a : Address) : Operand :=
  match h.get? a with
  | some (.expr e) => .expr e
  | _ => .other (h.typeName a)

/-- The objects that going through an object yields. -/
def iterate (h : Heap) (a : Address) : Except Error (List Address × Heap) :=
  match h.get? a with
  | some (.list items) | some (.tuple items) => .ok (items, h)
  | some (.dict entries) => .ok (h.ofValues (entries.map Prod.fst))
  | some (.shape s _) => .ok (h.ofValues (Value.ofDims s))
  | some (.value (.text s)) => .ok (h.ofValues (Value.characters s))
  | _ => .error (.notIterable (h.typeName a))

/-- Whether an object is the absent value. -/
def isNone (h : Heap) (a : Address) : Bool :=
  match h.get? a with
  | some (.value .none) => true
  | _ => false

/-- What counts as true: of values and containers all but zero and what is empty, and all else. -/
def isTrue (h : Heap) (a : Address) : Bool :=
  match h.get? a with
  | some (.value v) => v.isTrue
  | some (.shape s _) => (Value.shape s).isTrue
  | some (.list items) | some (.tuple items) => !items.isEmpty
  | some (.dict entries) => !entries.isEmpty
  | _ => true

theorem get?_alloc (h : Heap) (o : Object) (a : Address) :
    (h.alloc o).2.get? a = if a = h.size then some o else h.get? a :=
  Array.getElem?_push ..

end Heap

end TensorGraph
