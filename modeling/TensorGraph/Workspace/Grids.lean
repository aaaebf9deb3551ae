import TensorGraph.Network.Arithmetic
import TensorGraph.Workspace.Handles

/-!
# Objects as grids

What an object is where it meets a number of a fixed width or a grid. Values are atoms and sequences
are rows. Any other object may describe itself, give a grid for itself, or be a row because it has a
length and items; otherwise it is an atom too.
-/

namespace TensorGraph.Workspace

/-- Whether an object is one of those that meet grids without being asked. -/
def isBasic (h : Heap) (a : Address) : Bool :=
  match h.get? a with
  | some (.value _) | some (.grid _) | some (.list _) | some (.tuple _) | some (.dict _) => true
  | _ => false

/-- An attribute that tells of an object as a grid. That of a class is meant for its members. -/
def gridAttribute? (call : Caller) (a : Address) (name : String) : Work (Option Address) := do
  let found ← attribute? call a name
  asking fun h =>
    let isForMembers (item : Address) : Bool :=
      h.isFunction item || (h.inClass? item "__get__").isSome
    found.filter fun item => !((h.madeClass? a).isSome && isForMembers item)

def wholeNumber (call : Caller) (a : Address) : Work Int := do
  match ← special? call a "__int__" with
  | some f =>
    let outcome ← call f []
    match ← object outcome with
    | some (.value (.int n)) => return n
    | some (.value (.bool b)) => return if b then 1 else 0
    | _ => decline (.notItsNumber "__int__" "int") outcome
  | none =>
    match ← integer? call a with
    | some n => return n
    | none => decline .notWhole a

def floatingNumber (call : Caller) (a : Address) : Work Value := do
  match ← special? call a "__float__" with
  | some f =>
    let outcome ← call f []
    match ← object outcome with
    | some (.value (.float digits)) => return .sizedFloat digits
    | some (.value (.undefined _)) => return .sizedFloat "nan"
    | _ => do
      let owner ← asking fun h => (h.typeName a).within 50
      decline (.notItsNumber (owner ++ ".__float__") "float") outcome
  | none =>
    match ← integer? call a with
    | some n => return .sizedFloat (Number.Floating.ofInt Number.binary64 n).text
    | none => decline .notFloating a

def elementOf (call : Caller) (type : ElementType) (a : Address) : Work Atom := do
  match type with
  | .integer width => do
    let n ← wholeNumber call a
    if Width.word.holds n then return .value (.sized width (width.wrap n))
    else throw (.beyondWord Width.word)
  | .float => .value <$> floatingNumber call a
  | .truth => do return .value (.bool (← isTrue call a))
  | _ => asking fun h => h.atom a

def describedType (item : Option Address) : Work ElementType := do
  match ← item.mapM object with
  | none => throw (.refused .noElementType)
  | some (some (.value (.text s))) =>
    match ElementType.ofText? s with
    | some type => return type
    | none => throw (.refused (.unknownElementType s))
  | _ => throw (.refused .elementTypeNotText)

/-- The dimensions in a description, which have to be there if the elements are. -/
def describedDims (call : Caller) (item data : Option Address) : Work (List Nat) := do
  match item, data with
  | none, none => return []
  | none, some _ => throw (.refused .noElementShape)
  | some item, _ =>
    match ← object item with
    | some (.tuple dims) =>
      dims.mapM fun a => do
        match ← integer? call a with
        | some n => return n.toNat
        | none => decline .notAnInteger a
    | _ => throw (.refused .elementShapeNotTuple)

/-- What stands in the place of elements has to be a place where there are none. -/
def checkElements (a data : Address) : Work Unit := do
  match ← object data with
  | some (.tuple [place, _]) =>
    match ← asking fun h => (h.value? place).map Value.typeName,
      ← asking fun h => h.isTrue place with
    | some ⟨"int", _⟩, false | some ⟨"bool", _⟩, false => pure ()
    | some ⟨"int", _⟩, true | some ⟨"bool", _⟩, true => throw .outOfMemory
    | _, _ => throw (.refused .placeNotWhole)
  | some (.tuple _) => throw (.refused .notAPlace)
  | _ => decline .notBytes (if ← asking fun h => h.isNone data then a else data)

/-- The grid that an object describes. Without elements the object is the only one. -/
def describedGrid (call : Caller) (a : Address) (entries : Entries) : Work Grid := do
  let part (name : String) : Option Address := entries.get? (.text name)
  let type ← describedType (part "typestr")
  let dims ← describedDims call (part "shape") (part "data")
  match part "data" with
  | some data => checkElements a data
  | none => pure ()
  let size := (Shape.mk dims).size
  if 1 < size then throw (.refused .singleForMany)
  let element ← elementOf call type a
  return ⟨type, dims, if size = 0 then [] else [element]⟩

def toldGrid? (call : Caller) (a : Address) : Work (Option Grid) := do
  if (← gridAttribute? call a "__array_struct__").isSome then throw (.refused .notElements)
  match ← gridAttribute? call a "__array_interface__" with
  | some item =>
    match ← object item with
    | some (.dict entries) => some <$> describedGrid call a entries
    | _ => throw (.refused .notDescription)
  | none =>
    match ← gridAttribute? call a "__array__" with
    | none => return none
    | some f =>
      match ← object (← call f []) with
      | some (.grid g) => return some g
      | _ => throw (.refused .notGrid)

/-- The items of an object with a length, for which there has to be memory. -/
def rowItems (call : Caller) (a : Address) (length : Int) : Work (List Address) := do
  let source ← orElse (Source.of call a) (fun e => e.category = .type) (throw (.refused .notARow))
  if (Repetition.listMemory : Int) < length then throw .outOfMemory
  let items ← source.foldM call (fun items item => return item :: items) []
  return items.reverse

/-- The items of an object that is a row: it has a length and looks items up, but not by keys. -/
def row? (call : Caller) (a : Address) : Work (Option (List Address)) := do
  if (← asking fun h => h.inClass? a "__getitem__").isNone then return none
  else
    match ← orElse (lengthOf? call a) (fun e => e.category != .depth && e.category != .memory)
        (pure none) with
    | none => return none
    | some length => orElse (some <$> rowItems call a length) Error.isOfKey (pure none)

/-- What an object is among grids. -/
inductive GridForm where
  | atom (x : Atom)
  | grid (g : Grid)
  | row (items : List Address)
deriving Repr, Inhabited

def gridForm (call : Caller) (a : Address) : Work GridForm := do
  match ← object a with
  | some (.list items) | some (.tuple items) => return .row items
  | some (.grid g) => return .grid g
  | o =>
    if ← asking fun h => isBasic h a then .atom <$> asking fun h => h.atom a
    else
      match ← toldGrid? call a, o with
      | some g, _ => return .grid g
      | none, some (.shape s _) => .row <$> onHeap fun h => .ok (h.ofValues (Value.ofDims s))
      | none, _ =>
        match ← row? call a with
        | some items => return .row items
        | none => .atom <$> asking fun h => h.atom a

/-- Objects nested in one another, at most `depth` deep. -/
def nestedOf (call : Caller) : Nat → Address → Work (Nested Atom)
  | 0, _ => return .branch []
  | depth + 1, a => do
    match ← gridForm call a with
    | .atom x => return .leaf x
    | .grid g => return g.toNested
    | .row items => .branch <$> items.mapM (nestedOf call depth)

/-- An object as a grid. Sequences may hold themselves, so they are followed just one step deeper
than grids go. -/
def gridOf (call : Caller) (a : Address) : Work Grid := do
  match ← gridForm call a with
  | .atom x => return Grid.ofAtom x
  | .grid g => return g
  | .row items => do
    let items ← items.mapM (nestedOf call Shape.rankLimit)
    ofExcept (Grid.ofNested (.branch items))

/-- A grid as an object. One atom without dimensions stands for itself. -/
def newGrid (g : Grid) : Work Address := do
  match g.dims, g.atoms with
  | [], [x] => storing fun h => h.ofAtom x
  | _, _ => newObject (.grid g)

end TensorGraph.Workspace
