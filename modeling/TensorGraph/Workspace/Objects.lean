import TensorGraph.Device.Buffer
import TensorGraph.Network.Loading
import TensorGraph.Workspace.Classes
import TensorGraph.Workspace.Differentiating
import TensorGraph.Workspace.Discovery

/-!
# Networks at work

Making objects, changing them, and loading their parameters.
-/

namespace TensorGraph.Workspace

def newMemberOf (c : Class) (attrs : Attributes) : Work Address := do
  let attrs ← newObject (.dict (Entries.ofAttributes attrs))
  newObject (.member c attrs [])

/-- A layer with a weight and, if wanted, a bias, both new parameters of the shape. -/
def newAffine (shape : Value) (bias : Bool) : Work Address := do
  let s ← ofExcept (Shape.ofValue shape)
  let weight ← hold (← param none (.shape s) (some "weight"))
  let bias ← if bias then hold (← param none (.shape s) (some "bias")) else newValue .none
  newMemberOf (.layer .affine) [("weight", weight), ("bias", bias)]

def newSequential (layers : List Address) : Work Address := do
  let layers ← newObject (.list layers)
  newMemberOf (.layer .sequential) [("layers", layers)]

/-- A dictionary; a repeated key keeps its place and takes the last object. -/
def newDict (entries : Entries) : Work Address :=
  newObject (.dict (entries.foldl (fun es e => Entries.set es e.1 e.2) []))

/-- The key of an entry, which cannot hold a list. -/
def checkEntryKey (key : Value) : Work Unit :=
  if key.hasList then throw (.unhashable ⟨"list", none⟩) else pure ()

def newFunction (body : Body) (captured : List (String × Address)) : Work Address := do
  let attrs ← newObject (.dict [])
  newObject (.function
    { name := "fn", body
      captured := (Attributes.ofEntries captured).sorted.map fun e => (e.1, some e.2) } attrs)

def newType (attrs : List (String × Address)) : Work Address := newClass call "T" attrs

def attributeName (key : Value) : Work String :=
  match key with
  | .text name => pure name
  | key => throw (.attributeNotText key.typeName)

/-- A class that says which of its methods are open has no members, unless there are none. -/
def setOpenMethods (a : Address) (c : MadeClass) (methods : Address) : Work Unit := do
  let isAbstract ← isTrue call methods
  changing fun h =>
    h.replace a (.type { c with attrs := c.attrs.set "__abstractmethods__" methods, isAbstract })

def setAttribute (a : Address) (name : String) (item : Address) : Work Unit := do
  match ← object a with
  | some (.type c) =>
    if name == "__abstractmethods__" then setOpenMethods a c item else assign call a name item
  | _ => do
    assign call a name item
    moved a

def newHolder (c : Class) (attrs : List (String × Address)) : Work Address := do
  let a ← newMemberOf c []
  attrs.forM fun e => setAttribute a e.1 e.2
  return a

/-- Puts an object at the end of a list, or hands it to what the target has in place of that. -/
def append (target item : Address) : Work Unit := do
  match ← object target with
  | some (.list items) => changing fun h => h.replace target (.list (items ++ [item]))
  | _ =>
    let _ ← call (← getAttribute call target "append") [item]

/-- Puts an object into another one: under a key, at the end of a list, or as a further layer. -/
def put (target : Address) (key : Option Value) (item : Address) : Work Unit := do
  match ← object target, key with
  | some (.dict _), key =>
    let key := key.getD .none
    checkEntryKey key
    changing fun h => h.setEntry target key item
  | some (.list _), _ => append target item
  | _, some key => do
    askClassTimes 2 target
    setAttribute target (← attributeName key) item
  | _, none => do
    askClassTimes 2 target
    append (← getAttribute call target "layers") item

/-- An outcome, after it was asked for its class. -/
def asked (x : Work Address) : Work Address := do
  let a ← x
  askClass call a
  return a

/-- The names of parameters with the numbers of their nodes, if all names are texts and all
parameters are expressions. -/
def plainParameters? (h : Heap) (params : Labelled Address) : Option (Table String Int) := do
  let entries ← params.texts?
  let numbered ← entries.mapM fun e => do return (e.1, (← (← h.handle? e.2).expr?).index)
  return numbered.foldl (fun t e => t.insert e.1 e.2) Table.empty

def plainState? (state : Labelled Data) : Option (Table String Data) :=
  state.texts?.map fun entries => entries.foldl (fun t e => t.insert e.1 e.2) Table.empty

/-- An outcome beside what is left, also where it is an error. -/
def attempt {α : Type} (x : Work α) : Work (Except Error α) := fun w =>
  match x w with
  | .ok v w => .ok (.ok v) w
  | .error e w => .ok (.error e) w

/-- The buffer for the data under a label; there is none for a label that no parameter has. -/
def bufferFor (params : Labelled Address) (c : ContextId) (strict : Bool) (l : Label) :
    Work (Option Nat) := do
  match ← params.get? l with
  | none => if strict then throw (.unexpectedKey (← labelText l)) else return none
  | some a =>
    let index ← getAttribute call a "index"
    match ← valueOf c (← asking fun h => h.indexOf index) with
    | some id => return some id
    | none => throw (.notEvaluated (← labelText l))

/-- Loads entries one after the other, until one fails. -/
def loadEntries (params : Labelled Address) (c : ContextId) (strict : Bool) :
    List (Label × Data) → Buffers → Work (Except Error Unit × Buffers)
  | [], bufs => return (.ok (), bufs)
  | (l, data) :: rest, bufs => do
    match ← attempt (bufferFor params c strict l) with
    | .error e => return (.error e, bufs)
    | .ok none => loadEntries params c strict rest bufs
    | .ok (some id) =>
      match bufs.loadInto id data with
      | .error e => return (.error e, bufs)
      | .ok bufs => loadEntries params c strict rest bufs

def checkMissing (params : Labelled Address) (state : Labelled Data) : Work Unit := do
  let missing ← params.entries.keys.toList.filterM fun l => do return (← state.get? l).isNone
  if !missing.isEmpty then
    let sorted ← sort call (← missing.mapM labelObject)
    throw (.missingLabels (← written call (← newObject (.list sorted))))

/-- Loads data by asking for the buffer of each label in turn. -/
def loadEach (params : Labelled Address) (c : ContextId) (strict : Bool) (state : Labelled Data)
    (bufs : Buffers) : Work (Except Error Unit × Buffers) := do
  match ← loadEntries params c strict state.entries.toList bufs with
  | (.ok (), bufs) =>
    if strict then return (← attempt (checkMissing params state), bufs) else return (.ok (), bufs)
  | failed => return failed

def load (a : Address) (c : ContextId) (strict : Bool) (state : Labelled Data)
    (bufs : Buffers) : Work (Except Error Unit × Buffers) := do
  let params ← namedParameters a (.text "")
  let evaluator ← contextOf c id
  match ← asking fun h => plainParameters? h params, plainState? state,
    evaluator.ties.codes.isEmpty with
  | some params, some state, true =>
    match Buffers.load params evaluator.context.values strict state bufs with
    | .ok () bufs => return (.ok (), bufs)
    | .error e bufs => return (.error e, bufs)
  | _, _, _ => loadEach params c strict state bufs

end TensorGraph.Workspace
