import TensorGraph.Workspace.Labels

/-!
# Finding parameters

A search goes through an object and all that it holds, each object once, and collects the parameters
that it meets. A handle of another node leads to all parameters below it; where parameters are
named, only those that are held themselves count. Classes have a say in what their members hold:
they are asked for it as for any attribute.
-/

namespace TensorGraph

abbrev LabelledParts := List (Label × Address)

/-- Handles, each once, told apart as keys are. -/
structure HandleSet where
  exprs : Std.HashSet Expr := ∅
  /-- Handles that are no expressions. -/
  codes : KeyCodes := []
  /-- All of them, the last one first. -/
  items : List Address := []

instance : Inhabited HandleSet := ⟨{}⟩

namespace Workspace

/-- Whether a handle is, or equals, one of some others. -/
def isHandleAmong (a : Address) : List Address → Work Bool
  | [] => return false
  | b :: bs => do if ← equals call b a then return true else isHandleAmong a bs

end Workspace

namespace HandleSet

/-- The expressions with a hash code. -/
def alike (s : HandleSet) : HashCode → List Expr
  | [.row 2, .arena arena, .number n] =>
    ((Workspace.integersOf [.number n]).map fun i => ⟨arena, i⟩).filter s.exprs.contains
  | _ => []

/-- Whether a handle is found. An expression finds itself. -/
def has (s : HandleSet) (a : Address) : Work Bool := do
  match ← Workspace.object a, s.codes.isEmpty with
  | some (.expr e), true => return s.exprs.contains e
  | _, _ => do
    let code ← Workspace.hashOf Workspace.call a
    let exprs ← (s.alike code).mapM Workspace.hold
    Workspace.isHandleAmong a (exprs ++ (s.codes.filter fun k => k.2 == code).map Prod.fst)

def push (s : HandleSet) (a : Address) : Work HandleSet := do
  match ← Workspace.object a with
  | some (.expr e) => return { s with exprs := s.exprs.insert e, items := a :: s.items }
  | _ => do
    let code ← Workspace.hashOf Workspace.call a
    return { s with codes := s.codes ++ [(a, code)], items := a :: s.items }

def add (s : HandleSet) (a : Address) : Work HandleSet := do
  if ← s.has a then return s else s.push a

theorem has_expr {s : HandleSet} {a : Address} {e : Expr} {w : Workspace}
    (ha : w.heap.get? a = some (.expr e)) (hs : s.codes = []) :
    s.has a w = .ok (s.exprs.contains e) w := by
  simp only [has, Workspace.object, hs, List.isEmpty_nil, bind, EStateM.bind, ha]
  rfl

theorem push_expr {s : HandleSet} {a : Address} {e : Expr} {w : Workspace}
    (ha : w.heap.get? a = some (.expr e)) :
    s.push a w = .ok { s with exprs := s.exprs.insert e, items := a :: s.items } w := by
  simp only [push, Workspace.object, bind, EStateM.bind, ha]
  rfl

end HandleSet

namespace Workspace

/-- Asks an object for its class a number of times. -/
def askClassTimes (n : Nat) (a : Address) : Work Unit :=
  (List.replicate n ()).forM fun _ => askClass call a

/-- Labels with the contents of what stands beside them, as long as there are both. -/
def zipCells : Nat → Source → Source → LabelledParts → Work LabelledParts
  | 0, _, _, _ => throw .outOfMemory
  | bound + 1, names, cells, found => do
    match ← names.step call with
    | none => return found
    | some (name, names) =>
      match ← cells.step call with
      | none => return found
      | some (cell, cells) => do
        let item ← getAttribute call cell "cell_contents"
        zipCells bound names cells (found ++ [(← labelOf name, item)])

def capturedParts (a : Address) : Work LabelledParts := do
  let names ← getAttribute call (← getAttribute call a "__code__") "co_freevars"
  let closure ← getAttribute call a "__closure__"
  let names ← Source.of call names
  let cells ← Source.of call closure
  zipCells Source.bound names cells []

/-- Whether an attribute is private, for which its name is asked. -/
def isPrivateName (key : Address) : Work Bool := do
  match ← labelOf key with
  | .text name => return isPrivate name
  | .object key => do
    let f ← getAttribute call key "startswith"
    isTrue call (← call f [← newValue (.text "_")])

def labelled (parts : Parts) : LabelledParts := parts.map fun part => (.text part.1, part.2)

/-- The attributes in what a member has for a dictionary. -/
def partsInDictionary (a : Address) : Work LabelledParts := do
  match ← object a with
  | some (.dict entries) => labelled <$> ofExcept (Heap.visible entries)
  | _ =>
    let rows ← call (← getAttribute call a "items") []
    (← Source.of call rows).foldM call
      (fun found row => do
        let (key, item) ← unpackPair call row
        if ← isPrivateName key then return found else return found ++ [(← labelOf key, item)])
      []

/-- What a member of a made class holds as attributes, if it has a dictionary. -/
def memberParts (a : Address) : Work LabelledParts := do
  match ← attribute? call a "__dict__" with
  | none => return []
  | some _ => do
    askClass call a
    partsInDictionary (← getAttribute call a "__dict__")

/-- What an object has for a closure, if it can be called. -/
def closure? (a : Address) : Work (Option Address) := do
  if ← asking fun h => h.isCallable a then attribute? call a "__closure__" else return none

def attributeParts (a : Address) : Work LabelledParts := do
  if ← asking fun h => (h.madeClassOf? a).isSome then memberParts a
  else labelled <$> ofExcept (Heap.visible (← asking fun h => h.attributesOf a))

/-- What an object holds that is no handle. -/
def partsOf (a : Address) : Work LabelledParts := do
  askClassTimes 4 a
  match ← asking fun h => h.contents? a with
  | some parts => labelled <$> ofExcept parts
  | none =>
    match ← closure? a with
    | some closure => if ← isTrue call closure then capturedParts a else attributeParts a
    | none => attributeParts a

structure Met where
  objects : Std.HashSet Address := ∅
  params : HandleSet := {}

instance : Inhabited Met := ⟨{}⟩

/-- Collects the parameters of an object, at most `depth` objects deep. -/
def collectWithin : Nat → Met → Address → Work Met
  | 0, _, _ => throw .tooDeep
  | depth + 1, s, a => do
    match ← asking fun h => h.handle? a with
    | some _ =>
      if ← isOfKind call .param a then return { s with params := ← s.params.add a }
      else if a ∈ s.objects then return s
      else
        (← parametersOf a).foldlM (collectWithin depth) { s with objects := s.objects.insert a }
    | none => do
      askClass call a
      if a ∈ s.objects then return s
      else
        let parts ← partsOf a
        parts.foldlM (fun s part => collectWithin depth s part.2)
          { s with objects := s.objects.insert a }

/-- Objects that hold one another are never met again, so a search goes no deeper than this. -/
def searchDepth (w : Workspace) : Nat := 2 * w.heap.size + 2

/-- The parameters of an object, each once. -/
def parameters (a : Address) : Work (List Handle) := do
  let met ← (fun w => collectWithin w.searchDepth {} a w : Work Met)
  asking fun h => met.params.items.reverse.filterMap h.handle?

/-- Parameters by name, and what was met on the way. -/
structure Naming where
  names : Labelled Address := {}
  met : Met := {}

instance : Inhabited Naming := ⟨{}⟩

/-- The index of a handle of a node inside a text. An integer that refers to a node has few
digits. -/
def indexText (a : Address) : Work String := do
  let index ← getAttribute call a "index"
  match ← object index with
  | some (.value (.int n)) => return toString n
  | _ => formatted call index

/-- The name of a parameter: its path, else its own name, else its index. -/
def parameterName (path : Label) (a : Address) : Work Label := do
  if ← isNamed path then return path
  let name ← getAttribute call a "name"
  if ← isTrue call name then labelOf name
  else return .text ("param" ++ (← indexText a))

def nameHandle (s : Naming) (path : Label) (a : Address) : Work Naming := do
  if !(← isOfKind call .param a) then return s
  if ← s.met.params.has a then return s
  let params ← s.met.params.push a
  return { names := ← s.names.insert (← parameterName path a) a, met := { s.met with params } }

/-- Names the parameters that an object holds, at most `depth` objects deep. -/
def nameWithin : Nat → Naming → Label → Address → Work Naming
  | 0, _, _, _ => throw .tooDeep
  | depth + 1, s, path, a => do
    match ← asking fun h => h.handle? a with
    | some _ => nameHandle s path a
    | none => do
      askClass call a
      if a ∈ s.met.objects then return s
      else
        let parts ← partsOf a
        parts.foldlM (fun s part => do nameWithin depth s (← labelBelow path part.1) part.2)
          { s with met := { s.met with objects := s.met.objects.insert a } }

def namedParameters (a : Address) (path : Label) : Work (Labelled Address) := fun w =>
  (do return (← nameWithin w.searchDepth {} path a).names : Work (Labelled Address)) w

end Workspace

end TensorGraph
