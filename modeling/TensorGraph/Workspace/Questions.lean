import TensorGraph.Workspace.Calling

/-!
# Questions about handles

What a handle refers to, its operands, and all that is below it. For an expression the arena
answers; for any other handle its store is asked, one index after the other, and indices are told
apart as keys are. What is no handle answers by attributes of its own.
-/

namespace TensorGraph.Workspace

def ask (a : Address) (name : String) (xs : List Address) : Work Address := do
  call (← getAttribute call a name) xs

/-- Goes through the indices below those on the pile, at most `bound` of them. -/
def reachFrom (store : Store) (known : Index → Work Bool) : Nat → KeySet → List Index → Work KeySet
  | 0, _, _ => throw .outOfMemory
  | _, seen, [] => return seen
  | bound + 1, seen, i :: pile => do
    let operands ← operandIndices call ⟨store, i⟩
    let (seen, pile) ← operands.foldlM
      (fun (seen, pile) c => do
        if (← seen.has call c) || (← known c) then return (seen, pile)
        else return (← seen.push call c, c :: pile))
      (seen, pile)
    reachFrom store known bound seen pile

/-- Whether all operands of all nodes were given as plain integers. -/
def hasPlainOperands : Work Bool := fun w => .ok w.operandForms.isEmpty w

/-- The root and the numbers below it that are not `known`, where an arena knows all of them. -/
def orderInArena (e : Expr) (known : Nat → Bool) : Work (List Index) := fun w =>
  match (w.arenas.of? e).bind fun a => a.reach? known e.index with
  | some order => .ok (order.map .int) w
  | none => .error (.absent e.index) w

/-- The index of a handle and all below it that are not known, operands first. Where only integers
are known, an arena knows all of them. -/
def orderOf (x : Handle) (knownNode : Option (Nat → Bool)) (known : Index → Work Bool) :
    Work (List Index) := do
  match x.expr?, ← hasPlainOperands, knownNode with
  | some e, true, some knownNode => orderInArena e knownNode
  | _, _, _ => do
    let root ← KeySet.push {} call x.index
    let seen ← reachFrom x.store known Source.bound root [x.index]
    seen.sort call

def orderBelow (x : Handle) : Work (List Index) :=
  orderOf x (some fun _ => false) (fun _ => return false)

def isKindAt (store : Store) (kind : Kind) (i : Index) : Work Bool := do
  match store, i with
  | .arena arena, .int n => return (← getNode ⟨arena, n⟩).kind = kind
  | _, _ => do
    let r ← referent call ⟨store, i⟩
    isOfKind.isKind kind (← referentPart call r "kind")

/-- The group in which a visitor meets what is at an index of a store. -/
def visitGroup (store : Store) (i : Index) : Work String := do
  let r ← referent call ⟨store, i⟩
  match r with
  | .node _ n => return if n.kind = .param then "param" else if n.kind = .zero then "zero" else "op"
  | .object _ => do
    let kind ← referentPart call r "kind"
    if ← isOfKind.isKind .param kind then return "param"
    else if ← isOfKind.isKind .zero kind then return "zero"
    else return "op"

def visitsBelow (x : Handle) : Work (List (String × Index)) := do
  (← orderBelow x).mapM fun i => return (← visitGroup x.store i, i)

def parametersBelow (x : Handle) : Work (List Handle) := do
  let visits ← visitsBelow x
  return (visits.filter fun v => v.1 == "param").map fun v => ⟨x.store, v.2⟩

def expectKind (kind : Kind) (a : Address) : Work Unit := do
  if !(← isOfKind call kind a) then
    let actual ← getAttribute call a "kind"
    match ← object actual with
    | some (.kind actual) => throw (.kindMismatch actual kind)
    | _ => throw (.otherKind (← formatted call (← getAttribute call actual "name")) kind)

/-- All indices below an object, operands first. What is no handle may answer with anything. -/
def toposort (a : Address) : Work Address := do
  match ← asking fun h => h.handle? a with
  | some x => do newObject (.list (← (← orderBelow x).mapM indexObject))
  | none => ask a "toposort" []

def visits (a : Address) : Work (List (String × Index)) := do
  match ← asking fun h => h.handle? a with
  | some x => visitsBelow x
  | none => do
    let attrs ← newObject (.dict [])
    let _ ← ask a "accept" [← newObject (.member .plain attrs [])]
    return []

def parametersOf (a : Address) : Work (List Address) := do
  match ← asking fun h => h.handle? a with
  | some x => do (← parametersBelow x).mapM holdHandle
  | none => do itemsOf call (← ask a "parameters" [])

/-- Whether an object gives itself when a kind is expected. -/
def expect (kind : Kind) (a : Address) : Work Bool := do
  match ← asking fun h => h.handle? a with
  | some _ => do
    expectKind kind a
    return true
  | none => do
    let outcome ← ask a "expect" [← newObject (.kind kind)]
    asking fun h => h.isSame a outcome

/-- The operand of an object at a position; a negative one counts from the end. -/
def child (a : Address) (i : Int) : Work Address := do
  match ← object a with
  | some (.expr e) => do
    let operands ← operandsAt e (← getNode e)
    let handles ← operands.mapM fun c => holdHandle ⟨.arena e.arena, c⟩
    itemAt handles i .noOperandAt
  | _ => do itemOf call (← getAttribute call a "children") (.int i)

/-- Whether two objects are one handle, which need not be a truth value. -/
def same (a b : Address) : Work Address := do
  match ← asking fun h => h.handle? a with
  | some x => sameHandle call (relate call) x b
  | none => ask a "same" [b]

/-- How many of two objects differ, as keys. -/
def distinct (a b : Address) : Work Nat := do
  let code ← hashOf call a
  let other ← hashOf call b
  if code == other && (← equals call a b) then return 1 else return 2

structure Description where
  kind : Address
  shape : List Address
  name : Address
  index : Address
  operands : List Address
  text : String
deriving Repr, Inhabited

def describe (a : Address) : Work Description := do
  let kind ← getAttribute call (← getAttribute call a "kind") "name"
  let shape ← itemsOf call (← getAttribute call a "shape")
  let name ← getAttribute call a "name"
  let index ← getAttribute call a "index"
  let operands ← itemsOf call (← getAttribute call a "children")
  return ⟨kind, shape, name, index, operands, ← written call a⟩

/-- The rules of an object for the gradients of its operands. -/
structure Rules where
  operands : List Address
  rules : List (Nat × Recipe)
deriving Repr, Inhabited

def equalsLeaf (kind : Address) : Work Bool :=
  [Kind.param, Kind.zero].anyM fun k => do equals call (← newObject (.kind k)) kind

/-- The rules of an object of a kind, which has to have as many operands as the kind takes. -/
def rulesOfKind (kind : Kind) (a : Address) : Work Rules := do
  if kind.arity = 0 then return ⟨[], []⟩
  let operands ← unpack call kind.arity (← getAttribute call a "children")
  match Form.of? kind (List.range kind.arity) with
  | none => throw (.operandCount kind operands.length)
  | some form => return ⟨operands, form.rules⟩

/-- The rules of an object. There are none for what only stands for a kind. -/
def rulesOf (a : Address) : Work Rules := do
  let kind ← getAttribute call a "kind"
  match ← object kind with
  | some (.kind k) => rulesOfKind k a
  | _ =>
    if ← equalsLeaf kind then return ⟨[], []⟩
    else
      let _ ← unpack call 1 (← getAttribute call a "children")
      throw (.noGradientRule (← formatted call (← getAttribute call kind "name")))

/-- Builds the gradient of an operand of an object by its rule, from any object. -/
def carryOut (a gradient : Address) (rules : Rules) (recipe : Recipe) : Work Address :=
  recipe.carryOut algebra gradient a fun x => (rules.operands[x]?).getD a

end TensorGraph.Workspace
