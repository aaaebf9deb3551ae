import TensorGraph.Workspace.Evaluating

/-!
# Differentiating

The gradients that a context keeps. A gradient that it hands out is the handle that it keeps, so it
changes with that handle; so does a seed, and what is summed from it alone. Where all that takes
part are nodes of an arena, the arena does the pass; otherwise handles are asked, one after the
other.
-/

namespace TensorGraph

/-- Puts a new index in the place of the gradients that a handle is. -/
def Evaluator.move (a : Address) (index : Int) (s : Evaluator) : Evaluator :=
  let grads := s.ties.owners.toList.foldl
    (fun grads (i, owner) => if owner = a then grads.insert i index else grads) s.context.grads
  { s with context := { s.context with grads } }

namespace Workspace

/-- The handles that gradients are after a pass. A gradient that was there before stays what it was,
one that refers to an older node is the seed, and all others are new. -/
def ownersAfter (owners : Std.HashMap Int Address) (before after : Table Int Int) (size : Nat)
    (seed : Option Address) : Std.HashMap Int Address :=
  after.toList.foldl
    (fun owners (i, g) =>
      if before.get? i = some g then owners
      else
        match if g < size then seed else none with
        | some a => owners.insert i a
        | none => owners.erase i)
    owners

/-- Runs a pass and keeps the handles that gradients are, also of a pass that fails. -/
def keepingOwners {α : Type} (c : ContextId) (arena : ArenaId) (seed : Option Address)
    (x : Work α) : Work α := fun w =>
  let s := w.evaluator c
  let owners := s.ties.owners
  let before := s.context.grads
  let size := (w.arenas.getD arena .empty).size
  let keep (w : Workspace) : Workspace :=
    { w with
      evaluators := w.evaluators.modify c fun s =>
        { s with ties := { s.ties with
            owners := ownersAfter owners before s.context.grads size seed } } }
  match x w with
  | .ok v w => .ok v (keep w)
  | .error e w => .error e (keep w)

/-- The gradient of a node as a handle, if it is one. -/
def gradientHandle? (h : Heap) (s : Evaluator) (store : Store) (entry : Int × Int) :
    Option Handle :=
  match s.ties.owners[entry.1]? with
  | some a => h.handle? a
  | none => some ⟨store, .int entry.2⟩

/-- Parameters with their gradients, where these are handles. -/
abbrev Gradients := List (Handle × Option Handle)

/-- Gradients of an expression with respect to its parameters, or those asked for. -/
def backwardExpr (c : ContextId) (output : Expr) (seed : Option (Address × Expr))
    (wrt : Option (List Expr)) : Work Gradients := do
  let outcome ←
    keepingOwners c output.arena (seed.map Prod.fst)
      (differentiating c output.arena
        (Differentiation.backward (.expr output) (seed.map fun s => .expr s.2)
          (wrt.map fun ps => ps.map Operand.expr)))
  record (.backward output.index outcome.liveCount outcome.gradients.length)
  let store := Store.arena output.arena
  let evaluator ← contextOf c id
  asking fun h =>
    outcome.gradients.map fun entry =>
      (⟨store, .int entry.1⟩, gradientHandle? h evaluator store entry)

/-- A default seed is asked of the store of the output. -/
def newSeed (output : Address) (x : Handle) : Work Address := do
  match x.store with
  | .arena arena => do
    match ← referent call x with
    | .node _ n => hold (← param (some arena) (.shape n.shape) (some "grad"))
    | .object _ => throw .missingNode
  | .object store => do
    let f ← getAttribute call store "param"
    let _ ← getAttribute call output "shape"
    refuseName "name" f

/-- A seed given has to have the shape of the output. -/
def checkSeed (c : ContextId) (output seed : Address) : Work Address := do
  let _ ← bind c seed
  checkShapes call .seed seed output
  return seed

def targetOf (c : ContextId) (a : Address) : Work Index := do
  let x ← bind c a
  expectKind .param a
  return x.index

def targetsOf (c : ContextId) (wrt : List Address) : Work KeySet :=
  wrt.foldlM (fun targets a => do targets.add call (← targetOf c a)) {}

/-- Whether what is at an index leads down to a parameter asked for; all parameters count when none
are asked for. -/
def isLive (store : Store) (targets : Option KeySet) (live : KeySet) (i : Index) : Work Bool := do
  let r ← referent call ⟨store, i⟩
  if ← isOfKind.isKind .param (← referentPart call r "kind") then
    match targets with
    | none => return true
    | some targets => targets.has call i
  else
    let items ← itemsOf call (← referentPart call r "children")
    let operands ← asking fun h => items.map h.indexOf
    operands.anyM fun x => live.has call x

/-- Of some indices with operands first, those that lead down to a parameter. -/
def liveAmong (store : Store) (targets : Option KeySet) (order : List Index) : Work KeySet :=
  order.foldlM
    (fun live i => do if ← isLive store targets live i then live.add call i else return live) {}

def hasGradient (context : Context) (n : Int) : Bool := context.grads.contains n

/-- The gradient that a context has under a number. A new handle is that of all gradients that came
with it. -/
def gradientAt (c : ContextId) (key : Int) : Work (Option Address) := do
  let (g, owner, arena) ← contextOf c fun s =>
    (s.context.grads.get? key, s.ties.owners[key]?, s.context.arena)
  match g, owner with
  | none, _ => return none
  | some _, some a => return some a
  | some g, none => do
    let a ← hold ⟨arena.getD 0, g⟩
    let same ← contextOf c fun s => s.context.grads.toList.filter fun entry => entry.2 == g
    tying c fun ties =>
      { ties with
        owners := same.foldl (fun owners entry => owners.insertIfNew entry.1 a) ties.owners }
    return some a

def gradientOf (c : ContextId) (i : Index) : Work (Option Address) := do
  match ← findKey c hasGradient i with
  | some key => gradientAt c key
  | none => return none

def keepGradient (c : ContextId) (i : Index) (g : Address) : Work Unit := do
  let key ← keyFor c hasGradient i
  let shown ← asking fun h => (h.handle? g).bind Handle.expr?
  inContext c fun context =>
    .ok () { context with grads := context.grads.insert key ((shown.map Expr.index).getD 0) }
  tying c fun ties => { ties with owners := ties.owners.insert key g }

def addGradient (c : ContextId) (i : Index) (g : Address) : Work Address := do
  let total ←
    match ← gradientOf c i with
    | none => pure g
    | some old => sum [old, g]
  keepGradient c i total
  return total

/-- Contributions that have come to nodes not met yet, in the order in which they came. -/
structure Pending where
  contributions : Std.HashMap Int (List Address) := ∅
  codes : KeyCodes := []

instance : Inhabited Pending := ⟨{}⟩

namespace Pending

def find? (p : Pending) (i : Index) : Work (Option Int) :=
  findNumber call p.contributions.contains p.codes i

def take (p : Pending) (i : Index) : Work (Option (List Address) × Pending) := do
  match ← p.find? i with
  | none => return (none, p)
  | some n => return (p.contributions[n]?, { p with contributions := p.contributions.erase n })

def place (p : Pending) (i : Index) : Work (Int × Pending) := do
  match ← p.find? i, i with
  | some n, _ => return (n, p)
  | none, .int n => return (n, { p with contributions := p.contributions.insert n [] })
  | none, .object a => do
    let code ← hashOf call a
    return (i.number,
      { contributions := p.contributions.insert i.number [], codes := p.codes ++ [(a, code)] })

def send (p : Pending) (i : Index) (build : Work Address) : Work Pending := do
  let (n, p) ← p.place i
  let g ← build
  return { p with contributions := p.contributions.insert n (p.contributions.getD n [] ++ [g]) }

end Pending

/-- Sends a zero on to the live operands as it is. -/
def sendUnchanged (live : KeySet) (p : Pending) (x : Handle) (g : Address) : Work Pending := do
  (← operandIndices call x).foldlM
    (fun p c => do if ← live.has call c then p.send c (pure g) else return p) p

/-- Sends a gradient on to the live operands, each by its rule. -/
def sendByRules (live : KeySet) (p : Pending) (a g : Address) : Work Pending := do
  let rules ← rulesOf a
  rules.rules.foldlM
    (fun p (x, recipe) => do
      match ← asking fun h => (rules.operands[x]?).bind h.handle? with
      | none => return p
      | some operand =>
        if ← live.has call operand.index then p.send operand.index (carryOut a g rules recipe)
        else return p)
    p

structure Sweep where
  pending : Pending
  /-- Parameters met, with their gradients, the last one first. -/
  found : List (Handle × Address) := []

instance : Inhabited Sweep := ⟨⟨{}, []⟩⟩

def Sweep.meet (c : ContextId) (store : Store) (live : KeySet) (s : Sweep) (i : Index) :
    Work Sweep := do
  let (contributions, pending) ← s.pending.take i
  let s := { s with pending }
  match contributions with
  | none => return s
  | some contributions => do
    if !(← live.has call i) then return s
    let g ← sum contributions
    let x : Handle := ⟨store, i⟩
    let a ← holdHandle x
    let total ← addGradient c i g
    if ← isOfKind call .param a then return { s with found := (x, total) :: s.found }
    else if ← isOfKind call .zero g then
      return { s with pending := ← sendUnchanged live s.pending x g }
    else return { s with pending := ← sendByRules live s.pending a g }

/-- The number that an index is, which is zero where it is none. -/
def numberAt (h : Heap) : Index → Int
  | .int n => n
  | .object a => ((h.value? a).bind Value.index?).getD 0

/-- Gradients of what a handle refers to. The arguments are checked first, one after the other. -/
def backwardHandle (c : ContextId) (output : Address) (seed : Option Address)
    (wrt : Option (List Address)) : Work Gradients := do
  let x ← bind c output
  let seed ←
    match seed with
    | none => newSeed output x
    | some a => checkSeed c output a
  let targets ← wrt.mapM (targetsOf c)
  let order ← orderBelow x
  let live ← liveAmong x.store targets order
  let pending ← Pending.send {} x.index (pure seed)
  let s ← order.reverse.foldlM (Sweep.meet c x.store live) { pending }
  let root ← asking fun h => numberAt h x.index
  record (.backward root live.size s.found.length)
  asking fun h => s.found.reverse.map fun entry => (entry.1, h.handle? entry.2)

def exprs? (h : Heap) (items : List Address) : Option (List Expr) :=
  items.mapM fun a => (h.handle? a).bind Handle.expr?

/-- Whether all that a context works on are nodes of an arena. -/
def isPlain (c : ContextId) : Work Bool := do
  let ties ← contextOf c Evaluator.ties
  let plainGradients ← asking fun h => (exprs? h (ties.owners.toList.map Prod.snd)).isSome
  return ties.store.isNone && ties.codes.isEmpty && plainGradients && (← hasPlainOperands)

def backward (c : ContextId) (output : Address) (seed : Option Address)
    (wrt : Option (List Address)) : Work Gradients := do
  if !(← contextOf c fun s => s.context.requiresGrad) then throw .gradientDisabled
  let given ← asking fun h =>
    (exprs? h [output], seed.mapM fun a => (exprs? h [a]).map fun es => (a, es),
      wrt.mapM (exprs? h))
  match given, ← isPlain c with
  | (some [e], some seed, some wrt), true =>
    backwardExpr c e (seed.bind fun s => s.2.head?.map fun e => (s.1, e)) wrt
  | _, _ => backwardHandle c output seed wrt

def grad (c : ContextId) (a : Address) : Work (Option Address) := do
  gradientOf c (← targetOf c a)

/-- The gradient that reached any node. -/
def gradOf (c : ContextId) (a : Address) : Work (Option Address) := do
  gradientOf c (← bind c a).index

/-- A handle was changed, and so were the gradients that it is. -/
def moved (a : Address) : Work Unit := fun w =>
  match w.heap.get? a with
  | some (.expr e) => .ok () { w with evaluators := w.evaluators.map (Evaluator.move a e.index) }
  | _ => .ok () w

/-- The gradients of all parameters, in the order in which each first received one. -/
def gradients (c : ContextId) : Work Gradients := do
  let (arena, store, grads) ← contextOf c fun s =>
    (s.context.arena, s.ties.store, s.context.grads.toList)
  match arena, store with
  | some arena, _ => keep (.arena arena) grads
  | none, some a => keep (.object a) grads
  | none, none => return []
where
  keep (store : Store) (grads : List (Int × Int)) : Work Gradients := do
    let found ← grads.filterM fun entry => isKindAt store .param (Index.ofNumber entry.1)
    let evaluator ← contextOf c id
    asking fun h =>
      found.map fun entry =>
        (⟨store, Index.ofNumber entry.1⟩, gradientHandle? h evaluator store entry)

end Workspace

end TensorGraph
