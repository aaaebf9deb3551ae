import TensorGraph.Context.Basic
import TensorGraph.Gradient.Rule

/-!
# Backward passes

A pass marks the live nodes, those that lead down to a parameter asked for, and then goes through
the nodes below its output from the top down. A node is met after all its users, so all its
contributions have come; they are summed once, added to what earlier passes left, and sent on to
the live operands. Of what earlier passes left nothing is sent on. A sum that is a zero leaf is
sent on as it is.
-/

namespace TensorGraph

/-- The nodes that are, or have below them, a parameter of the given set; all parameters count
when there is no set. The order has operands before users. -/
def Arena.live (a : Arena) (targets : Option (Std.HashSet Int)) (order : List Int) :
    Std.HashSet Int :=
  order.foldl
    (fun live i =>
      let counts : Bool :=
        match a.at? i with
        | none => false
        | some n =>
          if n.kind = .param then
            match targets with
            | none => true
            | some ts => ts.contains i
          else n.operands.any fun c => live.contains (c : Int)
      if counts then live.insert i else live)
    ∅

/-- The state of a pass. -/
structure Pass where
  arena : Arena
  grads : Table Int Int
  /-- Contributions that have come to nodes not met yet, the latest first. -/
  pending : Std.HashMap Int (List Int)
  /-- Parameters met, with their gradients. -/
  found : Array (Int × Int)

abbrev Passing := EStateM Error Pass

namespace Pass

def building {α : Type} (x : Build α) : Passing α := fun ⟨arena, grads, pending, found⟩ =>
  match x arena with
  | .ok v arena => .ok v ⟨arena, grads, pending, found⟩
  | .error e arena => .error e ⟨arena, grads, pending, found⟩

/-- Takes the contributions of a node out, in the order in which they came. -/
def take (i : Int) : Passing (List Int) := fun ⟨arena, grads, pending, found⟩ =>
  let contributions := pending.getD i []
  .ok contributions.reverse ⟨arena, grads, pending.erase i, found⟩

def send (i : Int) (g : Int) : Passing Unit := fun ⟨arena, grads, pending, found⟩ =>
  .ok () ⟨arena, grads, pending.insert i (g :: pending.getD i []), found⟩

/-- The gradient of a node in the table, if any. -/
def previous (i : Int) : Passing (Option Int) := fun s => .ok (s.grads.get? i) s

def store (i : Int) (g : Int) : Passing Unit := fun ⟨arena, grads, pending, found⟩ =>
  .ok () ⟨arena, grads.insert i g, pending, found⟩

def find (i : Int) (g : Int) : Passing Unit := fun ⟨arena, grads, pending, found⟩ =>
  .ok () ⟨arena, grads, pending, found.push (i, g)⟩

/-- Adds the gradient of this pass to the table. -/
def total (i : Int) (g : Int) : Passing Int := do
  match ← previous i with
  | none =>
    store i g
    return g
  | some old =>
    let sum ← building (Arena.sum [old, g])
    store i sum
    return sum

/-- Sends a gradient on to the live operands, each by its rule. -/
def sendByRules (live : Std.HashSet Int) (i : Int) (g : Int) (rules : List (Nat × Recipe)) :
    Passing Unit :=
  rules.forM fun (x, recipe) =>
    if (x : Int) ∈ live then do
      let h ← building (recipe.carryOut Arena.algebra g i Int.ofNat)
      send x h
    else pure ()

/-- Sends a gradient on to the live operands as it is. -/
def sendUnchanged (live : Std.HashSet Int) (g : Int) (operands : List Nat) : Passing Unit :=
  operands.forM fun x => if (x : Int) ∈ live then send x g else pure ()

/-- Meets one node. -/
def meet (live : Std.HashSet Int) (i : Int) : Passing Unit := do
  let contributions ← take i
  if contributions.isEmpty || !live.contains i then return
  let g ← building (Arena.sum contributions)
  let sum ← total i g
  let n ← building (Arena.nodeAt i)
  let kind ← building (Node.kind <$> Arena.nodeAt g)
  if n.kind = .param then find i sum
  else if kind = .zero then sendUnchanged live g n.operands
  else sendByRules live i g n.form.rules

end Pass

/-- What differentiation works on: the arena of the output, and a context. -/
structure Differentiation where
  arena : Arena
  context : Context

abbrev Differentiate := EStateM Error Differentiation

/-- The outcome of a pass: parameters with their gradients, and the number of live nodes. -/
structure Outcome where
  gradients : List (Int × Int)
  liveCount : Nat
deriving Repr, Inhabited

namespace Differentiation

def building {α : Type} (x : Build α) : Differentiate α := fun ⟨arena, context⟩ =>
  match x arena with
  | .ok v arena => .ok v ⟨arena, context⟩
  | .error e arena => .error e ⟨arena, context⟩

def inContext {α : Type} (x : EStateM Error Context α) : Differentiate α := fun ⟨arena, context⟩ =>
  match x context with
  | .ok v context => .ok v ⟨arena, context⟩
  | .error e context => .error e ⟨arena, context⟩

def bind (o : Operand) : Differentiate Expr := inContext (Context.bind o)

/-- A node of the arena at hand, which has to be of the kind expected. -/
def expect (kind : Kind) (i : Int) : Differentiate Unit := fun s =>
  match s.arena.expect kind i with
  | .ok () => .ok () s
  | .error e => .error e s

/-- The seed given, which has to have the shape of the output, or a new parameter. -/
def seedFor (output : Int) (seed : Option Operand) : Differentiate Int := do
  match seed with
  | none =>
    let n ← building (Arena.nodeAt output)
    let i ← building (Arena.param (.shape n.shape) (some "grad"))
    return i
  | some o =>
    let e ← bind o
    let seedNode ← building (Arena.nodeAt e.index)
    let outputNode ← building (Arena.nodeAt output)
    if seedNode.shape ≠ outputNode.shape then
      throw (.shapeMismatch .seed seedNode.shape outputNode.shape)
    return e.index

/-- The parameters asked for. -/
def targetsOf (wrt : List Operand) : Differentiate (Std.HashSet Int) :=
  wrt.foldlM
    (fun targets o => do
      let e ← bind o
      expect .param e.index
      return targets.insert e.index)
    ∅

/-- The pass proper, from an output with its seed. -/
def run (output seed : Int) (targets : Option (Std.HashSet Int)) : Differentiate Outcome :=
  fun ⟨arena, context⟩ =>
    match arena.toposort? output with
    | none => .error (.absent output) ⟨arena, context⟩
    | some order =>
      let live := arena.live targets order
      let start : Pass :=
        ⟨arena, context.grads, (∅ : Std.HashMap Int (List Int)).insert output [seed], #[]⟩
      let context := { context with grads := {} }
      match order.reverse.forM (Pass.meet live) start with
      | .ok () ⟨arena, grads, _, found⟩ =>
        .ok ⟨found.toList, live.size⟩ ⟨arena, { context with grads }⟩
      | .error e ⟨arena, grads, _, _⟩ => .error e ⟨arena, { context with grads }⟩

/-- Gradients of an output with respect to its parameters, or those asked for. The arguments are
checked first: a default seed is appended before the parameters asked for are looked at. -/
def backward (output : Operand) (seed : Option Operand) (wrt : Option (List Operand)) :
    Differentiate Outcome := do
  if !(← get).context.requiresGrad then throw .gradientDisabled
  let e ← bind output
  let seed ← seedFor e.index seed
  let targets ←
    match wrt with
    | none => pure none
    | some ps => some <$> targetsOf ps
  run e.index seed targets

end Differentiation

end TensorGraph
