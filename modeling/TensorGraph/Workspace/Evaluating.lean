import TensorGraph.Workspace.Questions

/-!
# Evaluating

A context evaluates handles into its program, each once. It binds itself to the store of the first
handle that it is given. A handle that is no expression is looked up by the object that is its
index, which may equal the number of a node.
-/

namespace TensorGraph

namespace Workspace

open Number.Numeral (digitLimit)

/-- What a context tells about itself. -/
def contextOf {α : Type} (c : ContextId) (f : Evaluator → α) : Work α := fun w =>
  .ok (f (w.evaluator c)) w

def tying (c : ContextId) (f : Ties → Ties) : Work Unit := fun w =>
  .ok () { w with evaluators := w.evaluators.modify c fun s => { s with ties := f s.ties } }

/-- Binds a context to what stands in the place of an arena. What is absent binds nothing. -/
def bindObject (c : ContextId) (a : Address) : Work Unit := do
  match ← contextOf c fun s => (s.context.arena, s.ties.store) with
  | (some _, _) => throw .foreignContext
  | (none, some b) => if !(← asking fun h => h.isSame a b) then throw .foreignContext
  | (none, none) =>
    if !(← asking fun h => h.isNone a) then tying c fun ties => { ties with store := some a }

def bindStore (c : ContextId) (store : Store) : Work Unit := do
  match store with
  | .object a => bindObject c a
  | .arena id =>
    if (← contextOf c fun s => s.ties.store).isSome then throw .foreignContext
    let _ ← inContext c (Context.bind (.expr ⟨id, 0⟩))

/-- Binds a context to the store of a handle. -/
def bind (c : ContextId) (a : Address) : Work Handle := do
  match ← asking fun h => h.handle? a with
  | none => do
    askClass call a
    reject .notAnExpr a
  | some h => do
    bindStore c h.store
    return h

/-- The number of the key of a table of a context that an index finds. -/
def findKey (c : ContextId) (has : Context → Int → Bool) (i : Index) : Work (Option Int) := do
  let (context, codes) ← contextOf c fun s => (s.context, s.ties.codes)
  findNumber call (has context) codes i

/-- Remembers a key that is put into a table, unless it is an integer. -/
def noteKey (c : ContextId) (i : Index) : Work Unit := do
  match i with
  | .int _ => pure ()
  | .object a => do
    let code ← hashOf call a
    tying c fun ties =>
      if ties.codes.any fun k => k.1 == a then ties
      else { ties with codes := ties.codes ++ [(a, code)] }

/-- The number under which a table of a context keeps an index, which is new if it is not found. -/
def keyFor (c : ContextId) (has : Context → Int → Bool) (i : Index) : Work Int := do
  match ← findKey c has i with
  | some n => return n
  | none => do
    noteKey c i
    return i.number

def hasValue (context : Context) (n : Int) : Bool := context.values.contains n

def hasId (context : Context) (n : Int) : Bool := context.ids.contains n

def valueOf (c : ContextId) (i : Index) : Work (Option Nat) := do
  match ← findKey c hasValue i with
  | some n => contextOf c fun s => s.context.values[n]?
  | none => return none

def evaluateExpr (c : ContextId) (e : Expr) : Work Nat := fun w =>
  match w.arenas.of? e with
  | none => .error (.absent e.index) w
  | some a => lowering c (Lowering.evaluate w.strict a e.index) w

def enter (c : ContextId) (id : Int) : Work Unit := lowering c (Lowering.enter id)

def exit (c : ContextId) (id : Int) : Work Unit := lowering c fun s => .ok () (s.exit id)

/-- Runs an action between entering and leaving an id; the id is left on an error too. -/
def within {α : Type} (c : ContextId) (id : Int) (x : Work α) : Work α := do
  enter c id
  fun w =>
    match x w with
    | .ok v w => (do exit c id; return v : Work α) w
    | .error e w => (do exit c id; throw e : Work α) w

def evaluatedValue (c : ContextId) (i : Index) : Work Nat := do
  match ← valueOf c i with
  | some buffer => return buffer
  | none => throw (.noEntry (← indexObject i))

def lowerLeaf (c : ContextId) (a : Address) (zero : Bool) : Work Nat := do
  let shape ← getAttribute call a "shape"
  match ← asking fun h => h.value? shape with
  | some s => lowering c (Lowering.emitting (Program.alloc s zero))
  | none => reject .shapeNotIterable shape

def lowerOp (c : ContextId) (op : Op) (operands : List Index) (shape : Work Value) : Work Nat := do
  let sources ← operands.mapM (evaluatedValue c)
  let s ← shape
  fun w =>
    lowering c (Lowering.emitting (Program.emit (some digitLimit) w.strict (.op op) s
      (sources.headD 0) ((sources.drop 1).headD 0))) w

/-- Puts an object that stands for a node into the program. For what only stands for a kind there is
no rule. -/
def lowerObject (c : ContextId) (a : Address) : Work Nat := do
  if ← isOfKind call .param a then lowerLeaf c a false
  else if ← isOfKind call .zero a then lowerLeaf c a true
  else
    let kind ← getAttribute call a "kind"
    let _ ← hashOf call kind
    match ← object kind with
    | some (.kind (.unary k)) => emitted (Lowering.unaryOp k)
    | some (.kind (.binary k)) => emitted (Lowering.binaryOp k)
    | _ => do
      let name ← getAttribute call (← getAttribute call a "kind") "name"
      throw (.noForwardRule (← formatted call name))
where
  emitted (op : Op) : Work Nat := do
    let items ← itemsOf call (← getAttribute call a "children")
    let operands ← asking fun h => items.map h.indexOf
    lowerOp c op operands (do
      let shape ← getAttribute call a "shape"
      match ← asking fun h => h.value? shape with
      | some s => return s
      | none => reject .shapeNotIterable shape)

/-- Puts what a handle refers to into the program, its operands being there. -/
def lowerReferent (c : ContextId) (r : Referent) : Work Nat := do
  match r with
  | .object a => lowerObject c a
  | .node e n => do
    let operands ← operandsAt e n
    match n.kind with
    | .leaf k => lowering c (Lowering.emitting (Program.alloc (.shape n.shape) (k == .zero)))
    | .unary k => lowerOp c (Lowering.unaryOp k) operands (return .shape n.shape)
    | .binary k => lowerOp c (Lowering.binaryOp k) operands (return .shape n.shape)

/-- Evaluates what is at an index of a store, its operands being evaluated. -/
def evaluateAt (c : ContextId) (store : Store) (i : Index) : Work Unit := do
  let id ← lowering c (Lowering.assignId (← keyFor c hasId i))
  let buffer ← within c id (do lowerReferent c (← referent call ⟨store, i⟩))
  lowering c (Lowering.memoize (← keyFor c hasValue i) buffer)

def evaluateHandle (c : ContextId) (x : Handle) : Work Nat := do
  match ← valueOf c x.index with
  | some buffer => return buffer
  | none =>
    let (values, codes) ← contextOf c fun s => (s.context.values, s.ties.codes)
    let knownNode := if codes.isEmpty then some fun n : Nat => values.contains (n : Int) else none
    let order ← orderOf x knownNode fun i => do return (← valueOf c i).isSome
    order.forM (evaluateAt c x.store)
    evaluatedValue c x.index

/-- The buffer of a handle in the program of a context. -/
def evaluate (c : ContextId) (a : Address) : Work Nat := do
  let x ← bind c a
  match x.expr?, ← hasPlainOperands, ← contextOf c fun s => s.ties.codes.isEmpty with
  | some e, true, true => evaluateExpr c e
  | _, _, _ => evaluateHandle c x

/-- The id under which a handle was evaluated, 0 when it was not. -/
def evalId (c : ContextId) (a : Address) : Work Nat := do
  let x ← bind c a
  match ← findKey c hasId x.index with
  | some n => contextOf c fun s => s.context.evalId n
  | none => return 0

def makeId (c : ContextId) : Work Nat :=
  inContext c fun context =>
    let (id, context) := context.makeId
    .ok id context

/-- Starts over with a new program. -/
def reset (c : ContextId) : Work Unit := do
  let p ← newProgram
  fun w => .ok () { w with evaluators := w.evaluators.modify c fun s => ⟨s.context.reset, p, {}⟩ }

end Workspace

end TensorGraph
