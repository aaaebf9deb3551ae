import TensorGraph.Context.Basic
import TensorGraph.Program.Emission

/-!
# Lowering

Evaluating an expression puts its nodes into a program, operands first, and remembers the buffer
of each, so a node is evaluated once. A node that is being evaluated has entered its id; entering
an id twice is refused. What was done before an error stays done.
-/

namespace TensorGraph

/-- What happened, in order. -/
inductive Event where
  | enter (id : Int)
  /-- An id was entered that had not been left. -/
  | refused (id : Int)
  | exit (id : Int)
  | emission (e : Emission)
  /-- A backward pass from a node, with the number of its live nodes and of its parameters. -/
  | backward (root : Int) (live params : Nat)
deriving Repr, Inhabited

/-- A context at work on a program, with the history of what it did. -/
structure Lowering where
  context : Context
  program : Program
  history : Array Event

instance : Inhabited Lowering := ⟨⟨{}, {}, #[]⟩⟩

abbrev Lower := EStateM Error Lowering

namespace Lowering

open Number.Numeral (digitLimit)

def enter (id : Int) : Lower Unit := fun ⟨context, program, history⟩ =>
  if id ∈ context.active then
    .error (.reentered id) ⟨context, program, history.push (.refused id)⟩
  else
    .ok () ⟨{ context with active := context.active.insert id }, program, history.push (.enter id)⟩

/-- Leaves an id, entered or not. -/
def exit (id : Int) : Lowering → Lowering
  | ⟨context, program, history⟩ =>
    ⟨{ context with active := context.active.erase id }, program, history.push (.exit id)⟩

/-- The evaluation id of a node, a new one when it has none. -/
def assignId (i : Int) : Lower Nat := fun ⟨context, program, history⟩ =>
  let (id, context) := context.idOf i
  .ok id ⟨context, program, history⟩

def memoize (i : Int) (buffer : Nat) : Lower Unit := fun ⟨context, program, history⟩ =>
  .ok () ⟨{ context with values := context.values.insert i buffer }, program, history⟩

/-- Emits into the program and records it; an emission that fails is not recorded. -/
def emitting (x : Emit Emission) : Lower Nat := fun ⟨context, program, history⟩ =>
  match x program with
  | .ok e program => .ok e.id ⟨context, program, history.push (.emission e)⟩
  | .error err program => .error err ⟨context, program, history⟩

/-- The buffer of an operand, which has to be evaluated. -/
def valueOf (i : Nat) : Lower Nat := fun s =>
  match s.context.values[(i : Int)]? with
  | some buffer => .ok buffer s
  | none => .error (.missingOperand i) s

/-- The operation of a program that computes a node kind. -/
def unaryOp : Unary → Op
  | .neg => .primitive .neg
  | .reciprocal => .primitive .reciprocal
  | .exp => .primitive .exp
  | .log => .primitive .log
  | .gtz => .primitive .gtz

def binaryOp : Binary → Op
  | .add => .primitive .add
  | .mul => .primitive .mul

/-- Puts one node into the program, its operands being there. -/
def lowerNode (strict : Bool) (n : Node) : Lower Nat :=
  match n.form with
  | .leaf k => emitting (Program.alloc (.shape n.shape) (k == .zero))
  | .unary k x => do
    let source ← valueOf x
    emitting (Program.emit (some digitLimit) strict (.op (unaryOp k)) (.shape n.shape) source 0)
  | .binary k l r => do
    let source1 ← valueOf l
    let source2 ← valueOf r
    emitting <|
      Program.emit (some digitLimit) strict (.op (binaryOp k)) (.shape n.shape) source1 source2

/-- Runs an action between entering and leaving an id; the id is left on an error too. -/
def within (id : Int) (x : Lower Nat) : Lower Nat := fun s =>
  match enter id s with
  | .error e s => .error e s
  | .ok () s =>
    match x s with
    | .ok v s => .ok v (exit id s)
    | .error e s => .error e (exit id s)

/-- Evaluates one node, its operands being evaluated. -/
def evaluateNode (strict : Bool) (a : Arena) (i : Int) : Lower Unit := do
  match a.at? i with
  | none => throw (.absent i)
  | some n =>
    let id ← assignId i
    let buffer ← within id (lowerNode strict n)
    memoize i buffer

/-- The nodes below a root that have no value yet, operands first. -/
def pending (c : Context) (a : Arena) (root : Int) : Option (List Int) :=
  a.reach? (fun i => c.values.contains i) root

/-- The buffer of an expression. Only nodes without a value are evaluated. -/
def evaluate (strict : Bool) (a : Arena) (root : Int) : Lower Nat := fun s =>
  match s.context.values[root]? with
  | some buffer => .ok buffer s
  | none =>
    match pending s.context a root with
    | none => .error (.absent root) s
    | some order =>
      match order.forM (evaluateNode strict a) s with
      | .error e s => .error e s
      | .ok () s =>
        match s.context.values[root]? with
        | some buffer => .ok buffer s
        | none => .error (.absent root) s

end Lowering

end TensorGraph
