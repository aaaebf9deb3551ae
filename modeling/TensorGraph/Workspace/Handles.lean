import TensorGraph.Workspace.Showing

/-!
# Handles at work

A handle is an object that whoever holds it can change, so what it refers to is looked up each time
that it is used. What is built becomes a new handle. An arena builds nodes itself; what was put in
the place of an arena is asked for new nodes as it is asked for anything else.
-/

namespace TensorGraph

/-- The name under which an object has a function. -/
def Unary.method : Unary → String
  | .neg => "__neg__"
  | .reciprocal => "reciprocal"
  | .exp => "exp"
  | .log => "log"
  | .gtz => "gtz"

namespace Workspace

/-- Remembers how the operands of a node were given, unless all are plain integers. -/
def noteOperands (e : Expr) (operands : List Index) : Work Unit := fun w =>
  if operands.all fun i => i.isInt then .ok () w
  else .ok () { w with operandForms := w.operandForms.insert e operands }

def sizeOf (arena : ArenaId) : Work Nat := fun w => .ok (w.arenas.getD arena .empty).size w

/-- The number by which an arena knows an operand. What is no integer has to compare with integers
like one that refers to a node. -/
def operandNumber (call : Caller) (arena : ArenaId) (i : Index) : Work Int := do
  match i with
  | .int n => return n
  | .object a =>
    let first ← newValue (.int 0)
    let isInside ←
      if ← isTrue call (← relate call .atMost first a) then
        do isTrue call (← relate call .less a (← newValue (.int (← sizeOf arena))))
      else pure false
    if isInside then return (← integer? call a).getD 0
    else throw (.otherOperand (← formatted call a))

/-- Asks what was put in the place of an arena for a new node, and gives a handle to it. It has to
be able to build before the shape is known. -/
def buildElsewhere (call : Caller) (store : Address) (kind : Kind) (shape : Work Address)
    (operands : List Index) : Work Address := do
  let f ← getAttribute call store "add"
  let s ← shape
  let operands ← newObject (.tuple (← operands.mapM indexObject))
  let index ← call f [← newObject (.kind kind), s, operands]
  holdHandle ⟨.object store, ← asking fun h => h.indexOf index⟩

def build (call : Caller) (a : Address) (x : Handle) (kind : Kind) (operands : List Index) :
    Work Address := do
  match x.store with
  | .object store => buildElsewhere call store kind (getAttribute call a "shape") operands
  | .arena arena =>
    match ← referent call x with
    | .object _ => throw .missingNode
    | .node _ n => do
      let numbers ← operands.mapM (operandNumber call arena)
      let e ← addNode arena kind numbers (.shape n.shape) none
      noteOperands e operands
      hold e

def unaryHandle (call : Caller) (k : Unary) (a : Address) : Work Address := do
  match ← object a with
  | some (.expr e) => hold (← unary k e)
  | some (.stray x) => build call a x (.unary k) [x.index]
  | _ => lacks a k.method

def checkShapes (call : Caller) (site : Site) (l r : Address) : Work Unit := do
  let left ← getAttribute call l "shape"
  let right ← getAttribute call r "shape"
  if ← isTrue call (← relate call .unequal left right) then
    let left ← getAttribute call l "shape"
    let right ← getAttribute call r "shape"
    let text ← formatted call left
    throw (.otherShape site text (← formatted call right))

def combineHandles (call : Caller) (k : Binary) (l r : Address) (x y : Handle) : Work Address := do
  checkShapes call (.operator (.binary k)) l r
  build call l x (.binary k) [x.index, y.index]

/-- The right operand of a handle, which has to be a handle of the same store. -/
def rightHandle (call : Caller) (x : Handle) (r : Address) : Work Handle := do
  match ← asking fun h => h.handle? r with
  | none => do
    askClass call r
    reject .notCombinable r
  | some y =>
    if ← asking fun h => h.isSameStore x.store y.store then return y else throw .foreignOperand

/-- An operator on handles. The right operand has to be a handle of the same store. -/
def binaryHandle (call : Caller) (op : Operator) (l r : Address) : Work Address := do
  match ← object l, ← object r with
  | some (.expr d), some (.expr e) => hold (← binary op d (.expr e))
  | _, _ =>
    match ← asking fun h => h.handle? l with
    | none => reject .notCombinable l
    | some x =>
      let y ← rightHandle call x r
      match op with
      | .add => combineHandles call .add l r x y
      | .mul => combineHandles call .mul l r x y
      | .sub => withNew .add (← unaryHandle call .neg r) x
      | .div => withNew .mul (← unaryHandle call .reciprocal r) x
where
  withNew (k : Binary) (r : Address) (x : Handle) : Work Address := do
    combineHandles call k l r x (← rightHandle call x r)

def pointwiseHandle (call : Caller) (f : Pointwise) (a : Address) : Work Address := do
  match f with
  | .node k => unaryHandle call k a
  | .relu => binaryHandle call .mul a (← unaryHandle call .gtz a)

/-- A zero leaf in the store of an object, of its shape. -/
def zeroLike (call : Caller) (a : Address) : Work Address := do
  match ← object a with
  | some (.expr e) => hold (← zero (some e.arena) (.shape (← getNode e).shape))
  | _ => do
    let store ← getAttribute call a "arena"
    match ← object store with
    | some (.arena arena) => do
      let shape ← getAttribute call a "shape"
      match ← asking fun h => h.value? shape with
      | some s => hold (← zero (some arena) s)
      | none => reject .shapeNotIterable shape
    | _ => do
      let f ← getAttribute call store "zero"
      call f [← getAttribute call a "shape"]

theorem binaryHandle_expr {call : Caller} {op : Operator} {l r : Address} {d e : Expr}
    {w : Workspace} (hl : w.heap.get? l = some (.expr d)) (hr : w.heap.get? r = some (.expr e)) :
    binaryHandle call op l r w = (do hold (← binary op d (.expr e)) : Work Address) w := by
  simp only [binaryHandle, object, bind, EStateM.bind, hl, hr]

end Workspace

end TensorGraph
