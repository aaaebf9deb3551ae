import TensorGraph.Workspace.Basic

/-!
# Building across arenas

Operators on expressions of any arena. The left operand decides where the result is built; the
right one has to be an expression of the same arena, which is checked before anything is built.
-/

namespace TensorGraph.Workspace

def getNode (e : Expr) : Work Node := fun w => ofExcept (w.arenas.getNode e) w

/-- A new node of an arena as an expression. -/
def building (arena : ArenaId) (x : Build Nat) : Work Expr := do
  let i ← inArena arena x
  return ⟨arena, i⟩

def param (arena : Option ArenaId) (shape : Value) (name : Option String) : Work Expr := fun w =>
  let arena := arena.getD w.defaultArena
  building arena (Arena.param shape name) w

def zero (arena : Option ArenaId) (shape : Value) : Work Expr := fun w =>
  let arena := arena.getD w.defaultArena
  building arena (Arena.zero shape) w

def addNode (arena : ArenaId) (kind : Kind) (operands : List Int) (shape : Value)
    (name : Option String) : Work Expr :=
  building arena (Arena.add kind operands shape name)

def unary (k : Unary) (e : Expr) : Work Expr := building e.arena (Arena.unary k e.index)

/-- The right operand of an expression. -/
def rightOperand (e : Expr) (o : Operand) : Work Expr :=
  match o with
  | .other type => throw (.notCombinable type)
  | .expr r => if r.arena = e.arena then pure r else throw .foreignOperand

def binary (op : Operator) (l : Expr) (o : Operand) : Work Expr := do
  let r ← rightOperand l o
  building l.arena
    (match op with
    | .add => Arena.binary .add l.index r.index
    | .sub => Arena.sub l.index r.index
    | .mul => Arena.binary .mul l.index r.index
    | .div => Arena.div l.index r.index)

def relu (e : Expr) : Work Expr := do
  let step ← unary .gtz e
  binary .mul e (.expr step)

end TensorGraph.Workspace
