import Std.Data.HashSet
import TensorGraph.Graph.Expr
import TensorGraph.Table

/-!
# Contexts

A context holds what is known about the nodes of one arena: the ids under which they were
evaluated, the buffers that hold their values, and their gradients. It is bound to the arena of
the first expression that it is asked about.
-/

namespace TensorGraph

structure Context where
  arena : Option ArenaId := none
  requiresGrad : Bool := true
  /-- The last evaluation id handed out. -/
  counter : Nat := 0
  ids : Std.HashMap Int Nat := ∅
  /-- The buffers of evaluated nodes. -/
  values : Std.HashMap Int Nat := ∅
  grads : Table Int Int := {}
  /-- The evaluation ids that were entered and not left. -/
  active : Std.HashSet Int := ∅

namespace Context

instance : Inhabited Context := ⟨{}⟩

/-- A context with empty tables. -/
def fresh (requiresGrad : Bool) : Context := { requiresGrad }

/-- Forgets everything but whether gradients are tracked. -/
def reset (c : Context) : Context := fresh c.requiresGrad

/-- An argument has to be an expression of the arena that the context is bound to; an unbound
context is bound to the arena of its argument. -/
def bind (o : Operand) : EStateM Error Context Expr := fun c =>
  match o with
  | .other type => .error (.notAnExpr type) c
  | .expr e =>
    match c.arena with
    | none => .ok e { c with arena := some e.arena }
    | some a => if a = e.arena then .ok e c else .error .foreignContext c

def makeId (c : Context) : Nat × Context := (c.counter + 1, { c with counter := c.counter + 1 })

/-- The evaluation id of a node, a new one when it has none. -/
def idOf (c : Context) (i : Int) : Nat × Context :=
  match c.ids[i]? with
  | some id => (id, c)
  | none =>
    let (id, c) := c.makeId
    (id, { c with ids := c.ids.insert i id })

/-- The evaluation id of a node, 0 when it has none. -/
def evalId (c : Context) (i : Int) : Nat := c.ids.getD i 0

theorem bind_ok {o : Operand} {e : Expr} {c c' : Context} (h : bind o c = .ok e c') :
    o = .expr e ∧ c'.arena = some e.arena := by
  unfold bind at h
  split at h
  · cases h
  · split at h
    · cases h
      exact ⟨rfl, rfl⟩
    · split at h
      · rename_i ha hae
        cases h
        exact ⟨rfl, by rw [ha, hae]⟩
      · cases h

end Context

end TensorGraph
