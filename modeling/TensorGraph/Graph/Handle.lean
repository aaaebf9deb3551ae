import TensorGraph.Graph.Expr

/-!
# Handles

A handle looks a node up: an index in a store. Most handles are expressions, whose store is an arena
and whose index is an integer. Since both parts can be replaced, a store may be any object instead,
and so may an index. Such a handle is asked what an expression is asked, and fails where its parts
do.
-/

namespace TensorGraph

/-- Where an object is stored. -/
abbrev Address := Nat

/-- Where a handle looks its node up. -/
inductive Store where
  | arena (id : ArenaId)
  /-- What was put in the place of an arena. -/
  | object (a : Address)
deriving DecidableEq, Repr, Inhabited

/-- What a handle looks up. -/
inductive Index where
  | int (n : Int)
  /-- What was put in the place of an integer. -/
  | object (a : Address)
deriving DecidableEq, Repr, Inhabited

def Index.isInt : Index → Bool
  | .int _ => true
  | .object _ => false

structure Handle where
  store : Store
  index : Index
deriving DecidableEq, Repr, Inhabited

namespace Handle

def ofExpr (e : Expr) : Handle := ⟨.arena e.arena, .int e.index⟩

/-- A handle whose parts are those of an expression. -/
def expr? : Handle → Option Expr
  | ⟨.arena arena, .int index⟩ => some ⟨arena, index⟩
  | _ => none

@[simp] theorem expr?_ofExpr (e : Expr) : (ofExpr e).expr? = some e := rfl

end Handle

end TensorGraph
