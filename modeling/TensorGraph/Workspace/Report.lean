import TensorGraph.Context.Journal
import TensorGraph.Workspace.Differentiating

/-!
# Reports

What a context knows, in ascending order of the indices under which it knows it. Keys that are no
numbers are put in order by what they say of one another.
-/

namespace TensorGraph

/-- What a context knows, the indices as objects. -/
structure Report where
  ids : List (Address × Address)
  values : List (Address × Address)
  /-- The indices of gradients. -/
  gradients : List (Address × Address)
  active : List Int
  text : String
deriving Repr, Inhabited

namespace Workspace

/-- The indices of a context in the order in which they came. -/
def indicesOf (s : Evaluator) (numbers : List Int) : List Int :=
  numbers.mergeSort fun m n => decide (s.context.evalId m ≤ s.context.evalId n)

/-- The entries of a table in ascending order. Where not all indices are numbers, rows of two are
put in order, of which the second one is shown. -/
def rows {α : Type} (entries : List (Int × α)) (second : α → Work Address) :
    Work (List (Address × Address)) := do
  let entries := entries.map fun e => (Index.ofNumber e.1, e.2)
  match ← asking fun h => ranked? h entries with
  | some entries => entries.mapM fun e => do return (← indexObject e.1, ← second e.2)
  | none => do
    let pairs ← entries.mapM fun e => do
      newObject (.list [← indexObject e.1, ← second e.2])
    (← sort call pairs).mapM fun pair => do
      match ← object pair with
      | some (.list [key, item]) => return (key, item)
      | _ => return (pair, pair)

/-- What a context knows. -/
def report (c : ContextId) : Work Report := do
  let s ← contextOf c id
  let store := s.context.arena.elim (Store.object 0) Store.arena
  let count (n : Nat) : Work Address := newValue (.int n)
  let came (table : Std.HashMap Int Nat) : List (Int × Nat) :=
    (indicesOf s (table.toList.map Prod.fst)).filterMap fun n => (table[n]?).map fun v => (n, v)
  let ids ← rows (came s.context.ids) count
  let values ← rows (came s.context.values) count
  let gradients ← rows (s.context.grads.toList.map fun e => (e.1, e)) fun e => do
    match ← asking fun h => gradientHandle? h s store e with
    | some g => indexObject g.index
    | none => newValue .none
  let active := s.context.active.toList.mergeSort fun a b => a ≤ b
  fun w => .ok { ids, values, gradients, active, text := s.context.text (w.program s.program) } w

end Workspace

end TensorGraph
