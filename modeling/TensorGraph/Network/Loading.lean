import TensorGraph.Device.Buffer
import TensorGraph.Table

/-!
# Loading parameters

Arrays are written into the buffers of the parameters that they name, one after the other. A
parameter is known by the number of its node. Strict
loading refuses names that no parameter has, and in the end names that were not given. What was
written before an error stays.
-/

namespace TensorGraph

abbrev Loading := EStateM Error Buffers

namespace Buffers

/-- The buffer of a parameter, by its name and the buffers that hold node values. -/
def bufferOf (values : Std.HashMap Int Nat) (key : String) (node : Int) : Except Error Nat :=
  match values[node]? with
  | some id => .ok id
  | none => .error (.notEvaluated key)

/-- Converts data and writes them into a buffer. -/
def loadInto (bufs : Buffers) (id : Nat) (d : Data) : Except Error Buffers := do
  let b ← bufs.getBuffer id
  let t ← Tensor.ofData d
  let b ← b.write t
  return Table.insert bufs id b

/-- Loads one entry. -/
def loadEntry (params : Table String Int) (values : Std.HashMap Int Nat) (strict : Bool)
    (entry : String × Data) : Loading Unit := fun bufs =>
  match params.get? entry.1 with
  | none => if strict then .error (.unexpectedKey entry.1) bufs else .ok () bufs
  | some node =>
    match (do loadInto bufs (← bufferOf values entry.1 node) entry.2) with
    | .ok bufs => .ok () bufs
    | .error err => .error err bufs

/-- The names without data, in order. -/
def missingKeys (params : Table String Int) (state : Table String Data) : List String :=
  ((params.toList.map Prod.fst).filter fun k => !state.contains k).mergeSort fun a b =>
    decide (a ≤ b)

/-- Loads all entries in their order. -/
def load (params : Table String Int) (values : Std.HashMap Int Nat) (strict : Bool)
    (state : Table String Data) : Loading Unit := do
  state.toList.forM (loadEntry params values strict)
  if strict then
    let missing := missingKeys params state
    if !missing.isEmpty then throw (.missingKeys missing)

end Buffers

end TensorGraph
