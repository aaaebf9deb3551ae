import TensorGraph.Program.Basic

/-!
# Execution

What a program computes. Leaves hold given values, and instructions are carried out in the order
of emission; an instruction that reads a buffer without a value cannot be carried out.
-/

namespace TensorGraph.Program

/-- The functions that operations stand for on some carrier. -/
abbrev Semantics (α : Type) := Op → List α → α

/-- Buffers that hold values. -/
abbrev Memory (α : Type) := Nat → Option α

/-- The memory before the first instruction: the leaves have values. -/
def initial {α : Type} (p : Program) (leaf : Nat → α) : Memory α := fun id =>
  match p.cell? id with
  | some (.leaf ..) => some (leaf id)
  | _ => none

/-- Carries one instruction out. -/
def execute {α : Type} (I : Semantics α) (m : Memory α) (entry : Nat × Instruction) :
    Option (Memory α) := do
  let sources ← entry.2.sources.toList.mapM m
  return fun id => if id = entry.1 then some (I entry.2.op sources) else m id

/-- Carries the schedule out. -/
def run? {α : Type} (p : Program) (I : Semantics α) (leaf : Nat → α) : Option (Memory α) :=
  p.schedule.foldlM (execute I) (p.initial leaf)

end TensorGraph.Program
