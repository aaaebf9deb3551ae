import Std.Data.HashMap
import TensorGraph.Error
import TensorGraph.Op.Basic

/-!
# Instruction programs

A program hands out buffer ids 1, 2, 3, … to leaves and to instructions. An instruction is known
by its operation and sources, so equal ones share one buffer; leaves are never shared. The table
of cells is the program, and the other tables answer questions about it: which id an operation
already has, and which instructions read a buffer.
-/

namespace TensorGraph

/-- The buffers that an instruction reads. -/
inductive Sources where
  | one (a : Nat)
  | two (a b : Nat)
deriving DecidableEq, Hashable, Repr, Inhabited

namespace Sources

def toList : Sources → List Nat
  | .one a => [a]
  | .two a b => [a, b]

def first : Sources → Nat
  | .one a => a
  | .two a _ => a

/-- The second source; 0, which no buffer has, when there is none. -/
def second : Sources → Nat
  | .one _ => 0
  | .two _ b => b

theorem first_mem (r : Sources) : r.first ∈ r.toList := by
  cases r with
  | one a => exact List.mem_singleton_self a
  | two a b => exact List.mem_cons_self ..

end Sources

structure Instruction where
  op : Op
  shape : Shape
  sources : Sources
deriving Repr, Inhabited

/-- What identifies an instruction. -/
structure Key where
  signature : List Value.Token
  sources : Sources
deriving DecidableEq, Hashable, Repr

namespace Instruction

def key (i : Instruction) : Key := ⟨i.op.signature, i.sources⟩

/-- An instruction as the log shows it. -/
def call (i : Instruction) : String :=
  i.op.text ++ "(" ++ toString i.sources.first ++ ", " ++ toString i.sources.second ++ ")"

end Instruction

inductive Cell where
  | leaf (shape : Shape) (zero : Bool)
  | instruction (i : Instruction)
deriving Repr, Inhabited

namespace Cell

def shape : Cell → Shape
  | .leaf s _ => s
  | .instruction i => i.shape

def isLeaf : Cell → Bool
  | .leaf .. => true
  | .instruction _ => false

def instruction? : Cell → Option Instruction
  | .leaf .. => none
  | .instruction i => some i

end Cell

structure Program where
  /-- The cell of id `n` stands at position `n - 1`. -/
  cells : Array Cell := #[]
  known : Std.HashMap Key Nat := ∅
  /-- The instructions that read a buffer, in the order of their first use of it. -/
  users : Array (Array Nat) := #[]
  /-- How often a known instruction was asked for. -/
  hits : Nat := 0

namespace Program

instance : Inhabited Program := ⟨{}⟩

def size (p : Program) : Nat := p.cells.size

def cell? (p : Program) (id : Nat) : Option Cell :=
  if id = 0 then none else p.cells[id - 1]?

/-- The ids handed out, in order. -/
def ids (p : Program) : List Nat := (List.range p.size).map (· + 1)

/-- All cells with their ids, in order. -/
def entries (p : Program) : List (Nat × Cell) := p.ids.zip p.cells.toList

/-- A number that may or may not be an id of the program. -/
def id? (p : Program) (n : Int) : Option Nat :=
  if 0 < n ∧ n ≤ p.size then some n.toNat else none

def getId (p : Program) (n : Int) : Except Error Nat :=
  match p.id? n with
  | some id => .ok id
  | none => .error (.unknownBuffer n)

def shapeOf (p : Program) (n : Int) : Except Error Shape := do
  let id ← p.getId n
  match p.cell? id with
  | some c => .ok c.shape
  | none => .error (.unknownBuffer n)

def isLeaf (p : Program) (n : Int) : Except Error Bool := do
  let id ← p.getId n
  match p.cell? id with
  | some c => .ok c.isLeaf
  | none => .error (.unknownBuffer n)

def usersOf (p : Program) (id : Nat) : List Nat :=
  if id = 0 then [] else (p.users.getD (id - 1) #[]).toList

def consumers (p : Program) (n : Int) : Except Error (List Nat) := do
  let id ← p.getId n
  return p.usersOf id

/-- Leaves with their shapes and whether they are filled with zeros. -/
def leaves (p : Program) : List (Nat × Shape × Bool) :=
  p.entries.filterMap fun e =>
    match e.2 with
    | .leaf s zero => some (e.1, s, zero)
    | .instruction _ => none

/-- Instructions in the order of emission, which is an order of execution. -/
def schedule (p : Program) : List (Nat × Instruction) :=
  p.entries.filterMap fun e => e.2.instruction?.map fun i => (e.1, i)

def leafCount (p : Program) : Nat := p.cells.countP Cell.isLeaf

def instructionCount (p : Program) : Nat := p.cells.countP fun c => !c.isLeaf

def text (p : Program) : String :=
  "GraphBuilder(buffers=" ++ toString p.leafCount ++ ", instructions=" ++
    toString p.instructionCount ++ ", cse_hits=" ++ toString p.hits ++ ")"

theorem cell?_succ (p : Program) (n : Nat) : p.cell? (n + 1) = p.cells[n]? := rfl

theorem id?_eq_some_iff {p : Program} {n : Int} {id : Nat} :
    p.id? n = some id ↔ n = id ∧ 0 < id ∧ id ≤ p.size := by
  unfold id?
  split
  · rw [Option.some.injEq]
    omega
  · simp only [reduceCtorEq, false_iff]
    omega

end Program

end TensorGraph
