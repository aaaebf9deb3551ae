import TensorGraph.Op.Reading
import TensorGraph.Program.Basic
import TensorGraph.Shape.Reading

/-!
# Emission

Adding leaves and instructions to a program. The arguments of an instruction are checked before
the program is looked at; an instruction that is known already counts as a hit, and under strict
shapes its shape has to be the recorded one. Operations are named by messages and by the log. A name
cannot always be written, and then an emission fails that has begun to record itself.
-/

namespace TensorGraph

/-- What adding to a program did. -/
inductive Emission where
  | leaf (id : Nat) (shape : Shape) (zero : Bool)
  | fresh (id : Nat) (i : Instruction)
  | hit (id : Nat) (i : Instruction)
deriving Repr, Inhabited

namespace Emission

def id : Emission → Nat
  | .leaf id _ _ => id
  | .fresh id _ => id
  | .hit id _ => id

/-- The record of an emission. -/
def text : Emission → String
  | .leaf id shape zero =>
    "alloc " ++ toString id ++ " " ++ shape.text ++ (if zero then " (zero)" else "")
  | .fresh id i => "emit " ++ toString id ++ " = " ++ i.call ++ " " ++ i.shape.text
  | .hit id i => "cse " ++ i.call ++ " -> " ++ toString id

end Emission

/-- Emitting into a program: what was recorded before an error stays. -/
abbrev Emit := EStateM Error Program

namespace Program

/-- The sources of an operation: as many as it reads, the second one 0 when it reads one. -/
def sources (digits : Option Nat) (p : Program) (op : Op) (source1 source2 : Int) :
    Except Error Sources := do
  if op.sourceCount = 2 then
    if source2 = 0 then throw (.needsTwoSources (← op.name digits))
    let a ← p.getId source1
    let b ← p.getId source2
    return .two a b
  else
    if source2 ≠ 0 then throw (.takesOneSource (← op.name digits) source2)
    let a ← p.getId source1
    return .one a

/-- The instruction that loosely typed arguments describe. -/
def newInstruction (digits : Option Nat) (p : Program) (c : Op.Candidate) (shape : Value)
    (source1 source2 : Int) : Except Error Instruction := do
  match c with
  | .other v => throw (.notAnOp v)
  | .op op =>
    let shape ← Shape.ofValue shape
    let _ ← c.sourceCount
    let sources ← p.sources digits op source1 source2
    return ⟨op, shape, sources⟩

/-- The id of a known instruction. -/
def find? (p : Program) (i : Instruction) : Option Nat :=
  if i.op.isUndefined then none else p.known[i.key]?

/-- Adds a cell under the next id. -/
def push (p : Program) (c : Cell) : Program :=
  { p with cells := p.cells.push c, users := p.users.push #[] }

/-- Records that an instruction reads a buffer, once. -/
def addUser (p : Program) (user : Nat) (source : Nat) : Program :=
  { p with
    users := p.users.modify (source - 1) fun us => if us.contains user then us else us.push user }

def addUsers (p : Program) (user : Nat) (sources : List Nat) : Program :=
  sources.foldl (fun p s => p.addUser user s) p

/-- A new leaf. -/
def alloc (shape : Value) (zero : Bool) : Emit Emission := fun p =>
  match Shape.ofValue shape with
  | .error e => .error e p
  | .ok shape => .ok (.leaf (p.size + 1) shape zero) (p.push (.leaf shape zero))

/-- What a strict call is refused with that asks for an instruction in another shape than the
recorded one. -/
def mismatch (digits : Option Nat) (name : String) (i : Instruction) (recorded : Shape) : Error :=
  let site := Site.emission name i.sources.first i.sources.second
  (Error.shapeMismatch site recorded i.shape).raised digits

/-- Records the hit of a known instruction. It has been counted when its operation is named, in the
message of a mismatch or in the log. -/
def hit (digits : Option Nat) (strict : Bool) (i : Instruction) (id : Nat) : Emit Emission :=
  fun p =>
  let p := { p with hits := p.hits + 1 }
  let recorded := ((p.cell? id).map Cell.shape).getD i.shape
  match i.op.name digits with
  | .error e => .error e p
  | .ok name =>
    if strict && recorded != i.shape then .error (mismatch digits name i recorded) p
    else .ok (.hit id i) (p.addUsers id i.sources.toList)

/-- Adds an instruction under the next id, by which its key is known from then on. -/
def addInstruction (p : Program) (i : Instruction) : Program :=
  { p.push (.instruction i) with known := p.known.insert i.key (p.size + 1) }

/-- A new instruction under the next id. It has been added when its operation is named in the log,
but no reader has been recorded. -/
def fresh (digits : Option Nat) (i : Instruction) : Emit Emission := fun p =>
  let id := p.size + 1
  let p := p.addInstruction i
  match i.op.name digits with
  | .error e => .error e p
  | .ok _ => .ok (.fresh id i) (p.addUsers id i.sources.toList)

/-- The buffer of an operation over one or two sources. -/
def emit (digits : Option Nat) (strict : Bool) (c : Op.Candidate) (shape : Value)
    (source1 source2 : Int) : Emit Emission := fun p =>
  match p.newInstruction digits c shape source1 source2 with
  | .error e => .error e p
  | .ok i =>
    match p.find? i with
    | some id => hit digits strict i id p
    | none => fresh digits i p

end Program

end TensorGraph
