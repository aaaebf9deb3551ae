import TensorGraph.Op.Reading
import TensorGraph.Program.Basic
import TensorGraph.Text.Json

/-!
# Exports

The tables of a program as a JSON document: leaves, instructions, and the buffers that some
instruction reads. A digest of its text is the 64-bit FNV-1a hash.
-/

namespace TensorGraph.Program

def idsJson (ids : List Nat) : Json := .array (ids.map .nat)

def shapeJson (s : Shape) : Json := .array (s.dims.map .nat)

def leafJson (leaf : Nat × Shape × Bool) : Json :=
  .object [("id", .nat leaf.1), ("shape", shapeJson leaf.2.1), ("zero", .bool leaf.2.2)]

def instructionJson (entry : Nat × Instruction) : Json :=
  .object
    [("id", .nat entry.1), ("op", .string entry.2.op.text), ("shape", shapeJson entry.2.shape),
     ("src", idsJson entry.2.sources.toList)]

/-- The buffers that some instruction reads, with their readers. -/
def dependencies (p : Program) : List (Nat × List Nat) :=
  (p.ids.map fun id => (id, p.usersOf id)).filter fun d => !d.2.isEmpty

def toJson (p : Program) : Json :=
  .object
    [("buffers", .array (p.leaves.map leafJson)),
     ("instructions", .array (p.schedule.map instructionJson)),
     ("deps", .object (p.dependencies.map fun d => (toString d.1, idsJson d.2)))]

/-- The export with all digits of its integers. -/
def exportText (p : Program) : String := p.toJson.text

/-- The export, for which every operation needs a name and no dimension may be too long. -/
def exported (digits : Option Nat) (p : Program) : Except Error String := do
  let _ ← p.schedule.mapM fun entry => entry.2.op.name digits
  if p.cells.any fun c => (Value.shape c.shape).isTooLong digits then throw .integerTooLong
  return p.exportText

/-- The 64-bit FNV-1a hash of a byte sequence. -/
def fnv1a64 (bytes : List UInt8) : UInt64 :=
  bytes.foldl (fun h b => (h ^^^ b.toUInt64) * 0x100000001b3) 0xcbf29ce484222325

/-- The length of the export in bytes, and its hash in hexadecimal digits. -/
def digest (p : Program) : Nat × String :=
  let bytes := p.exportText.toUTF8
  (bytes.size, Text.hex 16 (fnv1a64 bytes.toList).toNat)

example : fnv1a64 [] = 0xcbf29ce484222325 := by decide

example : fnv1a64 [0x61] = 0xaf63dc4c8601ec8c := by decide

end TensorGraph.Program
