import TensorGraph.Value.Signature

/-!
# Operations

The vocabulary of instruction programs: elementwise, matrix and reduction primitives, and the
operations on shapes, which carry parameters. Parameters are whatever values were given. As part of
a key an operation is its signature.
-/

namespace TensorGraph

inductive Primitive where
  | add | mul | pow | eq
  | neg | reciprocal | exp | log | gtz
  | matmul
  | max | sum
deriving DecidableEq, Hashable, Repr, Inhabited

namespace Primitive

def all : List Primitive :=
  [.add, .mul, .pow, .eq, .neg, .reciprocal, .exp, .log, .gtz, .matmul, .max, .sum]

def name : Primitive → String
  | .add => "ADD" | .mul => "MUL" | .pow => "POW" | .eq => "EQ"
  | .neg => "NEG" | .reciprocal => "REC" | .exp => "EXP" | .log => "LOG" | .gtz => "GTZ"
  | .matmul => "MATMUL"
  | .max => "MAX" | .sum => "SUM"

def ofName? (s : String) : Option Primitive := all.find? fun p => p.name == s

/-- The groups of primitives. -/
inductive Group where
  | binary | unary | reduce
deriving DecidableEq, Repr

def Group.name : Group → String
  | .binary => "binary" | .unary => "unary" | .reduce => "reduce"

def group : Primitive → Group
  | .add | .mul | .pow | .eq | .matmul => .binary
  | .neg | .reciprocal | .exp | .log | .gtz => .unary
  | .max | .sum => .reduce

theorem mem_all (p : Primitive) : p ∈ all := by cases p <;> decide

theorem name_injective {p q : Primitive} (h : p.name = q.name) : p = q := by
  cases p <;> cases q <;> revert h <;> decide

end Primitive

/-- What fills the border that padding adds. -/
inductive Fill where
  | zero | one | mirror | edge
deriving DecidableEq, Hashable, Repr, Inhabited

namespace Fill

def all : List Fill := [.zero, .one, .mirror, .edge]

def name : Fill → String
  | .zero => "ZERO" | .one => "ONE" | .mirror => "MIRROR" | .edge => "EDGE"

def ofName? (s : String) : Option Fill := all.find? fun f => f.name == s

end Fill

/-- What stands for the fill of a padding: any value may be given, and a fill alone has a name. -/
inductive Border where
  | fill (f : Fill)
  | value (v : Value)
deriving Repr, Inhabited

inductive Op where
  | primitive (p : Primitive)
  | broadcast (axis count : Value)
  | cat (axis : Value)
  | flip (axis : Value)
  | permute (axes : List Value)
  | pad (axis amount : Value) (border : Border)
deriving Repr, Inhabited

namespace Border

/-- The name of a fill; another value as messages write it. -/
def text : Border → String
  | .fill f => f.name
  | .value v => v.written

/-- The names that tell borders apart, and the values. -/
def tag : Border → List String
  | .fill f => [f.name]
  | .value _ => []

def parameters : Border → List Value
  | .fill _ => []
  | .value v => [v]

end Border

namespace Op

/-- The operation as a text, with all digits of its integers. -/
def text : Op → String
  | .primitive p => p.name
  | .broadcast axis count => "BROADCAST(axis=" ++ axis.inFull ++ ",count=" ++ count.inFull ++ ")"
  | .cat axis => "CAT(axis=" ++ axis.inFull ++ ")"
  | .flip axis => "FLIP(axis=" ++ axis.inFull ++ ")"
  | .permute axes => "PERMUTE(" ++ ",".intercalate (axes.map Value.inFull) ++ ")"
  | .pad axis amount border =>
    "PAD(axis=" ++ axis.inFull ++ ",amt=" ++ amount.inFull ++ ",kind=" ++ border.text ++ ")"

/-- The number of sources that the operation reads. -/
def sourceCount : Op → Nat
  | .primitive p => if p.group = .binary then 2 else 1
  | .cat _ => 2
  | _ => 1

def parameters : Op → List Value
  | .primitive _ => []
  | .broadcast axis count => [axis, count]
  | .cat axis => [axis]
  | .flip axis => [axis]
  | .permute axes => [.tuple axes]
  | .pad axis amount border => axis :: amount :: border.parameters

/-- An operation with a list among its parameters cannot be looked up. -/
def hasList (op : Op) : Bool := op.parameters.any Value.hasList

/-- The class of an operation, and the fill of a padding that has one. -/
def tag : Op → List String
  | .primitive p => [p.name]
  | .broadcast .. => ["BROADCAST"]
  | .cat .. => ["CAT"]
  | .flip .. => ["FLIP"]
  | .permute .. => ["PERMUTE"]
  | .pad _ _ border => "PAD" :: border.tag

def signature (op : Op) : List Value.Token :=
  op.tag.map .name ++ Value.signatures op.parameters

/-- An operation with an undefined parameter is the same as no operation, unless the parameter is
held as one object. -/
def isUndefined (op : Op) : Bool := op.signature.any Value.Token.isUndefined

theorem sourceCount_eq (op : Op) : op.sourceCount = 1 ∨ op.sourceCount = 2 := by
  unfold sourceCount
  split
  · split <;> simp
  · simp
  · simp

/-- What may be handed in where an operation is expected. -/
inductive Candidate where
  | op (op : Op)
  | other (v : Value)
deriving Repr, Inhabited

namespace Candidate

def isOp : Candidate → Bool
  | .op _ => true
  | .other _ => false

end Candidate

end Op

end TensorGraph
