/-!
# Node kinds

Nodes of an expression graph are leaves, or apply a function to one or two nodes. The kinds are a
closed set.
-/

namespace TensorGraph

inductive Leaf where
  | param
  /-- A leaf that contributes no gradient. -/
  | zero
deriving DecidableEq, Repr, Inhabited

inductive Unary where
  | neg
  | reciprocal
  | exp
  | log
  /-- The step function, 1 above zero and 0 elsewhere. -/
  | gtz
deriving DecidableEq, Repr, Inhabited

inductive Binary where
  | add
  | mul
deriving DecidableEq, Repr, Inhabited

inductive Kind where
  | leaf (k : Leaf)
  | unary (k : Unary)
  | binary (k : Binary)
deriving DecidableEq, Repr, Inhabited

namespace Kind

abbrev param : Kind := .leaf .param
abbrev zero : Kind := .leaf .zero
abbrev add : Kind := .binary .add
abbrev mul : Kind := .binary .mul

def all : List Kind :=
  [.param, .zero, .add, .mul, .unary .neg, .unary .reciprocal, .unary .exp, .unary .log,
    .unary .gtz]

/-- The name of a kind in messages. -/
def name : Kind → String
  | .leaf .param => "PARAM" | .leaf .zero => "ZERO"
  | .unary .neg => "NEG" | .unary .reciprocal => "REC" | .unary .exp => "EXP"
  | .unary .log => "LOG" | .unary .gtz => "GTZ"
  | .binary .add => "ADD" | .binary .mul => "MUL"

/-- The word for a kind in the text of an expression. -/
def word : Kind → String
  | .leaf .param => "Param" | .leaf .zero => "Zero"
  | .unary .neg => "Neg" | .unary .reciprocal => "Rec" | .unary .exp => "Exp"
  | .unary .log => "Log" | .unary .gtz => "Gtz"
  | .binary .add => "Add" | .binary .mul => "Mul"

def ofName? (s : String) : Option Kind := all.find? fun k => k.name == s

/-- The name of the group that a kind belongs to. -/
def group : Kind → String
  | .leaf _ => "leaf"
  | .unary _ => "unary"
  | .binary _ => "binary"

/-- The number of operands. -/
def arity : Kind → Nat
  | .leaf _ => 0
  | .unary _ => 1
  | .binary _ => 2

theorem mem_all (k : Kind) : k ∈ all := by
  rcases k with k | k | k <;> cases k <;> decide

theorem name_injective {k l : Kind} (h : k.name = l.name) : k = l := by
  rcases k with k | k | k <;> cases k <;> rcases l with l | l | l <;> cases l <;> revert h <;>
    decide

end Kind

end TensorGraph
