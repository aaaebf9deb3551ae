import TensorGraph.Graph.Reach

/-!
# Expressions

An expression is a handle: an arena and an index into it. Two expressions are equal when both are,
never by structure. Where an expression is expected any value may be given, and of a value that is
none only its type is told.
-/

namespace TensorGraph

/-- The number of an arena. -/
abbrev ArenaId := Nat

structure Expr where
  arena : ArenaId
  index : Int
deriving DecidableEq, Hashable, Repr, Inhabited

def Expr.typeName : TypeName := ⟨"Expr", none⟩

inductive Operand where
  | expr (e : Expr)
  | other (type : TypeName)
deriving DecidableEq, Repr, Inhabited

namespace Operand

def typeName : Operand → TypeName
  | .expr _ => Expr.typeName
  | .other type => type

def expr? : Operand → Option Expr
  | .expr e => some e
  | .other _ => none

end Operand

/-- The text of an expression: its kind, its name when it has one, its shape and its index. -/
def Expr.text (kind : Kind) (name : Option String) (shape : Shape) (index : String) : String :=
  let label :=
    match name with
    | some name => if name.isEmpty then "" else " " ++ Text.quote name
    | none => ""
  "Expr(" ++ kind.word ++ label ++ ", " ++ shape.text ++ ", #" ++ index ++ ")"

def Arena.text (a : Arena) : String := "Arena(nodes=" ++ toString a.size ++ ")"

/-- The node of a handle has to be of the kind expected. -/
def Arena.expect (a : Arena) (kind : Kind) (i : Int) : Except Error Unit :=
  match a.at? i with
  | none => .error (.absent i)
  | some n => if n.kind = kind then .ok () else .error (.kindMismatch n.kind kind)

end TensorGraph
