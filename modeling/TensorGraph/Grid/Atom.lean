import TensorGraph.Graph.Handle
import TensorGraph.Value.Arithmetic
import TensorGraph.Value.Repetition

/-!
# Atoms

What one place of a grid holds is an atom: a value that is no sequence, or any other object, of
which arithmetic here tells the type only. Operators apply to numbers, join texts, and repeat a text
a whole number of times.
-/

namespace TensorGraph

/-- The name of texts of a length as a type of elements. -/
def Text.elementName (length : Nat) : String := "<U" ++ toString (max 1 length)

inductive Atom where
  | value (v : Value)
  | object (a : Address) (type : TypeName)
deriving Repr, Inhabited

namespace Atom

def typeName : Atom → TypeName
  | .value v => v.typeName
  | .object _ type => type

def quantity? : Atom → Option Quantity
  | .value v => Quantity.ofValue? v
  | _ => none

def text? : Atom → Option String
  | .value (.text s) => some s
  | _ => none

/-- The whole number that an atom stands for. -/
def count? (c : Atom) : Option Int :=
  match c.quantity? with
  | some (.int n) | some (.sized _ n) => some n
  | _ => none

def isSized (c : Atom) : Bool := (c.quantity?.map Quantity.isSized).getD false

/-- The type of an operand in a message: a number of a fixed width is named as a plain one. -/
def operandType (c : Atom) : TypeName :=
  match c.quantity? with
  | some (.sized ..) => ⟨"int", none⟩
  | some (.sizedFloat _) => ⟨"float", none⟩
  | _ => c.typeName

/-- The name of a text, or of a number of a fixed width, as a type of elements. -/
def elementName? : Atom → Option String
  | .value (.text s) => some (Text.elementName s.length)
  | .value (.sized width _) => some width.name
  | .value (.sizedFloat _) => some "float64"
  | _ => none

/-- A number of a fixed width as a plain one. -/
def plainValue : Value → Value
  | .sized _ n => .int n
  | .sizedFloat digits => .float digits
  | v => v

/-- An atom whose number, if it is one, has no fixed width. -/
def plain : Atom → Atom
  | .value v => .value (plainValue v)
  | c => c

/-- Why two atoms have no common arithmetic. -/
def fault (op : Operator) (l r : Atom) : Error :=
  match l.isSized || r.isSized, l.elementName?, r.elementName? with
  | true, some left, some right =>
    if op = .div then .noQuotientType else .noCommonType op.word left right
  | _, _, _ => .unsupportedOperands op.symbol l.operandType r.operandType

/-- A text repeated as many times as an atom says. -/
def repeatText (s : String) (count : Atom) : Except Error Value :=
  match count.count? with
  | none => .error (.notRepeatable count.typeName)
  | some n => (Repetition.timesText s.length n).map fun n => .text (Text.times s n)

/-- An operator between two atoms. A product repeats the left one if it is a text, else the right
one. -/
def combine (op : Operator) (l r : Atom) : Except Error Value :=
  match l.quantity?, r.quantity? with
  | some x, some y => (Quantity.combine op x y).map Quantity.toValue
  | _, _ =>
    match op, l.text?, r.text? with
    | .add, some s, some t => .ok (.text (s ++ t))
    | .add, some _, none => .error (.notJoinable l.typeName r.typeName)
    | .mul, some s, _ => repeatText s r
    | .mul, none, some s => repeatText s l
    | _, _, _ => .error (fault op l r)

/-- The sign turned round. -/
def negate (c : Atom) : Except Error Value :=
  match c.quantity? with
  | some x => .ok x.negate.toValue
  | none => .error (.unsupportedOperand "-" c.typeName)

end Atom

end TensorGraph
