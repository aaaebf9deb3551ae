import TensorGraph.Shape.Basic
import TensorGraph.Text.Quoted
import TensorGraph.Text.Shortened
import TensorGraph.Value.Width

/-!
# Values

Arguments come loosely typed: where a shape or the parameter of an operation is expected, any
value may be given, and messages write it down.
-/

namespace TensorGraph

/-- The name of a type, and the package by which some messages qualify it. -/
structure TypeName where
  name : String
  package : Option String := none
deriving DecidableEq, Repr, Inhabited

def TypeName.qualified (t : TypeName) : String :=
  match t.package with
  | some package => package ++ "." ++ t.name
  | none => t.name

/-- The name in at most so many bytes. -/
def TypeName.within (t : TypeName) (limit : Nat) : String := Text.shortened limit t.qualified

inductive Value where
  | none
  | bool (b : Bool)
  | int (n : Int)
  /-- An integer of a fixed width, such as `int64`. -/
  | sized (width : Width) (n : Int)
  /-- A floating number, by its shortest text. -/
  | float (digits : String)
  /-- The undefined floating number, held as one object wherever it is given. -/
  | undefined (object : Nat)
  /-- A floating number of a fixed width, which arithmetic on integers of a fixed width gives. -/
  | sizedFloat (digits : String)
  | text (s : String)
  | list (items : List Value)
  | tuple (items : List Value)
  | shape (s : Shape)
deriving Repr, Inhabited

namespace Value

def typeName : Value → TypeName
  | .none => ⟨"NoneType", .none⟩
  | .bool _ => ⟨"bool", .none⟩
  | .int _ => ⟨"int", .none⟩
  | .sized width _ => ⟨width.name, "numpy"⟩
  | .float _ | .undefined _ => ⟨"float", .none⟩
  | .sizedFloat _ => ⟨"float64", "numpy"⟩
  | .text _ => ⟨"str", .none⟩
  | .list _ => ⟨"list", .none⟩
  | .tuple _ => ⟨"tuple", .none⟩
  | .shape _ => ⟨"Shape", .none⟩

/-- Items in parentheses; a single one keeps a comma. -/
def tupleText : List String → String
  | [item] => "(" ++ item ++ ",)"
  | items => "(" ++ ", ".intercalate items ++ ")"

mutual

/-- A value as messages write it, with texts quoted. -/
def written : Value → String
  | .none => "None"
  | .bool b => if b then "True" else "False"
  | .int n => toString n
  | .sized width n => "np." ++ width.name ++ "(" ++ toString n ++ ")"
  | .float digits => digits
  | .undefined _ => "nan"
  | .sizedFloat digits => "np.float64(" ++ digits ++ ")"
  | .text s => Text.quote s
  | .list items => "[" ++ ", ".intercalate (writtenItems items) ++ "]"
  | .tuple items => tupleText (writtenItems items)
  | .shape s => s.text

def writtenItems : List Value → List String
  | [] => []
  | v :: vs => written v :: writtenItems vs

end

/-- A value inside a name, with all digits of its integers: a text is itself, and a number is its
digits whatever its width. -/
def inFull : Value → String
  | .text s => s
  | .sized _ n => toString n
  | .sizedFloat digits => digits
  | v => v.written

/-- The integer that a value stands for; a truth value stands for one, but is none. -/
def index? : Value → Option Int
  | .int n => some n
  | .sized _ n => some n
  | .bool b => some (if b then 1 else 0)
  | _ => Option.none

def characters (s : String) : List Value := s.toList.map fun c => .text (String.singleton c)

/-- The dimensions of a shape as integers. -/
def ofDims (s : Shape) : List Value := s.dims.map fun d => .int (Int.ofNat d)

/-- The items that a value spreads into: those of a sequence, the characters of a text. -/
def items? : Value → Option (List Value)
  | .text s => some (characters s)
  | .list items => some items
  | .tuple items => some items
  | .shape s => some (ofDims s)
  | _ => Option.none

mutual

/-- A value that holds a list anywhere inside cannot be part of a key. -/
def hasList : Value → Bool
  | .list _ => true
  | .tuple items => anyHasList items
  | _ => false

def anyHasList : List Value → Bool
  | [] => false
  | v :: vs => hasList v || anyHasList vs

end

end Value

end TensorGraph
