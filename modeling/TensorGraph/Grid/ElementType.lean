import TensorGraph.Grid.Atom

/-!
# Element types

All atoms of a grid have one type. Atoms of several types take the one that they have in common:
numbers a wider number, numbers and texts a text, and all else keeps its objects.
-/

namespace TensorGraph

inductive ElementType where
  | truth
  | integer (width : Width)
  | float
  /-- Texts of at most a length. -/
  | text (length : Nat)
  | object
  /-- A plain integer alone, which takes the type of what it meets. -/
  | plain
deriving DecidableEq, Repr, Inhabited

namespace ElementType

def name : ElementType → String
  | .truth => "bool"
  | .integer width => width.name
  | .float => "float64"
  | .text length => Text.elementName length
  | .object => "object"
  | .plain => "int64"

/-- The length of the texts that numbers of a type may take. -/
def textLength : ElementType → Nat
  | .truth => 5
  | .integer ⟨true, 8⟩ => 4
  | .integer ⟨true, 16⟩ => 6
  | .integer ⟨true, 32⟩ => 11
  | .integer ⟨false, 8⟩ => 3
  | .integer ⟨false, 64⟩ => 20
  | .float => 32
  | .text length => length
  | .integer _ | .object | .plain => 21

/-- The type in common. Integers whose common width exceeds the machine word become floating. -/
def join : ElementType → ElementType → ElementType
  | .object, _ | _, .object => .object
  | .text m, t | t, .text m => .text (max m t.textLength)
  | .float, _ | _, .float => .float
  | .truth, t | t, .truth => t
  | .plain, t | t, .plain => t
  | .integer v, .integer w =>
    if (v.join w).bits ≤ Width.word.bits then .integer (v.join w) else .float

/-- The type that an integer takes among others: a word, one without a sign, or an object. -/
def ofInt (n : Int) : ElementType :=
  if Width.word.holds n then .integer Width.word
  else if Width.unsignedWord.holds n then .integer .unsignedWord
  else .object

def ofValue : Value → ElementType
  | .bool _ => .truth
  | .int n => ofInt n
  | .sized width _ => .integer width
  | .float _ | .undefined _ | .sizedFloat _ => .float
  | .text s => .text s.length
  | .none | .list _ | .tuple _ | .shape _ => .object

def ofAtom : Atom → ElementType
  | .value v => ofValue v
  | .object .. => .object

/-- The type of the atoms of a grid; where there are none it is floating. -/
def ofAtoms : List Atom → ElementType
  | [] => .float
  | c :: cs => cs.foldl (fun t c => t.join (ofAtom c)) (ofAtom c)

/-- An atom at a type that it fits. -/
def convert (t : ElementType) (c : Atom) : Atom :=
  match t, c with
  | .integer width, c => (c.count?.map fun n => .value (.sized width n)).getD c
  | .float, .value (.float digits) => .value (.sizedFloat digits)
  | .float, .value (.undefined _) => .value (.sizedFloat "nan")
  | .float, c =>
    (c.count?.map fun n =>
      .value (.sizedFloat (Number.Floating.ofInt Number.binary64 n).text)).getD c
  | .text _, .value v => .value (.text v.inFull)
  | _, c => c

/-- A number of the type. -/
def sample? : ElementType → Option Quantity
  | .truth | .plain => some (.int 1)
  | .integer width => some (.sized width 1)
  | .float => some (.sizedFloat (.ofInt Number.binary64 1))
  | .text _ | .object => none

/-- The type that a text tells: the order of bytes, which may be left out, a letter and a number of
bytes. -/
def ofText? (s : String) : Option ElementType :=
  match s.toList with
  | c :: rest => if "<>=|".toList.contains c then ofLetters? (String.ofList rest) else ofLetters? s
  | [] => none
where
  ofLetters? : String → Option ElementType
    | "b1" | "?" => some .truth
    | "i1" | "b" => some (.integer ⟨true, 8⟩)
    | "i2" | "h" => some (.integer ⟨true, 16⟩)
    | "i4" | "i" => some (.integer ⟨true, 32⟩)
    | "i8" | "l" | "q" => some (.integer ⟨true, 64⟩)
    | "u1" | "B" => some (.integer ⟨false, 8⟩)
    | "u2" | "H" => some (.integer ⟨false, 16⟩)
    | "u4" | "I" => some (.integer ⟨false, 32⟩)
    | "u8" | "L" | "Q" => some (.integer ⟨false, 64⟩)
    | "f2" | "f4" | "f8" | "e" | "f" | "d" => some .float
    | "O" | "O8" => some .object
    | letters =>
      match letters.toList with
      | 'U' :: digits => (length? digits).map fun n => .text (max n 1)
      | _ => none
  length? (digits : List Char) : Option Nat :=
    if digits.isEmpty then some 0
    else if digits.all Char.isDigit then (String.ofList digits).toNat?
    else none

end ElementType

end TensorGraph
