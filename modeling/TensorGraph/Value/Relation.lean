import TensorGraph.Value.Comparison

/-!
# Relations

Numbers are related by what they are exactly, whatever their types, and texts character by
character. The undefined number is in no order and differs from everything.
-/

namespace TensorGraph

inductive Relation where
  | equal
  | unequal
  | less
  | atMost
  | greater
  | atLeast
deriving DecidableEq, Repr, Inhabited

namespace Relation

def symbol : Relation → String
  | .equal => "=="
  | .unequal => "!="
  | .less => "<"
  | .atMost => "<="
  | .greater => ">"
  | .atLeast => ">="

/-- The name under which a class has the relation for its members. -/
def special : Relation → String
  | .equal => "__eq__"
  | .unequal => "__ne__"
  | .less => "__lt__"
  | .atMost => "__le__"
  | .greater => "__gt__"
  | .atLeast => "__ge__"

/-- The relation of the right side to the left one. -/
def swapped : Relation → Relation
  | .less => .greater
  | .atMost => .atLeast
  | .greater => .less
  | .atLeast => .atMost
  | r => r

/-- Whether the relation holds between things in an order. -/
def holds (r : Relation) (o : Ordering) : Bool :=
  match r with
  | .equal => o.isEq
  | .unequal => o.isNe
  | .less => o.isLT
  | .atMost => o.isLE
  | .greater => o.isGT
  | .atLeast => o.isGE

end Relation

namespace Quantity

open Number (Floating binary64)

/-- Infinities are quotients by zero. -/
def ratio? : Floating → Option (Int × Nat)
  | .finite negative x => some (Floating.signed negative x.ratio.1, x.ratio.2)
  | .infinite negative => some (if negative then -1 else 1, 0)
  | .undefined => none

/-- A number as a floating one, nearest if the other number is one of a fixed width. -/
def ratioBeside? (other : Quantity) : Quantity → Option (Int × Nat)
  | .int n => some (n, 1)
  | .sized _ n =>
    match other with
    | .float _ | .sizedFloat _ => ratio? (.ofInt binary64 n)
    | _ => some (n, 1)
  | .float x | .sizedFloat x => ratio? x

/-- The order of two numbers, unless one of them is undefined. Two infinities are told apart by
their signs. -/
def compare? (x y : Quantity) : Option Ordering :=
  match ratioBeside? y x, ratioBeside? x y with
  | some (m, d), some (n, e) =>
    some (if d = 0 ∧ e = 0 then compare m n else compare (m * e) (n * d))
  | _, _ => none

example : compare? (.int (2 ^ 53 + 1)) (.float (.ofInt binary64 (2 ^ 53))) = some .gt := by
  decide +kernel

example : compare? (.float (.infinite true)) (.float (.infinite false)) = some .lt := by
  decide +kernel

end Quantity

namespace Value

/-- Whether two values stand in a relation, where their types have one. -/
def relate? (r : Relation) (v w : Value) : Option Bool :=
  match Quantity.ofValue? v, Quantity.ofValue? w, v, w with
  | some x, some y, _, _ =>
    some (match x.compare? y with
      | some o => r.holds o
      | Option.none => r = .unequal)
  | _, _, .text s, .text t => some (r.holds (compare s t))
  | _, _, .none, .none => if r = .equal ∨ r = .unequal then some (r = .equal) else Option.none
  | _, _, _, _ => Option.none

theorem relate?_int (r : Relation) (m n : Int) :
    relate? r (.int m) (.int n) = some (r.holds (compare m n)) := by
  simp [relate?, Quantity.ofValue?, Quantity.compare?, Quantity.ratioBeside?]

end Value

end TensorGraph
