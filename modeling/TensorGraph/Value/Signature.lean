import TensorGraph.Number.Numeral
import TensorGraph.Value.Basic

/-!
# Equality of values

Two values are the same when their signatures are. Numbers are compared as numbers, whatever their
type, and a shape is the same as the tuple of its dimensions. The undefined number equals no number,
so it is the same as no value, unless the two are one object: what is looked up is first asked
whether it is what is stored, and equal only after that.
-/

namespace TensorGraph

namespace Value

/-- One piece of a signature. -/
inductive Token where
  | none
  | number (n : Int)
  /-- A number that is no integer, by its shortest text. -/
  | fraction (digits : String)
  /-- The undefined number that is this object. -/
  | object (identity : Nat)
  | text (s : String)
  | list (length : Nat)
  | tuple (length : Nat)
  /-- The name of an operation. -/
  | name (s : String)
deriving DecidableEq, Hashable, Repr, Inhabited

/-- Floating numbers with an integral value are that integer. -/
def floatToken (text : String) : Token :=
  match (Number.Numeral.readFloating? text).bind Number.Floating.int? with
  | some n => .number n
  | Option.none => .fraction text

mutual

def signature : Value → List Token
  | .none => [.none]
  | .bool b => [.number (if b then 1 else 0)]
  | .int n => [.number n]
  | .sized _ n => [.number n]
  | .float digits => [floatToken digits]
  | .undefined object => [.object object]
  | .sizedFloat digits => [floatToken digits]
  | .text s => [.text s]
  | .list items => .list items.length :: signatures items
  | .tuple items => .tuple items.length :: signatures items
  | .shape s => .tuple s.dims.length :: s.dims.map fun d => .number (Int.ofNat d)

def signatures : List Value → List Token
  | [] => []
  | v :: vs => signature v ++ signatures vs

end

/-- The token of an undefined number that is an object of its own each time it is given. -/
def Token.isUndefined : Token → Bool
  | .fraction digits => digits == "nan"
  | _ => false

/-- A piece that is an integer with more digits than a text may hold, its sign not counted. Floating
numbers and integers of a fixed width have too few digits for a limit to matter. -/
def Token.isTooLong (digits : Option Nat) : Token → Bool
  | .number n => digits.any fun limit => Nat.pow 10 limit ≤ n.natAbs
  | _ => false

/-- A value that cannot be written, since an integer in it is too long. -/
def isTooLong (digits : Option Nat) (v : Value) : Bool := v.signature.any (Token.isTooLong digits)

def same (v w : Value) : Bool :=
  !v.signature.any Token.isUndefined && v.signature == w.signature

/-- What counts as true: all but the absent value, zero and what is empty. -/
def isTrue (v : Value) : Bool :=
  !([[.none], [.number 0], [.text ""], [.list 0], [.tuple 0]] : List (List Token)).contains
    v.signature

@[simp] theorem signature_int (n : Int) : signature (.int n) = [.number n] := rfl

theorem same_symm (v w : Value) : same v w = same w v := by
  rw [Bool.eq_iff_iff]
  simp only [same, Bool.and_eq_true, beq_iff_eq]
  exact ⟨fun h => ⟨h.2 ▸ h.1, h.2.symm⟩, fun h => ⟨h.2 ▸ h.1, h.2.symm⟩⟩

example : same (.undefined 0) (.undefined 0) ∧ ¬same (.undefined 0) (.undefined 1) ∧
    ¬same (.float "nan") (.float "nan") := by decide +kernel

end Value

end TensorGraph
