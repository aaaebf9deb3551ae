import TensorGraph.Error
import TensorGraph.Number.Arithmetic
import TensorGraph.Number.Numeral

/-!
# Arithmetic of values

Integers have exact sums, differences and products, and every quotient is a floating number. An
integer that meets a floating number is taken for the nearest one. Numbers of a fixed width turn
what they meet into a number of a fixed width: integers wrap around in the width that they have in
common, which a plain integer has to fit, and all else is floating.
-/

namespace TensorGraph

/-- A plain integer as one of the width, which has to hold it. It is read as a machine
word first. -/
def Width.check (w : Width) (n : Int) : Except Error Int :=
  if w.holds n then .ok n
  else if Width.word.holds n then .error (.outOfBounds n w)
  else .error (.beyondWord w)

theorem Width.check_eq_ok_iff (w : Width) (m n : Int) : w.check n = .ok m ↔ w.holds n ∧ m = n := by
  unfold check
  split
  · simp [*, eq_comm]
  · split <;> simp [*]

inductive Operator where
  | add | sub | mul | div
deriving DecidableEq, Repr, Inhabited

namespace Operator

def symbol : Operator → String
  | .add => "+" | .sub => "-" | .mul => "*" | .div => "/"

/-- The word for the operator. -/
def word : Operator → String
  | .add => "add" | .sub => "subtract" | .mul => "multiply" | .div => "divide"

/-- The exact result on integers; a quotient has none. -/
def onIntegers? (op : Operator) (m n : Int) : Option Int :=
  match op with
  | .add => some (m + n)
  | .sub => some (m - n)
  | .mul => some (m * n)
  | .div => none

/-- The result on floating numbers, rounded once. -/
def rounded (op : Operator) (x y : Number.Floating) : Number.Floating :=
  match op with
  | .add => x.add Number.binary64 y
  | .sub => x.sub Number.binary64 y
  | .mul => x.mul Number.binary64 y
  | .div => x.div Number.binary64 y

end Operator

/-- A value as a number; a truth value is the integer that it stands for. -/
inductive Quantity where
  | int (n : Int)
  | float (x : Number.Floating)
  | sized (width : Width) (n : Int)
  | sizedFloat (x : Number.Floating)
deriving DecidableEq, Repr, Inhabited

namespace Quantity

open Number (Floating binary64)

def ofValue? : Value → Option Quantity
  | .bool b => some (.int (if b then 1 else 0))
  | .int n => some (.int n)
  | .sized width n => some (.sized width n)
  | .float digits => (Number.Numeral.readFloating? digits).map .float
  | .undefined _ => some (.float .undefined)
  | .sizedFloat digits => (Number.Numeral.readFloating? digits).map .sizedFloat
  | _ => none

def toValue : Quantity → Value
  | .int n => .int n
  | .float x => .float x.text
  | .sized width n => .sized width n
  | .sizedFloat x => .sizedFloat x.text

def isSized : Quantity → Bool
  | .int _ | .float _ => false
  | .sized .. | .sizedFloat _ => true

def negate : Quantity → Quantity
  | .int n => .int (-n)
  | .float x => .float x.neg
  | .sized width n => .sized width (width.wrap (-n))
  | .sizedFloat x => .sizedFloat x.neg

/-- The nearest floating number, which very large integers do not have. -/
def toFloating : Quantity → Except Error Floating
  | .int n =>
    match Floating.ofInt binary64 n with
    | .infinite _ => .error .integerTooLarge
    | x => .ok x
  | .sized _ n => .ok (.ofInt binary64 n)
  | .float x | .sizedFloat x => .ok x

/-- The quotient of two integers, rounded once. -/
def quotient (m n : Int) : Except Error Floating :=
  if n = 0 then .error .divisionByZero
  else
    match binary64.round? m.natAbs n.natAbs with
    | some x => .ok (.finite (decide (m < 0) ^^ decide (n < 0)) x)
    | none => .error .quotientTooLarge

/-- An operator on integers of one width. -/
def wrapped (op : Operator) (width : Width) (m n : Int) : Except Error Quantity :=
  match op.onIntegers? m n with
  | some k => .ok (.sized width (width.wrap k))
  | none => .ok (.sizedFloat (op.rounded (.ofInt binary64 m) (.ofInt binary64 n)))

/-- An operator on floating numbers. Only of plain numbers there is no quotient by zero. -/
def floating (op : Operator) (l r : Quantity) : Except Error Quantity := do
  let x ← l.toFloating
  let y ← r.toFloating
  if l.isSized || r.isSized then return .sizedFloat (op.rounded x y)
  else if op = .div ∧ y.isZero then throw .floatDivisionByZero
  else return .float (op.rounded x y)

/-- A plain integer is checked against the width that it meets, unless a quotient is asked for. -/
def combine (op : Operator) (l r : Quantity) : Except Error Quantity :=
  match l, r with
  | .int m, .int n =>
    match op.onIntegers? m n with
    | some k => .ok (.int k)
    | none => (quotient m n).map .float
  | .sized v m, .sized w n =>
    if (v.join w).bits ≤ Width.word.bits then wrapped op (v.join w) m n else floating op l r
  | .sized w m, .int n =>
    if op = .div then floating op l r else do wrapped op w m (← w.check n)
  | .int m, .sized w n =>
    if op = .div then floating op l r else do wrapped op w (← w.check m) n
  | l, r => floating op l r

theorem combine_int {op : Operator} (h : op ≠ .div) (m n : Int) :
    ∃ k, op.onIntegers? m n = some k ∧ combine op (.int m) (.int n) = .ok (.int k) := by
  cases op with
  | div => exact absurd rfl h
  | _ => exact ⟨_, rfl, rfl⟩

theorem quotient_eq_error_zero_iff (m n : Int) :
    quotient m n = .error .divisionByZero ↔ n = 0 := by
  unfold quotient
  split
  · simp [*]
  · split <;> simp_all

example : combine .add (.sized ⟨true, 8⟩ 100) (.int 100) = .ok (.sized ⟨true, 8⟩ (-56)) := by rfl
example : combine .mul (.int 128) (.sized ⟨true, 8⟩ 1) = .error (.outOfBounds 128 ⟨true, 8⟩) := by
  rfl

end Quantity

end TensorGraph
