import TensorGraph.Shape.Nested
import TensorGraph.Value.Arithmetic

/-!
# Comparing values

Values that are compared one with the other are equal when they are the same, with one exception:
a number of a fixed width is compared with each item of a sequence, and unless there is exactly
one the comparison has no single answer. With a floating number it is compared as one.
-/

namespace TensorGraph.Value

mutual

def nested : Value → Nested Value
  | .list items => .branch (nestedItems items)
  | .tuple items => .branch (nestedItems items)
  | .shape s => .branch ((ofDims s).map .leaf)
  | v => .leaf v

def nestedItems : List Value → List (Nested Value)
  | [] => []
  | v :: vs => nested v :: nestedItems vs

end

def isSized : Value → Bool
  | .sized .. | .sizedFloat _ => true
  | _ => false

def isSequence : Value → Bool
  | .list _ | .tuple _ | .shape _ => true
  | _ => false

/-- An integer and a floating number are equal when the nearest floating number is that one. -/
def equalsNearest (n : Int) (digits : String) : Bool :=
  match Number.Numeral.readFloating? digits with
  | some x => x.int?.isSome && (Number.Floating.ofInt Number.binary64 n).int? == x.int?
  | Option.none => false

/-- Equality of values that are no sequences. -/
def equalsPlain : Value → Value → Bool
  | .sized _ n, .float digits | .float digits, .sized _ n => equalsNearest n digits
  | .sized _ n, .sizedFloat digits | .sizedFloat digits, .sized _ n => equalsNearest n digits
  | .undefined _, _ => false
  | v, w => v.same w

/-- A number compared with each item of a sequence, whose items have to be regular. -/
def equalsEach (v w : Value) : Except Error Bool := do
  let _ ← w.nested.dims
  match w.nested.leaves with
  | [] => throw .emptyTruth
  | [x] => return v.equalsPlain x
  | _ => throw .ambiguousTruth

mutual

/-- Lists of different lengths differ whatever they hold; the items of tuples are compared first. -/
def equals (v w : Value) : Except Error Bool :=
  match v, w with
  | .list xs, .list ys => if xs.length = ys.length then equalItems xs ys else .ok false
  | .tuple xs, .tuple ys => equalItems xs ys
  | v, w =>
    if v.isSized && w.isSequence then v.equalsEach w
    else if w.isSized && v.isSequence then w.equalsEach v
    else .ok (v.equalsPlain w)

/-- The first items that differ decide. -/
def equalItems (vs ws : List Value) : Except Error Bool :=
  match vs, ws with
  | [], [] => .ok true
  | v :: vs, w :: ws =>
    match equals v w with
    | .ok true => equalItems vs ws
    | other => other
  | _, _ => .ok false

end

theorem equals_int (m n : Int) : equals (.int m) (.int n) = .ok (decide (m = n)) := by
  by_cases h : m = n <;>
    simp [equals, isSized, equalsPlain, same, signature, Token.isUndefined, h]

end TensorGraph.Value
