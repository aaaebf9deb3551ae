import TensorGraph.Workspace.Grids

/-!
# Operators on objects

An operator asks the class of the left object first, then that of the right one, unless both are of
one class. A number of a fixed width and a grid take anything else for an atom of a grid, but a
class can keep its members out of that: it can be asked in their place, or be left to do the
operator itself. Where nobody is asked, objects meet as they are stored.
-/

namespace TensorGraph

/-- The name under which a class has an operator for its members on the left. -/
def Operator.special : Operator → String
  | .add => "__add__" | .sub => "__sub__" | .mul => "__mul__" | .div => "__truediv__"

/-- The name under which a class has an operator for its members on the right. -/
def Operator.reflected : Operator → String
  | .add => "__radd__" | .sub => "__rsub__" | .mul => "__rmul__" | .div => "__rtruediv__"

namespace Workspace

/-- A member that stands for an integer, as that integer; anything else as it is. -/
def asCount (call : Caller) (a : Address) : Work Address := do
  if !(← asking fun h => (h.madeClassOf? a).isSome) then return a
  match ← integer? call a with
  | none => return a
  | some n => if Width.word.holds n then newValue (.int n) else decline .beyondWord a

def isRepeatable (h : Heap) (a : Address) : Bool := h.isSequence a || (h.atom a).text?.isSome

/-- An operator on objects as they are stored. A product may take a member for a number of times. -/
def combineStored (call : Caller) (op : Operator) (l r : Address) : Work Address := do
  let (repeatsLeft, repeatsRight) ← asking fun h => (isRepeatable h l, isRepeatable h r)
  let x ← if op = .mul && !repeatsLeft && repeatsRight then asCount call l else pure l
  let y ← if op = .mul && repeatsLeft then asCount call r else pure r
  onHeap fun h => h.combine op x y

/-- An operator as the class of the right object has it, unless the left one is of that class. -/
def combineReflected (call : Caller) (op : Operator) (l r : Address) (otherwise : Work Address) :
    Work Address := do
  if ← asking fun h => (h.madeClassOf? l).map Prod.fst == (h.madeClassOf? r).map Prod.fst then
    otherwise
  else
    match ← special? call r op.reflected with
    | some f => call f [l]
    | none => otherwise

/-- An operator as handles have it, or the class of the left object. -/
def combineLeft (call : Caller) (op : Operator) (l r : Address) (otherwise : Work Address) :
    Work Address := do
  if ← isHandle l then binaryHandle call op l r
  else
    match ← special? call l op.special with
    | some f => call f [r]
    | none => otherwise

/-- What an object does when it meets a number of a fixed width or a grid. -/
inductive Stance where
  /-- It is taken for an atom. -/
  | atom
  /-- It is left to do the operator itself. -/
  | own
  | refuse
  /-- An object of its class does the operator. -/
  | substitute (f : Address)
deriving Repr, Inhabited

/-- Whether the operators of an object can be left to it. -/
def hasOperators (h : Heap) (a : Address) : Bool :=
  match h.get? a with
  | some (.function ..) | some (.method ..) => false
  | _ => true

def ranksAbove (call : Caller) (a : Address) (least : Int) : Work Bool := do
  let rank ← orElse (some <$> getAttribute call a "__array_priority__") (fun _ => true) (pure none)
  match rank with
  | none => return false
  | some rank =>
    match (← asking fun h => (h.atom rank).quantity?).map Quantity.toFloating with
    | some (.ok x) =>
      return (x.sub Number.binary64 (.ofInt Number.binary64 least)).isPositive
    | _ => return false

/-- The rank of grids is zero, and that of single numbers far below. -/
def rankOf (h : Heap) (a : Address) : Int := if h.isGrid a then 0 else -1000000

/-- The stance of an object against a number of a fixed width or a grid, which is on the left if the
object can be left to do the operator. -/
def stanceOf (call : Caller) (a other : Address) (otherFirst : Bool) : Work Stance := do
  if ← asking fun h => isBasic h a then return .atom
  else
    match ← asking fun h => (h.inClass? a "__array_ufunc__", (h.madeClassOf? a).map Prod.fst) with
    | (some item, some type) => do
      let item ← through call item none type
      if ← asking fun h => h.isNone item then return if otherFirst then .own else .refuse
      else return .substitute item
    | _ =>
      if otherFirst && (← asking fun h => hasOperators h a) then
        return if ← ranksAbove call a (← asking fun h => rankOf h other) then .own else .atom
      else return .atom

/-- An operator whose left or right object is a number of a fixed width or a grid: either the other
one takes a stance of its own, or both meet as atoms. -/
def combineArrays (call : Caller) (op : Operator) (l r : Address) (leftIsArray : Bool)
    (meeting : Work Address) : Work Address := do
  let (array, other) := if leftIsArray then (l, r) else (r, l)
  match ← stanceOf call other array leftIsArray with
  | .atom => meeting
  | .own => do
    let (left, right) ← asking fun h => (h.typeName l, h.typeName r)
    combineReflected call op l r (throw (.unsupportedOperands op.symbol left right))
  | .refuse => decline .notElementwise other
  | .substitute f => do
    let function ← newValue .none
    call f [other, function, ← newValue (.text "__call__"), l, r]

def meetsSized (h : Heap) (l r : Address) : Bool :=
  (h.atom l).isSized && (h.value? r).isNone && !h.isSequence r

/-- An operator on objects as their classes have it, or as they are stored. -/
def combineObjects (call : Caller) (op : Operator) (l r : Address) : Work Address :=
  combineLeft call op l r (combineReflected call op l r (combineStored call op l r))

/-- An operator on two atoms of grids, among which numbers of a fixed width that meet no number are
plain ones. -/
def combineAtoms (call : Caller) (op : Operator) (x y : Atom) : Work Atom := do
  match x, y with
  | .value _, .value _ => .value <$> ofExcept (Atom.combine op x y)
  | _, _ =>
    let l ← storing fun h => h.ofAtom x.plain
    let r ← storing fun h => h.ofAtom y.plain
    let outcome ← combineObjects call op l r
    asking fun h => h.atom outcome

def combineGrids (call : Caller) (op : Operator) (l r : Address) : Work Address := do
  let g ← gridOf call l
  let k ← gridOf call r
  let x ← ofExcept (Grid.meet op g k)
  newGrid (← x.outcome (combineAtoms call op))

def combine (call : Caller) (op : Operator) (l r : Address) : Work Address := do
  combineLeft call op l r (do
    let (areGrids, first, second) ← asking fun h =>
      (h.meetAsGrids op l r, meetsSized h l r, meetsSized h r l)
    if areGrids then
      combineArrays call op l r (← asking fun h => h.isGrid l) (combineGrids call op l r)
    else if first then combineArrays call op l r true (combineGrids call op l r)
    else if second then combineArrays call op l r false (combineGrids call op l r)
    else combineReflected call op l r (combineStored call op l r))

def negateSingle (call : Caller) (a : Address) : Work Address := do
  if ← isHandle a then unaryHandle call .neg a
  else
    match ← special? call a Unary.neg.method with
    | some f => call f []
    | none => onHeap fun h => h.negate a

def negateAtom (call : Caller) (x : Atom) : Work Atom := do
  match x with
  | .value _ => .value <$> ofExcept x.negate
  | .object a _ => do
    let outcome ← negateSingle call a
    asking fun h => h.atom outcome

def negate (call : Caller) (a : Address) : Work Address := do
  match ← object a with
  | some (.grid g) => newObject (.grid { g with atoms := ← g.atoms.mapM (negateAtom call) })
  | _ => negateSingle call a

end Workspace

end TensorGraph
