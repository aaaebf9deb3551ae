import TensorGraph.Grid.Basic

/-!
# Arithmetic of grids

An operator applies to the atoms that meet. The types of the atoms decide first whether it does:
numbers have one with numbers, texts have none, and objects are tried one after the other, numbers
being plain among them. Then the dimensions have to match. What two atoms give is left to whoever
asks.
-/

namespace TensorGraph.Grid

/-- Why texts in a grid have no arithmetic with numbers. -/
def textFault (op : Operator) (l r : ElementType) : Error :=
  match op, l, r with
  | .div, _, _ => .noQuotientType
  | .mul, .integer _, _ | .mul, _, .integer _ => .noElementwiseRepetition
  | op, l, r => .noCommonType op.word l.name r.name

/-- A single plain integer has to fit the type that it meets, also where there are no atoms. -/
def checkPlain (op : Operator) (l r : Grid) : Except Error Unit :=
  match l.type, l.atoms, r.type, r.atoms with
  | .plain, [c], t, _ => check c.quantity? t.sample?
  | t, _, .plain, [c] => check t.sample? c.quantity?
  | _, _, _, _ => .ok ()
where
  check : Option Quantity → Option Quantity → Except Error Unit
    | some x, some y => (Quantity.combine op x y).map fun _ => ()
    | _, _ => .ok ()

/-- The type of the outcome of an operator. -/
def outcomeType (op : Operator) (l r : Grid) : Except Error ElementType :=
  match l.type.join r.type with
  | .object => .ok .object
  | .text _ => .error (textFault op l.type r.type)
  | t => do
    checkPlain op l r
    return if op = .div then .float else t

/-- The atoms of a grid as they take part in an outcome of a type. -/
def operands (g : Grid) (type : ElementType) (stretched : List Nat) : List Atom :=
  let atoms := g.spread stretched
  if type = .object ∧ g.type ≠ .object then atoms.map Atom.plain else atoms

/-- How two grids meet: the type and the dimensions of the outcome, and the atoms in each place. -/
structure Meeting where
  type : ElementType
  dims : List Nat
  pairs : List (Atom × Atom)
deriving Repr, Inhabited

def meet (op : Operator) (l r : Grid) : Except Error Meeting := do
  let type ← outcomeType op l r
  match stretch? l.dims.reverse r.dims.reverse with
  | none => throw (.notBroadcastable l.dims r.dims)
  | some dims =>
    let dims := dims.reverse
    return ⟨type, dims, (l.operands type dims).zip (r.operands type dims)⟩

/-- The outcome of a meeting, place by place. -/
def Meeting.outcome {m : Type → Type} [Monad m] (x : Meeting) (combine : Atom → Atom → m Atom) :
    m Grid := do
  let atoms ← x.pairs.mapM fun p => combine p.1 p.2
  return ⟨x.type, x.dims, atoms⟩

end TensorGraph.Grid
