import TensorGraph.Grid.ElementType
import TensorGraph.Shape.Nested

/-!
# Grids

Atoms of one type in row-major order under given dimensions. Where two grids meet, their dimensions
are matched from the last one on, and a dimension of one is stretched to the other's. A number of a
fixed width is a grid without dimensions, so this is what it does in the body of a layer.
-/

namespace TensorGraph

structure Grid where
  type : ElementType
  dims : List Nat
  atoms : List Atom
deriving Repr, Inhabited

namespace Grid

def typeName : TypeName := ⟨"ndarray", some "numpy"⟩

/-- Nested atoms, which have to be regular. -/
def ofNested (n : Nested Atom) : Except Error Grid := do
  let dims ← n.dims
  let type := ElementType.ofAtoms n.leaves
  return ⟨type, dims, n.leaves.map type.convert⟩

/-- The atoms under some dimensions as nested ones. -/
def split : List Nat → List Atom → Nested Atom
  | [], atoms => .leaf (atoms.headD (.value .none))
  | _ :: [], atoms => .branch (atoms.map .leaf)
  | n :: dims, atoms =>
    let size := (Shape.mk dims).size
    .branch ((List.range n).map fun i => split dims ((atoms.drop (i * size)).take size))

/-- A grid as nested atoms. -/
def toNested (g : Grid) : Nested Atom := split g.dims g.atoms

/-- A single atom, which meets every place of another grid. -/
def ofAtom (c : Atom) : Grid :=
  let type :=
    match c with
    | .value (.int _) => .plain
    | c => ElementType.ofAtom c
  ⟨type, [], [c]⟩

/-- The dimensions of two grids that meet, the last one first. -/
def stretch? : List Nat → List Nat → Option (List Nat)
  | [], ns => some ns
  | ms, [] => some ms
  | m :: ms, n :: ns =>
    if m = n ∨ m = 1 ∨ n = 1 then (stretch? ms ns).map ((if m = 1 then n else m) :: ·) else none

/-- The place of a grid that meets a place under stretched dimensions, the last dimension first. -/
def source : (dims stretched : List Nat) → (place : Nat) → Nat
  | m :: ms, n :: ns, place => (if m = 1 then 0 else place % n) + m * source ms ns (place / n)
  | _, _, _ => 0

/-- The atoms of a grid under stretched dimensions. -/
def spread (g : Grid) (stretched : List Nat) : List Atom :=
  let atoms := g.atoms.toArray
  (List.range (Shape.mk stretched).size).filterMap fun place =>
    atoms[source g.dims.reverse stretched.reverse place]?

example : source [3, 1] [3, 2] 4 = 1 := by decide

end Grid

end TensorGraph
