import TensorGraph.Number.Decimal
import TensorGraph.Shape.Nested

/-!
# Data

Data come as numbers nested in lists, or as an array. Regular nesting makes a tensor in single
precision; every number is first rounded to double precision and then to single. An array has its
shape also where it has no elements.
-/

namespace TensorGraph

open Number

/-- A number of unbounded size, or one in double precision. -/
inductive Scalar where
  | int (n : Int)
  | double (x : Floating)
deriving DecidableEq, Repr, Inhabited

namespace Scalar

/-- An integer that exceeds double precision has no nearest number there. -/
def toDouble : Scalar → Except Error Floating
  | .int n =>
    match binary64.round? n.natAbs 1 with
    | some x => .ok (.finite (decide (n < 0)) x)
    | none => .error .elementTooLarge
  | .double x => .ok x

def toSingle (s : Scalar) : Except Error Floating := s.toDouble.map (·.convert binary32)

end Scalar

inductive Data where
  /-- Numbers nested in lists. -/
  | nested (numbers : Nested Scalar)
  /-- An array in double precision or less, its elements in row-major order. -/
  | array (s : Shape) (elements : Vector Floating s.size)
deriving Repr

instance : Inhabited Data := ⟨.nested default⟩

/-- A tensor in single precision, its elements in row-major order. -/
structure Tensor where
  shape : Shape
  elements : List Floating
deriving DecidableEq, Repr, Inhabited

namespace Tensor

/-- Raggedness is noticed before any number is converted. -/
def ofNested (numbers : Nested Scalar) : Except Error Tensor :=
  match numbers.dims with
  | .error _ => .error .raggedData
  | .ok dims => do
    let elements ← numbers.leaves.mapM Scalar.toSingle
    return ⟨⟨dims⟩, elements⟩

def ofData : Data → Except Error Tensor
  | .nested numbers => ofNested numbers
  | .array s elements => .ok ⟨s, elements.toList.map (·.convert binary32)⟩

end Tensor

end TensorGraph
