/-!
# Shapes

The dimensions of a tensor. A scalar has none.
-/

namespace TensorGraph

structure Shape where
  dims : List Nat
deriving DecidableEq, Hashable, Repr, Inhabited

namespace Shape

def rank (s : Shape) : Nat := s.dims.length

/-- The number of elements. -/
def size (s : Shape) : Nat := s.dims.foldr (· * ·) 1

/-- Arrays have at most this many dimensions. -/
def rankLimit : Nat := 64

/-- The bytes that the elements take in single precision. -/
def bytes (s : Shape) : Nat := 4 * s.size

def text (s : Shape) : String := "Shape(" ++ ", ".intercalate (s.dims.map toString) ++ ")"

@[simp] theorem size_nil : size ⟨[]⟩ = 1 := rfl

@[simp] theorem size_cons (d : Nat) (ds : List Nat) : size ⟨d :: ds⟩ = d * size ⟨ds⟩ := rfl

/-- A tensor is empty exactly when one of its dimensions is. -/
theorem size_eq_zero_iff (s : Shape) : s.size = 0 ↔ 0 ∈ s.dims := by
  obtain ⟨ds⟩ := s
  induction ds with
  | nil => simp
  | cons d ds ih => rw [size_cons, Nat.mul_eq_zero, ih, List.mem_cons, eq_comm]

end Shape

end TensorGraph
