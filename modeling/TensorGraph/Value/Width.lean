/-!
# Integer widths

Integers that are kept in a fixed number of bits wrap around. When two widths meet, the result has
the smallest width that holds the numbers of both.
-/

namespace TensorGraph

structure Width where
  signed : Bool
  bits : Nat
deriving DecidableEq, Hashable, Repr, Inhabited

namespace Width

def name (w : Width) : String := (if w.signed then "int" else "uint") ++ toString w.bits

/-- The widths in use. Any two of them have a common one among them. -/
def all : List Width := [⟨true, 8⟩, ⟨true, 16⟩, ⟨true, 32⟩, ⟨true, 64⟩, ⟨false, 8⟩]

/-- The width of a machine word. -/
def word : Width := ⟨true, 64⟩

/-- The width of a machine word without a sign. -/
def unsignedWord : Width := ⟨false, 64⟩

def ofName? (s : String) : Option Width := all.find? fun w => w.name == s

/-- The number of the width that agrees with an integer in the bits kept. -/
def wrap (w : Width) (n : Int) : Int :=
  if w.signed then n.bmod (Nat.pow 2 w.bits) else n % Nat.pow 2 w.bits

def holds (w : Width) (n : Int) : Bool := w.wrap n = n

/-- The width of what two widths give together. An unsigned width fits into a signed one that has
more bits. -/
def join (v w : Width) : Width :=
  if v.signed = w.signed then ⟨v.signed, max v.bits w.bits⟩
  else if v.signed then ⟨true, max v.bits (2 * w.bits)⟩
  else ⟨true, max w.bits (2 * v.bits)⟩

@[simp] theorem wrap_wrap (w : Width) (n : Int) : w.wrap (w.wrap n) = w.wrap n := by
  unfold wrap
  split <;> simp

theorem holds_wrap (w : Width) (n : Int) : w.holds (w.wrap n) = true := by simp [holds]

example : wrap ⟨true, 8⟩ 200 = -56 := by decide
example : wrap ⟨false, 8⟩ (-1) = 255 := by decide

end Width

end TensorGraph
