/-!
# Hexadecimal numerals

Numerals of a fixed width in lower case, as they appear in escapes, float words and digests.
-/

namespace TensorGraph.Text

def hexDigit (n : Nat) : Char :=
  if n < 10 then Char.ofNat ('0'.toNat + n) else Char.ofNat ('a'.toNat + (n - 10))

/-- The last `width` hexadecimal digits of `n`, the most significant one first. -/
def hexDigits : Nat → Nat → List Char
  | 0, _ => []
  | width + 1, n => hexDigits width (n / 16) ++ [hexDigit (n % 16)]

def hex (width n : Nat) : String := String.ofList (hexDigits width n)

@[simp] theorem length_hexDigits (width n : Nat) : (hexDigits width n).length = width := by
  induction width generalizing n with
  | zero => rfl
  | succ width ih => simp [hexDigits, ih]

example : hexDigits 4 0xad = ['0', '0', 'a', 'd'] := by decide

end TensorGraph.Text
