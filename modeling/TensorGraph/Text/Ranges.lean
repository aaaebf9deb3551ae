/-!
# Ranges of characters

A set of characters is given by the ranges of their codes.
-/

namespace TensorGraph.Text

/-- Whether a character is in one of the ranges. -/
def isAmong (ranges : List (Nat × Nat)) (c : Char) : Bool :=
  ranges.any fun r => r.1 ≤ c.toNat && c.toNat ≤ r.2

end TensorGraph.Text
