/-!
# Shortened texts

A text in a limited number of bytes. What does not fit is left out; of a character that fits in
part a mark is left.
-/

namespace TensorGraph.Text

/-- The mark of a character that was cut. -/
def cutMark : Char := '\ufffd'

/-- The characters that fit into a number of bytes. -/
def fitting : Nat → List Char → List Char
  | _, [] => []
  | room, c :: cs =>
    if c.utf8Size ≤ room then c :: fitting (room - c.utf8Size) cs
    else if room = 0 then []
    else [cutMark]

def shortened (limit : Nat) (s : String) : String := String.ofList (fitting limit s.toList)

example : fitting 2 ['a', 'b', 'c'] = ['a', 'b'] := by decide
example : fitting 4 ['a', 'é', 'é'] = ['a', 'é', cutMark] := by decide

end TensorGraph.Text
