/-!
# Repeated texts

A text a number of times over, in as many steps as the number has binary digits.
-/

namespace TensorGraph.Text

def times (s : String) (n : Nat) : String :=
  if n = 0 then ""
  else
    let half := times s (n / 2)
    if n % 2 = 0 then half ++ half else half ++ half ++ s
termination_by n

end TensorGraph.Text
