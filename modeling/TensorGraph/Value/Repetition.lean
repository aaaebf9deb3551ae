import TensorGraph.Error
import TensorGraph.Text.Repeated

/-!
# Repetition

How often a sequence can be repeated. The count is kept in a machine word, and what would be too
long is refused before anything is repeated.
-/

namespace TensorGraph.Repetition

/-- The most items for which there is memory. -/
def listMemory : Nat := Nat.pow 2 27

/-- The most characters for which there is memory. -/
def textMemory : Nat := Nat.pow 2 31

/-- No text has more characters, whatever the memory. -/
def longestText : Nat := Nat.pow 2 63 - 1

/-- The number of times that a sequence of some length is repeated. A count below zero leaves
nothing, and nothing needs no repeating. -/
def times (memory length : Nat) (count : Int) : Except Error Nat :=
  if !Width.word.holds count then .error .tooManyTimes
  else if memory < length * count.toNat then .error .outOfMemory
  else .ok (if length = 0 then 1 else count.toNat)

/-- A text that would be longer than any is told from one that exceeds the memory. -/
def timesText (length : Nat) (count : Int) : Except Error Nat :=
  if Width.word.holds count && 1 < count && longestText < length * count.toNat then
    .error .textTooLong
  else times textMemory length count

end TensorGraph.Repetition
