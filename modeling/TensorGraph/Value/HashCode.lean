import TensorGraph.Graph.Handle
import TensorGraph.Value.Arithmetic

/-!
# Hash codes

What is looked up has a hash code, and things that are equal have one hash code. That of a number is
its residue, so it does not depend on the type of the number. Objects that are only equal to
themselves have a code of their own.
-/

namespace TensorGraph

/-- One piece of a hash code. -/
inductive HashToken where
  | absent
  | number (n : Int)
  | text (s : String)
  /-- The identity of an object. -/
  | object (a : Address)
  | arena (id : ArenaId)
  | kind (k : Kind)
  /-- A row of so many things, whose codes follow. -/
  | row (length : Nat)
deriving DecidableEq, Repr, Inhabited

abbrev HashCode := List HashToken

/-- Keys that are no integers, with the hash codes that they had when they were put in. -/
abbrev KeyCodes := List (Address × HashCode)

namespace HashCode

/-- Residues are taken by this prime. -/
def modulus : Nat := Nat.pow 2 61 - 1

/-- One residue stands for failure, so it is left out. -/
def settled (n : Int) : Int := if n = -1 then -2 else n

def ofInt (n : Int) : HashCode := [.number (settled (n.tmod modulus))]

/-- The residue of a floating number. Two to the power of 61 has the residue one. -/
def ofFloating (a : Address) : Number.Floating → HashCode
  | .finite negative x =>
    let residue := x.significand % modulus * Nat.pow 2 (x.exponent % 61).toNat % modulus
    [.number (settled (Number.Floating.signed negative residue))]
  | .infinite negative => [.number (if negative then -314159 else 314159)]
  | .undefined => [.object a]

/-- The code of a text, which is known for the empty one. -/
def ofText (s : String) : HashCode := if s.isEmpty then [.number 0] else [.text s]

/-- The code that an object gives for itself. A machine word is taken as it is. -/
def given (n : Int) : HashCode := if Width.word.holds n then [.number (settled n)] else ofInt n

mutual

/-- The code of a value at an address, unless it holds something that can change. -/
def ofValue? (a : Address) : Value → Option HashCode
  | .none => some [.absent]
  | .bool b => some (ofInt (if b then 1 else 0))
  | .int n | .sized _ n => some (ofInt n)
  | .float digits | .sizedFloat digits =>
    some (ofFloating a ((Number.Numeral.readFloating? digits).getD .undefined))
  | .undefined _ => some [.object a]
  | .text s => some (ofText s)
  | .list _ => none
  | .tuple items => (ofValues? a items).map fun codes => .row items.length :: codes
  | .shape s => some (.row s.dims.length :: s.dims.flatMap fun d => ofInt (Int.ofNat d))

def ofValues? (a : Address) : List Value → Option HashCode
  | [] => some []
  | v :: vs => do return (← ofValue? a v) ++ (← ofValues? a vs)

end

example : ofFloating 0 (.ofInt Number.binary64 (2 ^ 70)) = ofInt (2 ^ 70) := by decide +kernel

end HashCode

end TensorGraph
