import Std.Data.HashSet
import TensorGraph.Value.HashCode
import TensorGraph.Value.SlotTable
import TensorGraph.Workspace.Comparing

/-!
# Keys

Tables are keyed by indices. A key is found by its hash code first, and then by being the key looked
for or equal to it, so a key that is no integer may stand for one that is. Integers are looked up as
they are. Every other key has a number of its own, under which tables keep it.
-/

namespace TensorGraph

/-- Numbers from here down stand for objects. -/
def Index.base : Int := -(Nat.pow 2 80)

namespace Index

/-- The number under which tables keep an index. -/
def number : Index → Int
  | .int n => n
  | .object a => base - a

def ofNumber (n : Int) : Index := if n ≤ base then .object (base - n).toNat else .int n

theorem ofNumber_number_object (a : Address) : ofNumber (number (.object a)) = .object a := by
  have h : base - (a : Int) ≤ base := Int.sub_le_self _ (Int.natCast_nonneg a)
  have e : (base - (base - (a : Int))).toNat = a := by omega
  simp only [number, ofNumber, if_pos h, e]

theorem ofNumber_number_int {n : Int} (h : base < n) : ofNumber (number (.int n)) = .int n := by
  simp [number, ofNumber, Int.not_le.mpr h]

end Index

namespace Workspace

/-- The code of an object that is only known by its identity. -/
def identityCode (h : Heap) (a : Address) : HashCode :=
  match h.value? a with
  | some v => if v.isSingle then (HashCode.ofValue? a v).getD [.object a] else [.object a]
  | none => [.object a]

def storeCode (h : Heap) : Store → HashCode
  | .arena id => [.arena id]
  | .object a => identityCode h a

/-- The hash code of a member, as its class has it. -/
def hashOfMember (call : Caller) (a : Address) : Work HashCode := do
  match ← asking fun h => h.inClass? a "__hash__" with
  | none => return [.object a]
  | some entry =>
    match ← asking fun h => h.isNone entry, ← specialOrNone call a "__hash__" with
    | false, some f =>
      match ← object (← call f []) with
      | some (.value (.int n)) => return HashCode.given n
      | some (.value (.bool b)) => return HashCode.ofInt (if b then 1 else 0)
      | _ => throw (.refused .hashNotInteger)
    | _, _ => reject .unhashable a

/-- The hash code of an object, going at most `depth` objects deep. What can change has none. -/
def hashWithin (call : Caller) : Nat → Address → Work HashCode
  | 0, _ => throw .tooDeep
  | depth + 1, a => do
    match ← object a, ← asking fun h => h.handle? a with
    | some (.tuple items), _ => do
      let codes ← items.mapM (hashWithin call depth)
      return .row items.length :: codes.flatten
    | _, some x => do
      let index ←
        match x.index with
        | .int n => pure (HashCode.ofInt n)
        | .object i => hashWithin call depth i
      asking fun h => .row 2 :: storeCode h x.store ++ index
    | some (.list _), _ | some (.dict _), _ | some (.grid _), _ => reject .unhashable a
    | some (.member (.made _) ..), _ => hashOfMember call a
    | some (.kind k), _ => return [.kind k]
    | some (.arena id), _ => return [.arena id]
    | some (.method f x), _ => return [.row 2, .object f, .object x]
    | some (.bound f x), _ => return [.row 2, .text f, .object x]
    | _, none =>
      match ← asking fun h => h.value? a with
      | some v => return (HashCode.ofValue? a v).getD [.object a]
      | none => return [.object a]

/-- The hash code of an object. Objects on the way down are other ones, unless one holds itself. -/
def hashOf (call : Caller) (a : Address) : Work HashCode := fun w =>
  hashWithin call (w.heap.size + 1) a w

/-- Among keys of one hash code the first one that is, or equals, the index looked for. -/
def firstAgreeing (call : Caller) (i : Index) : List Index → Work (Option Int)
  | [] => return none
  | j :: js => do
    if j = i || (← equals call (← indexObject j) (← indexObject i)) then return some j.number
    else firstAgreeing call i js

/-- The integers with a hash code, apart from very large ones. -/
def integersOf : HashCode → List Int
  | [.number n] => if n = -2 then [-2, -1] else [n]
  | _ => []

/-- The number of the key of a table that an index with a hash code finds. -/
def findWithCode (call : Caller) (has : Int → Bool) (codes : KeyCodes) (i : Index)
    (code : HashCode) : Work (Option Int) :=
  let integers := ((integersOf code).filter has).map Index.int
  let others := (codes.filter fun k => k.2 == code).map fun k => Index.object k.1
  firstAgreeing call i (integers ++ others.filter fun k => has k.number)

/-- The number of the key of a table that an index finds. -/
def findNumber (call : Caller) (has : Int → Bool) (codes : KeyCodes) (i : Index) :
    Work (Option Int) := do
  match i with
  | .int n =>
    if has n then return some n
    else if codes.isEmpty then return none
    else findWithCode call has codes i (HashCode.ofInt n)
  | .object a => do findWithCode call has codes i (← hashOf call a)

/-- Keys, each once, in the order in which they were put in. -/
structure KeySet where
  numbers : Std.HashSet Int := ∅
  codes : KeyCodes := []
  /-- The last one first. -/
  items : List Index := []

instance : Inhabited KeySet := ⟨{}⟩

namespace KeySet

def has (s : KeySet) (call : Caller) (i : Index) : Work Bool := do
  return (← findNumber call s.numbers.contains s.codes i).isSome

/-- Puts a key in that was not found. -/
def push (s : KeySet) (call : Caller) (i : Index) : Work KeySet := do
  let codes ←
    match i with
    | .int _ => pure s.codes
    | .object a => do pure (s.codes ++ [(a, ← hashOf call a)])
  return { numbers := s.numbers.insert i.number, codes, items := i :: s.items }

/-- Puts a key in, unless it is found. -/
def add (s : KeySet) (call : Caller) (i : Index) : Work KeySet := do
  if ← s.has call i then return s else s.push call i

def size (s : KeySet) : Nat := s.items.length

/-- The code of a key as a number, if it is one. -/
def codeNumber? (s : KeySet) (i : Index) : Option Nat :=
  let code :=
    match i with
    | .int n => HashCode.ofInt n
    | .object a => ((s.codes.find? fun (k : Address × HashCode) => k.1 == a).map Prod.snd).getD []
  match code with
  | [.number n] => some (n % Nat.pow 2 64).toNat
  | _ => none

/-- The keys from slot to slot, where all codes are numbers, and else as they came. -/
def toList (s : KeySet) : List Index :=
  let items := s.items.reverse
  match items.mapM fun i => (s.codeNumber? i).map fun code => (code, i) with
  | some entries => (SlotTable.ofList entries).toList
  | none => items

end KeySet

/-- An index as a number, if it is one. -/
def quantityOf? (h : Heap) : Index → Option Quantity
  | .int n => some (.int n)
  | .object a => (h.value? a).bind Quantity.ofValue?

/-- Entries of a table in ascending order of their numbers, if all their indices are numbers. -/
def ranked? {α : Type} (h : Heap) (entries : List (Index × α)) : Option (List (Index × α)) :=
  (entries.mapM fun e => (quantityOf? h e.1).map fun q => (q, e)).map fun ranked =>
    (ranked.mergeSort fun x y => x.1.compare? y.1 != some .gt).map Prod.snd

/-- The keys of a set in ascending order. -/
def KeySet.sort (s : KeySet) (call : Caller) : Work (List Index) := do
  match ← asking fun h => ranked? h (s.items.map fun i => (i, ())) with
  | some entries => return entries.map Prod.fst
  | none => do
    let sorted ← Workspace.sort call (← s.toList.mapM indexObject)
    asking fun h => sorted.map h.indexOf

end Workspace

end TensorGraph
