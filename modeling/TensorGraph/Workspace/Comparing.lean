import TensorGraph.Value.Relation
import TensorGraph.Workspace.Inquiry

/-!
# Comparing objects

How two objects relate is asked of the left one first and then of the right one, unless the type of
the right one refines that of the left. Values are compared by what they are, containers by their
items, handles by their parts, members of a made class as the class says, and all else is equal only
to itself. What an object answers need not be a truth value.
-/

namespace TensorGraph.Workspace

abbrev Asker := Relation → Address → Address → Work Address

def newTruth (b : Bool) : Work Address := newValue (.bool b)

def agree (call : Caller) (ask : Asker) (a b : Address) : Work Bool := do
  if ← asking fun h => h.isSame a b then return true
  else isTrue call (← ask .equal a b)

/-- The first items that differ, side by side, of which one can be missing. -/
def firstDifference (call : Caller) (ask : Asker) :
    List Address → List Address → Work (Option Address × Option Address)
  | x :: xs, y :: ys => do
    if ← agree call ask x y then firstDifference call ask xs ys else return (some x, some y)
  | xs, ys => return (xs.head?, ys.head?)

/-- How two rows relate: as the first items that differ, or else as their lengths. -/
def relateRows (call : Caller) (ask : Asker) (r : Relation) (xs ys : List Address) :
    Work Address := do
  match ← firstDifference call ask xs ys, r with
  | (some _, some _), .equal => newTruth false
  | (some _, some _), .unequal => newTruth true
  | (some x, some y), r => ask r x y
  | _, r => newTruth (r.holds (compare xs.length ys.length))

def agreeOnEntries (call : Caller) (ask : Asker) (others : Entries) : Entries → Work Bool
  | [] => return true
  | (key, item) :: rest => do
    match others.get? key with
    | none => return false
    | some other =>
      if ← agree call ask other item then agreeOnEntries call ask others rest else return false

def agreeOnAll (call : Caller) (ask : Asker) (entries others : Entries) : Work Bool := do
  if entries.length = others.length then agreeOnEntries call ask others entries else return false

def relateHandles (ask : Asker) (x y : Handle) : Work Address := do
  if ← asking fun h => h.isSameStore x.store y.store then
    match x.index, y.index with
    | .int m, .int n => newTruth (m = n)
    | i, j => do ask .equal (← indexObject i) (← indexObject j)
  else newTruth false

/-- Whether an object is the same handle, which is no truth value if their indices do
not give one. -/
def sameHandle (call : Caller) (ask : Asker) (x : Handle) (b : Address) : Work Address := do
  match ← asking fun h => h.handle? b with
  | some y => relateHandles ask x y
  | none => do
    askClass call b
    newTruth false

/-- A relation that is not an answer of its own. -/
def negated (call : Caller) (outcome : Work Address) : Work Address := do
  newTruth (!(← isTrue call (← outcome)))

/-- The answer of a member as its class has it. Without a rule for what differs, what is equal does
not. -/
def askMember (call : Caller) (r : Relation) (a b : Address) : Work (Option Address) := do
  if ← asking fun h => (h.inClass? a r.special).isSome then
    match ← specialOrNone call a r.special with
    | some f => some <$> call f [b]
    | none => return none
  else if r = .unequal then
    match ← specialOrNone call a Relation.equal.special with
    | some f => some <$> negated call (call f [b])
    | none => return none
  else return none

/-- A number of a fixed width compared with each item of a sequence, or with an object as a plain
one. -/
def askSized (call : Caller) (ask : Asker) (r : Relation) (v : Value) (b : Address) :
    Work (Option Address) := do
  match ← asking fun h => (h.isSequence b, h.wholeValue? b, (h.madeClassOf? b).isSome), r with
  | (true, some w, _), .equal => some <$> (do newTruth (← ofExcept (v.equals w)))
  | (true, some w, _), .unequal => some <$> (do newTruth (!(← ofExcept (v.equals w))))
  | (_, _, true), r =>
    some <$> (do newTruth (← isTrue call (← ask r (← newValue (Atom.plainValue v)) b)))
  | _, _ => return none

def sameMethod (h : Heap) (a b : Address) : Option Bool :=
  match h.get? a, h.get? b with
  | some (.method f x), some (.method g y) => some (h.isSame x y && f == g)
  | some (.bound f x), some (.bound g y) => some (h.isSame x y && f == g)
  | _, _ => none

def answer (call : Caller) (ask : Asker) (r : Relation) (a b : Address) :
    Work (Option Address) := do
  match ← object a, ← object b, ← asking fun h => h.handle? a with
  | some (.list xs), some (.list ys), _ =>
    if xs.length ≠ ys.length ∧ (r = .equal ∨ r = .unequal) then some <$> newTruth (r = .unequal)
    else some <$> relateRows call ask r xs ys
  | some (.value v), some (.value w), _ =>
    match v.relate? r w with
    | some b => some <$> newTruth b
    | none => return none
  | some (.value v), _, _ => if v.isSized then askSized call ask r v b else return none
  | some (.dict es), some (.dict fs), _ =>
    match r with
    | .equal => some <$> (do newTruth (← agreeOnAll call ask es fs))
    | .unequal => some <$> (do newTruth (!(← agreeOnAll call ask es fs)))
    | _ => return none
  | some (.member (.made _) ..), _, _ => askMember call r a b
  | _, _, some x =>
    match r with
    | .equal => some <$> sameHandle call ask x b
    | .unequal => some <$> negated call (sameHandle call ask x b)
    | _ => return none
  | _, _, none =>
    if ← asking fun h => isTuple h a && isTuple h b then
      let xs ← onHeap fun h => .ok (h.tupleItems a)
      let ys ← onHeap fun h => .ok (h.tupleItems b)
      some <$> relateRows call ask r xs ys
    else
      match ← asking fun h => sameMethod h a b, r with
      | some b, .equal => some <$> newTruth b
      | some b, .unequal => some <$> newTruth (!b)
      | _, _ => return none
where
  isTuple (h : Heap) (a : Address) : Bool :=
    match h.get? a with
    | some (.tuple _) | some (.shape ..) => true
    | _ => false

/-- Whether the type of the second object refines that of the first. A shape is a tuple. -/
def isRefined (h : Heap) (a b : Address) : Bool :=
  match h.get? a, h.get? b with
  | some (.tuple _), some (.shape ..) => true
  | _, _ => false

def anyAnswer (call : Caller) (ask : Asker) (r : Relation) (a b : Address) :
    Work (Option Address) := do
  if ← asking fun h => isRefined h a b then
    match ← answer call ask r.swapped b a with
    | some x => return some x
    | none => answer call ask r a b
  else
    match ← answer call ask r a b with
    | some x => return some x
    | none => answer call ask r.swapped b a

/-- How two objects relate, going at most `depth` objects deep. -/
def relateWithin (call : Caller) : Nat → Asker
  | 0, _, _, _ => throw .comparedTooDeep
  | depth + 1, r, a, b => do
    match ← anyAnswer call (relateWithin call depth) r a b, r with
    | some x, _ => return x
    | none, .equal => do newTruth (← asking fun h => h.isSame a b)
    | none, .unequal => do newTruth (!(← asking fun h => h.isSame a b))
    | none, r => do
      let (left, right) ← asking fun h => (h.typeName a, h.typeName b)
      throw (.refused (.notComparable r.symbol left right))

/-- How two objects relate. Objects on the way down are other ones, unless one holds itself. -/
def relate (call : Caller) : Asker := fun r a b w => relateWithin call (2 * w.heap.size + 2) r a b w

def equals (call : Caller) (a b : Address) : Work Bool := agree call (relate call) a b

def isBelow (call : Caller) (a b : Address) : Work Bool := do isTrue call (← relate call .less a b)

/-- Where an object belongs in a row of sorted ones, of which those that do not exceed it come
first: the row is halved until there is one place. -/
def placeOf (call : Caller) (x : Address) (row : Array Address) : Nat → Nat → Nat → Work Nat
  | 0, low, _ => return low
  | bound + 1, low, high => do
    if low < high then
      let middle := (low + high) / 2
      if ← isBelow call x (row.getD middle x) then placeOf call x row bound low middle
      else placeOf call x row bound (middle + 1) high
    else return low

/-- The run at the start of a row that ascends, or descends strictly if the first two do, and what
follows it. -/
def run (call : Caller) (descends : Bool) (last : Address) :
    List Address → Work (List Address × List Address)
  | [] => return ([], [])
  | x :: xs => do
    if (← isBelow call x last) == descends then
      let (more, rest) ← run call descends x xs
      return (x :: more, rest)
    else return ([], x :: xs)

/-- Objects in ascending order. What is in order at the start is kept, and all else is put into it
one after the other. -/
def sort (call : Caller) : List Address → Work (List Address)
  | [] => return []
  | [x] => return [x]
  | x :: y :: rest => do
    let descends ← isBelow call y x
    let (more, rest) ← run call descends y rest
    let start := x :: y :: more
    let row ← rest.foldlM
      (fun row x => do
        let place ← placeOf call x row row.size 0 row.size
        return (row.toList.insertIdx place x).toArray)
      (if descends then start.reverse else start).toArray
    return row.toList

end TensorGraph.Workspace
