import TensorGraph.Workspace.Attributes

/-!
# Inquiries

What an object is taken for: a truth value, an integer, a row of items. Values and containers answer
by what they hold; members of a made class answer as the class says. Items are taken one after the
other, since whoever takes them may act in between.
-/

namespace TensorGraph.Workspace

/-- What a value says to stand for has to be an integer. -/
def statedInteger (outcome : Address) : Work Int := do
  match ← object outcome with
  | some (.value (.int n)) => return n
  | some (.value (.bool b)) => return if b then 1 else 0
  | _ => decline .standsForNoInteger outcome

def integer? (call : Caller) (a : Address) : Work (Option Int) := do
  match ← object a with
  | some (.value v) => return v.index?
  | _ =>
    match ← special? call a "__index__" with
    | none => return none
    | some f => some <$> (do statedInteger (← call f []))

/-- The number of items that a member of a class says to have. -/
def statedLength (call : Caller) (outcome : Address) : Work Int := do
  match ← integer? call outcome with
  | none => decline .notAnInteger outcome
  | some n =>
    if n < 0 then throw (.refused .negativeLength)
    else if Width.word.holds n then return n
    else throw .tooManyTimes

/-- The number of items that an object says to have, if its class says so. -/
def lengthOf? (call : Caller) (a : Address) : Work (Option Int) := do
  match ← special? call a "__len__" with
  | some f => some <$> (do statedLength call (← call f []))
  | none => return none

def isTrueSingle (call : Caller) (a : Address) : Work Bool := do
  match ← special? call a "__bool__" with
  | some f =>
    let outcome ← call f []
    match ← object outcome with
    | some (.value (.bool b)) => return b
    | _ => decline .notATruth outcome
  | none =>
    match ← lengthOf? call a with
    | some n => return n ≠ 0
    | none =>
      match ← object a with
      | some (.arena id) => fun w => .ok ((w.arenas.getD id .empty).size != 0) w
      | _ => asking fun h => h.isTrue a

/-- Whether an object counts as true. Of a grid only a single atom does. -/
def isTrue (call : Caller) (a : Address) : Work Bool := do
  match ← object a with
  | some (.grid g) =>
    match g.atoms with
    | [] => throw .emptyTruth
    | [.value v] => return v.isTrue
    | [.object b _] => isTrueSingle call b
    | _ => throw .ambiguousTruth
  | _ => isTrueSingle call a

inductive Source where
  | items (rest : List Address)
  /-- An object that is asked for the next item. -/
  | next (a : Address)
  /-- An object that is asked for the item at each position, from one on. -/
  | positions (a : Address) (n : Nat)
deriving Repr, Inhabited

namespace Source

/-- What an object gives for its items has to have a next one. -/
def ofRow (call : Caller) (f : Address) : Work Source := do
  let row ← call f []
  if ← asking fun h => (h.inClass? row "__next__").isSome then return .next row
  else decline .notAnIterator row

/-- The source of an object's items. What cannot be found out about a row leaves the positions. -/
def of (call : Caller) (a : Address) : Work Source := do
  match ← asking fun h => (h.inClass? a "__iter__", h.inClass? a "__getitem__") with
  | (some entry, _) =>
    match ← asking fun h => h.isNone entry, ← specialOrNone call a "__iter__" with
    | true, _ => reject .notIterable a
    | false, some f => ofRow call f
    | false, none =>
      if (← specialOrNone call a "__getitem__").isSome then return .positions a 0
      else reject .notIterable a
  | (none, some _) => return .positions a 0
  | (none, none) => .items <$> onHeap fun h => h.iterate a

/-- Asks the class of an object for something by a special name, if it has it. -/
def ask? (call : Caller) (a : Address) (name : String) (xs : List Address) :
    Work (Option Address) := do
  match ← special? call a name with
  | some f => some <$> call f xs
  | none => return none

/-- The next item, and where the others come from. Positions end where there is nothing. -/
def step (call : Caller) : Source → Work (Option (Address × Source))
  | .items [] => return none
  | .items (item :: rest) => return some (item, .items rest)
  | .next a => do
    let item ← ask? call a "__next__" []
    return item.map fun item => (item, .next a)
  | .positions a n => do
    let position ← newValue (.int n)
    let item ← orElse (ask? call a "__getitem__" [position]) Error.isOfPosition (pure none)
    return item.map fun item => (item, .positions a (n + 1))

/-- Goes through the items, at most `bound` of those that are asked for. -/
def foldWithin {α : Type} (call : Caller) (f : α → Address → Work α) : Nat → α → Source → Work α
  | 0, _, _ => throw .outOfMemory
  | bound + 1, x, source => do
    match ← source.step call with
    | none => return x
    | some (item, rest) => foldWithin call f bound (← f x item) rest

/-- Memory is short long before this many items were asked for. -/
def bound : Nat := Nat.pow 2 16

def foldM {α : Type} (call : Caller) (f : α → Address → Work α) (x : α) : Source → Work α
  | .items rest => rest.foldlM f x
  | source => foldWithin call f bound x source

end Source

def itemsOf (call : Caller) (a : Address) : Work (List Address) := do
  let items ← (← Source.of call a).foldM call (fun items item => return item :: items) []
  return items.reverse

/-- The first items of a source, which has to have that many and no more. -/
def take (call : Caller) (wanted : Nat) : Nat → List Address → Source → Work (List Address)
  | 0, items, source => do
    match ← source.step call with
    | none => return items.reverse
    | some _ => throw (.refused (.tooManyParts wanted))
  | missing + 1, items, source => do
    match ← source.step call with
    | none => throw (.refused (.tooFewParts wanted items.length))
    | some (item, rest) => take call wanted missing (item :: items) rest

/-- An object taken apart into as many items as wanted. -/
def unpack (call : Caller) (wanted : Nat) (a : Address) : Work (List Address) := do
  let source ←
    if ← asking fun h => (h.inClass? a "__iter__").isSome then Source.of call a
    else orElse (Source.of call a) Error.isNotIterable (decline .notUnpackable a)
  take call wanted wanted [] source

def unpackPair (call : Caller) (a : Address) : Work (Address × Address) := do
  match ← unpack call 2 a with
  | [x, y] => return (x, y)
  | items => throw (.refused (.tooFewParts 2 items.length))

end TensorGraph.Workspace
