import Std.Data.HashMap

/-!
# Tables in order of insertion

A finite map that remembers the order in which its keys came. Giving a key a new value keeps its
place.
-/

namespace TensorGraph

structure Table (κ β : Type) [BEq κ] [Hashable κ] where
  keys : Array κ := #[]
  values : Std.HashMap κ β := ∅

namespace Table

variable {κ β : Type} [BEq κ] [Hashable κ]

instance : Inhabited (Table κ β) := ⟨{}⟩

def empty : Table κ β := {}

def get? (t : Table κ β) (k : κ) : Option β := t.values[k]?

def contains (t : Table κ β) (k : κ) : Bool := t.values.contains k

def insert (t : Table κ β) (k : κ) (v : β) : Table κ β :=
  if t.contains k then { t with values := t.values.insert k v }
  else ⟨t.keys.push k, t.values.insert k v⟩

/-- The entries in order. -/
def toList (t : Table κ β) : List (κ × β) :=
  t.keys.toList.filterMap fun k => (t.get? k).map fun v => (k, v)

def size (t : Table κ β) : Nat := t.keys.size

@[simp] theorem get?_empty (k : κ) : (empty : Table κ β).get? k = none := by
  simp [empty, get?]

theorem get?_insert [EquivBEq κ] [LawfulHashable κ] (t : Table κ β) (k l : κ) (v : β) :
    (t.insert k v).get? l = if k == l then some v else t.get? l := by
  unfold insert get?
  split <;> simp [Std.HashMap.getElem?_insert]

theorem keys_insert (t : Table κ β) (k : κ) (v : β) :
    (t.insert k v).keys.toList = if t.contains k then t.keys.toList else t.keys.toList ++ [k] := by
  unfold insert
  split <;> simp

end Table

end TensorGraph
