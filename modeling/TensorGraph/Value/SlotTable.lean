/-!
# Tables of slots

Things with codes, each in a slot of its own. A code leads to a slot and, where that is taken, on to
others until one is free; a table that fills up moves to more slots. What is in a table is gone
through from slot to slot, so its order depends on the codes first and then on the order in which
things came.
-/

namespace TensorGraph

structure SlotTable (α : Type) where
  slots : Array (Option (Nat × α)) := Array.replicate 8 none
  size : Nat := 0

namespace SlotTable

variable {α : Type}

instance : Inhabited (SlotTable α) := ⟨{}⟩

def isFree (slots : Array (Option (Nat × α))) (i : Nat) : Bool :=
  match slots[i]? with
  | some none => true
  | _ => false

/-- The slots that are tried at a place: ten of them in a row if there are as many, else one. -/
def triedAt (width i : Nat) : List Nat :=
  if i + 10 ≤ width then (List.range 10).map (i + ·) else [i]

/-- The first free slot on the way from a place on. What is left of the code leads on; after it has
come to nothing the way goes through all places. -/
def freeSlot (slots : Array (Option (Nat × α))) : Nat → Nat → Nat → Nat
  | 0, i, _ => i
  | bound + 1, i, code =>
    match (triedAt slots.size i).find? (isFree slots) with
    | some slot => slot
    | none => freeSlot slots bound ((5 * i + 1 + code / 32) % slots.size) (code / 32)

def place (slots : Array (Option (Nat × α))) (code : Nat) (x : α) : Array (Option (Nat × α)) :=
  slots.setIfInBounds (freeSlot slots (slots.size + 16) (code % slots.size) code) (some (code, x))

/-- The number of slots of a table that has grown to a size: more than four for each thing. -/
def widthFor (size : Nat) : Nat := max 8 (Nat.pow 2 ((4 * size).log2 + 1))

/-- Puts a thing in. A table that is filled to three fifths gets more slots. -/
def insert (t : SlotTable α) (code : Nat) (x : α) : SlotTable α :=
  let slots := place t.slots code x
  let size := t.size + 1
  if size * 5 < (slots.size - 1) * 3 then ⟨slots, size⟩
  else
    let entries := slots.toList.filterMap id
    ⟨entries.foldl (fun slots e => place slots e.1 e.2) (Array.replicate (widthFor size) none),
      size⟩

/-- What is in a table, from slot to slot. -/
def toList (t : SlotTable α) : List α := t.slots.toList.filterMap fun e => e.map Prod.snd

def ofList (entries : List (Nat × α)) : SlotTable α :=
  entries.foldl (fun t e => t.insert e.1 e.2) {}

example : (ofList [(9, 'a'), (0, 'b'), (1, 'c')]).toList = ['b', 'a', 'c'] := by decide +kernel

end SlotTable

end TensorGraph
