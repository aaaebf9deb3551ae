import TensorGraph.Error

/-!
# Nested items

Items that are nested in sequences have dimensions when sequences of one depth have one length and
items of one depth are all sequences or none. Otherwise they have dimensions in common down to the
depth at which they differ.
-/

namespace TensorGraph

inductive Nested (α : Type) where
  | leaf (x : α)
  | branch (items : List (Nested α))
deriving Repr

/-- The dimensions that nested items have in common, and whether these are all. -/
structure Outline where
  dims : List Nat
  regular : Bool
deriving DecidableEq, Repr, Inhabited

namespace Outline

/-- The beginning in which two lists agree. -/
def agreement : List Nat → List Nat → List Nat
  | m :: ms, n :: ns => if m = n then m :: agreement ms ns else []
  | _, _ => []

/-- The outline of two items side by side. -/
def meet (a b : Outline) : Outline :=
  ⟨agreement a.dims b.dims, a.regular && b.regular && a.dims == b.dims⟩

theorem agreement_self (ms : List Nat) : agreement ms ms = ms := by
  induction ms with
  | nil => rfl
  | cons m ms ih => simp [agreement, ih]

end Outline

namespace Nested

variable {α : Type}

instance : Inhabited (Nested α) := ⟨.branch []⟩

mutual

/-- The items that are no sequences, from left to right. -/
def leaves : Nested α → List α
  | .leaf x => [x]
  | .branch items => leavesOf items

def leavesOf : List (Nested α) → List α
  | [] => []
  | item :: items => leaves item ++ leavesOf items

end

mutual

def outline : Nested α → Outline
  | .leaf _ => ⟨[], true⟩
  | .branch items =>
    let o := outlineOf items
    ⟨items.length :: o.dims, o.regular⟩

/-- The outline of items side by side. -/
def outlineOf : List (Nested α) → Outline
  | [] => ⟨[], true⟩
  | [item] => outline item
  | item :: items => (outline item).meet (outlineOf items)

end

/-- The dimensions of nested items, of which there is a limited number. -/
def dims (n : Nested α) : Except Error (List Nat) :=
  let o := n.outline
  let ds := o.dims.take Shape.rankLimit
  if o.regular && o.dims.length ≤ Shape.rankLimit then .ok ds
  else if ds.length = Shape.rankLimit then .error .nestedTooDeep
  else .error (.inhomogeneous ds)

/-- Items side by side are regular when all are, with the same dimensions. -/
theorem outlineOf_eq (item : Nested α) (items : List (Nested α)) {ds : List Nat}
    (h : outlineOf (item :: items) = ⟨ds, true⟩) :
    ∀ i ∈ item :: items, outline i = ⟨ds, true⟩ := by
  induction items generalizing item with
  | nil => simpa [outlineOf] using h
  | cons next items ih =>
    simp only [outlineOf, Outline.meet, Outline.mk.injEq, Bool.and_eq_true, beq_iff_eq] at h
    obtain ⟨hd, ⟨hl, hr⟩, heq⟩ := h
    have hfirst : (outline item).dims = ds := by rw [← hd, ← heq, Outline.agreement_self]
    have hrest : outlineOf (next :: items) = ⟨ds, true⟩ := by
      rw [← hfirst, heq, ← hr]
    intro i hi
    rcases List.mem_cons.mp hi with rfl | hi
    · rw [← hfirst, ← hl]
    · exact ih next hrest i hi

mutual

/-- Regular items fill their dimensions. -/
theorem length_leaves (n : Nested α) {ds : List Nat} (h : n.outline = ⟨ds, true⟩) :
    n.leaves.length = (Shape.mk ds).size := by
  match n with
  | .leaf x =>
    cases h
    rfl
  | .branch items =>
    simp only [outline, Outline.mk.injEq] at h
    obtain ⟨rfl, hr⟩ := h
    rw [leaves, Shape.size_cons]
    exact length_leavesOf items (by rw [← hr])

theorem length_leavesOf (items : List (Nested α)) {ds : List Nat}
    (h : outlineOf items = ⟨ds, true⟩) :
    (leavesOf items).length = items.length * (Shape.mk ds).size := by
  match items with
  | [] => simp [leavesOf]
  | [item] =>
    rw [outlineOf] at h
    simpa [leavesOf] using length_leaves item h
  | item :: next :: items =>
    have hall := outlineOf_eq item (next :: items) h
    have hrest : outlineOf (next :: items) = ⟨ds, true⟩ := by
      simp only [outlineOf, Outline.meet, Outline.mk.injEq, Bool.and_eq_true, beq_iff_eq] at h
      have hfirst := hall item (List.mem_cons_self ..)
      rw [show (outlineOf (next :: items)) = ⟨(outlineOf (next :: items)).dims,
        (outlineOf (next :: items)).regular⟩ from rfl, h.2.1.2, ← h.2.2, hfirst]
    rw [leavesOf, List.length_append, length_leaves item (hall item (List.mem_cons_self ..)),
      length_leavesOf (next :: items) hrest, List.length_cons (a := item), Nat.succ_mul,
      Nat.add_comm]

end

example : outline (.branch [.leaf 1, .branch [.leaf 2]]) = ⟨[2], false⟩ := by decide
example : outline (.branch [.branch [.leaf 1], .branch [.leaf 2]]) = ⟨[2, 1], true⟩ := by decide

end Nested

end TensorGraph
