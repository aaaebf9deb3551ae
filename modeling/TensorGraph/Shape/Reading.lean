import TensorGraph.Error

/-!
# Reading shapes

A shape argument is a shape, a single dimension, or a sequence of dimensions. Each dimension is a
nonnegative integer of any width; the first one that is not is reported with all of them.
-/

namespace TensorGraph.Shape

def dim? : Value → Option Nat
  | .int n | .sized _ n => if 0 ≤ n then some n.toNat else none
  | _ => none

/-- The shape with the given dimensions. -/
def ofDims (dims : List Value) : Except Error Shape :=
  match dims.find? fun d => (dim? d).isNone with
  | some d => .error (.invalidDimension d dims)
  | none => .ok ⟨dims.filterMap dim?⟩

/-- The shape whose dimensions are the items of a sequence. -/
def ofItems (v : Value) : Except Error Shape :=
  match v.items? with
  | some dims => ofDims dims
  | none => .error (.shapeNotIterable v.typeName)

def ofValue : Value → Except Error Shape
  | .shape s => .ok s
  | v => if v.index?.isSome then ofDims [v] else ofItems v

@[simp] theorem ofValue_shape (s : Shape) : ofValue (.shape s) = .ok s := rfl

theorem ofDims_eq_ok_iff {dims : List Value} {s : Shape} :
    ofDims dims = .ok s ↔ dims.map dim? = s.dims.map some := by
  obtain ⟨ds⟩ := s
  unfold ofDims
  constructor
  · intro h
    split at h
    · cases h
    · rename_i hall
      cases h
      rw [List.find?_eq_none] at hall
      induction dims with
      | nil => rfl
      | cons d dims ih =>
        obtain ⟨n, hn⟩ := Option.ne_none_iff_exists'.mp
          (by simpa using hall d (List.mem_cons_self ..) : dim? d ≠ none)
        simp [hn, ih fun x hx => hall x (List.mem_cons_of_mem _ hx)]
  · intro h
    have hnone : dims.find? (fun d => (dim? d).isNone) = none := by
      rw [List.find?_eq_none]
      intro d hd
      have : dim? d ∈ ds.map some := h ▸ List.mem_map_of_mem hd
      obtain ⟨n, _, hn⟩ := List.mem_map.mp this
      simp [← hn]
    have hds : dims.filterMap dim? = ds := by
      have := congrArg (List.filterMap id) h
      simpa [List.filterMap_map] using this
    rw [hnone, hds]

end TensorGraph.Shape
