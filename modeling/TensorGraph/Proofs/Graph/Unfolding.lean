import TensorGraph.Proofs.Graph.Embedding

/-!
# Unfolding what was built

A node that was built after some point is written out by kind, shape and operands, down to the nodes
that were there before, which stand for themselves. What two runs build from the same nodes can so
be compared although its indices differ.
-/

namespace TensorGraph

inductive Unfolding where
  /-- A node that was there before. -/
  | old (i : Nat)
  | leaf (k : Leaf) (shape : Shape)
  | unary (k : Unary) (shape : Shape) (x : Unfolding)
  | binary (k : Binary) (shape : Shape) (l r : Unfolding)
deriving DecidableEq, Repr, Inhabited

namespace Arena

/-- The unfolding of a node, at most `depth` levels deep. Nodes below `base` were there before. -/
def unfoldWithin (a : Arena) (base : Nat) : Nat → Nat → Unfolding
  | 0, i => .old i
  | depth + 1, i =>
    if i < base then .old i
    else
      match a.node? i with
      | none => .old i
      | some n =>
        match n.form with
        | .leaf k => .leaf k n.shape
        | .unary k x => .unary k n.shape (a.unfoldWithin base depth x)
        | .binary k l r =>
          .binary k n.shape (a.unfoldWithin base depth l) (a.unfoldWithin base depth r)

/-- Operands are below their users, so a depth one above the index is enough. -/
def unfold (a : Arena) (base i : Nat) : Unfolding := a.unfoldWithin base (i + 1) i

end Arena

namespace Embedding

variable {E : Embedding} {base : Nat}

/-- Nodes unfold to the same where they have their places, whatever depth is allowed. -/
theorem unfoldWithin_place (hbase : ∀ i < base, E.place i = i) {i : Nat} (hi : i < E.inner.size)
    {m n : Nat} (hm : i < m) (hn : E.place i < n) :
    E.outer.unfoldWithin base n (E.place i) = E.inner.unfoldWithin base m i := by
  induction m generalizing n i with
  | zero => omega
  | succ m ih =>
    obtain ⟨n, rfl⟩ : ∃ k, n = k + 1 := ⟨n - 1, by omega⟩
    obtain ⟨node, hnode⟩ := Arena.exists_node? hi
    have hplace := E.node hnode
    simp only [Arena.unfoldWithin, hnode, hplace]
    by_cases hold : i < base
    · rw [hbase i hold, if_pos hold, if_pos hold]
    · have hle := le_place hi
      rw [if_neg hold, if_neg (by omega)]
      -- operands are below, on both sides
      have hoperand : ∀ x ∈ node.operands,
          E.outer.unfoldWithin base n (E.place x) = E.inner.unfoldWithin base m x := by
        intro x hx
        have hlt := E.wellFormed i node hnode x hx
        have hplaces := E.ascending hlt hi
        exact ih (by omega) (by omega) (by omega)
      obtain ⟨form, shape, name⟩ := node
      cases form with
      | leaf k => rfl
      | unary k x =>
        have hx := hoperand x (by simp [Node.operands, Form.operands])
        exact congrArg (Unfolding.unary k shape) hx
      | binary k l r =>
        exact congrArg₂ (Unfolding.binary k shape)
          (hoperand l (by simp [Node.operands, Form.operands]))
          (hoperand r (by simp [Node.operands, Form.operands]))

theorem unfold_place (hbase : ∀ i < base, E.place i = i) {i : Nat} (hi : i < E.inner.size) :
    E.outer.unfold base (E.place i) = E.inner.unfold base i :=
  unfoldWithin_place hbase hi (Nat.lt_succ_self _) (Nat.lt_succ_self _)

/-- Matching handles unfold to the same. -/
theorem Matches.unfold_eq {g h : Int} (hgh : E.Matches g h) (hbase : ∀ i < base, E.place i = i) :
    E.outer.unfold base h.toNat = E.inner.unfold base g.toNat := by
  obtain ⟨i, hi, rfl, rfl⟩ := hgh
  exact unfold_place hbase hi

end Embedding

namespace Arena

variable {a b : Arena} {base i : Nat}

/-- Growing an arena does not change what its nodes unfold to. -/
theorem unfold_of_extends (ha : a.WellFormed) (hab : a.Extends b) (hi : i < a.size) :
    b.unfold base i = a.unfold base i :=
  Embedding.unfold_place (E := .ofExtends ha hab) (fun _ _ => rfl) hi

theorem unfold_old (hi : i < base) : a.unfold base i = .old i := by
  rw [unfold, unfoldWithin, if_pos hi]

theorem unfold_binary (ha : a.WellFormed) (hi : base ≤ i) {n : Node} (hn : a.node? i = some n)
    {k : Binary} {l r : Nat} (hform : n.form = .binary k l r) :
    a.unfold base i = .binary k n.shape (a.unfold base l) (a.unfold base r) := by
  obtain ⟨hl, hr⟩ := ha.binary_lt hn hform
  have hlt := lt_size_of_node? hn
  have hdepth : ∀ x < i, a.unfoldWithin base i x = a.unfold base x := fun x hx =>
    Embedding.unfoldWithin_place (E := .ofExtends ha (Extends.refl a)) (fun _ _ => rfl)
      (Nat.lt_trans hx hlt) (Nat.lt_succ_self x) hx
  rw [unfold, unfoldWithin, if_neg (by omega)]
  simp only [hn, hform]
  rw [hdepth l hl, hdepth r hr]

end Arena

end TensorGraph
