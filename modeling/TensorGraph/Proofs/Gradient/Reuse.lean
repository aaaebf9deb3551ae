import TensorGraph.Proofs.Gradient.Ledger
import TensorGraph.Proofs.Gradient.Vanishing

/-!
# Reuse of the graph

Gradients are built from what was there: the nodes below the output, the seed and earlier gradients.
So below a gradient, however many passes it comes from, there are only nodes that the outputs and
the seeds of these passes reach, and sums, products, negations, reciprocals and zero leaves.
-/

namespace TensorGraph

theorem Reaches.of_extends {a b : Arena} (hab : a.Extends b) {i j : Nat}
    (h : Reaches a.operands i j) : Reaches b.operands i j := by
  refine h.mono fun i c hc => ?_
  cases hi : a.node? i with
  | none =>
    rw [Arena.operands, hi] at hc
    cases hc
  | some n =>
    rw [Arena.operands_of_node? hi] at hc
    rw [Arena.operands_of_node? (hab i n hi)]
    exact hc

/-- A node that a pass started from: its output or its seed. -/
def Origin (passes : List PassRecord) (x : Nat) : Prop :=
  ∃ r ∈ passes, x = r.output ∨ x = r.seed

namespace Arena

/-- Below a node there is only what passes started over and what gradients are made of. -/
def Founded (a : Arena) (passes : List PassRecord) (j : Nat) : Prop :=
  ∀ m n, Reaches a.operands j m → a.node? m = some n →
    (∃ x, Origin passes x ∧ Reaches a.operands x m) ∨ n.kind ∈ Kind.gradients

/-- The entries of a table are founded. -/
def Reuses (a : Arena) (grads : Table Int Int) (passes : List PassRecord) : Prop :=
  ∀ i g : Int, grads.get? i = some g → ∃ j : Nat, g = j ∧ j < a.size ∧ a.Founded passes j

variable {a b : Arena} {passes : List PassRecord} {grads : Table Int Int} {j x : Nat} {n : Node}

theorem founded_of_reaches (hx : Origin passes x) (hj : Reaches a.operands x j) :
    a.Founded passes j := fun _ _ hm _ => Or.inl ⟨x, hx, hj.trans hm⟩

theorem founded_of_operands (hn : a.node? j = some n) (hkind : n.kind ∈ Kind.gradients)
    (h : ∀ c ∈ n.operands, a.Founded passes c) : a.Founded passes j := by
  intro m o hm ho
  rcases reaches_iff.mp hm with rfl | ⟨c, hc, hm⟩
  · cases hn.symm.trans ho
    exact Or.inr hkind
  · rw [operands_of_node? hn] at hc
    exact h c hc m o hm ho

theorem Founded.of_cons (h : a.Founded passes j) (r : PassRecord) : a.Founded (r :: passes) j := by
  intro m n hm hn
  refine (h m n hm hn).imp_left fun ⟨x, horigin, hx⟩ => ⟨x, ?_, hx⟩
  obtain ⟨s, hs, hcase⟩ := horigin
  exact ⟨s, List.mem_cons_of_mem r hs, hcase⟩

theorem Founded.of_extends (h : a.Founded passes j) (ha : a.WellFormed) (hab : a.Extends b)
    (hj : j < a.size) : b.Founded passes j := by
  intro m n hm hn
  rw [reaches_of_extends ha hab hj] at hm
  obtain ⟨o, ho⟩ :=
    exists_node? (Nat.lt_of_le_of_lt (hm.le fun _ _ hc => ha.operand_lt hc) hj)
  cases (hab m o ho).symm.trans hn
  refine (h m n hm ho).imp_left fun ⟨x, horigin, hx⟩ => ⟨x, horigin, hx.of_extends hab⟩

theorem reuses_of_empty (h : ∀ i, grads.get? i = none) : a.Reuses grads passes := fun i g hg => by
  rw [h i] at hg
  cases hg

theorem Reuses.of_extends (h : a.Reuses grads passes) (ha : a.WellFormed) (hab : a.Extends b) :
    b.Reuses grads passes := by
  intro i g hg
  obtain ⟨j, rfl, hj, hfounded⟩ := h i g hg
  exact ⟨j, rfl, Nat.lt_of_lt_of_le hj (Embedding.size_le_of_extends hab),
    hfounded.of_extends ha hab hj⟩

end Arena

namespace Tracing

variable {π : Plan} {sh : Shape} {passes : List PassRecord} {todo : List Nat} {p : Pass}

/-- What a pass may use is founded once the pass counts. -/
theorem founded_of_given (h : Tracing π todo p) (hready : π.Ready sh)
    (hearlier : π.arena.Reuses π.grads passes) {x : Nat} (hx : π.Given x) :
    p.arena.Founded (π.record :: passes) x := by
  have hmem : π.record ∈ π.record :: passes := List.mem_cons_self ..
  rcases hx with hreached | hseed | ⟨i, hi⟩
  · exact Arena.founded_of_reaches ⟨π.record, hmem, Or.inl rfl⟩ (hreached.of_extends h.made.kept)
  · refine Arena.founded_of_reaches ⟨π.record, hmem, Or.inr ?_⟩ (.refl x)
    change x = π.seed.toNat
    omega
  · obtain ⟨j, hj, hlt, hfounded⟩ := hearlier i x hi
    rw [Int.natCast_inj.mp hj]
    exact (hfounded.of_cons π.record).of_extends hready.regular.wellFormed h.made.kept hlt

/-- So is what it builds. -/
theorem founded (h : Tracing π todo p) (hready : π.Ready sh) (hwell : p.arena.WellFormed)
    (hearlier : π.arena.Reuses π.grads passes) {j : Nat} (hj : π.arena.size ≤ j)
    (hlt : j < p.arena.size) : p.arena.Founded (π.record :: passes) j := by
  induction j using Nat.strongRecOn with
  | ind j ih =>
    obtain ⟨n, hn⟩ := Arena.exists_node? hlt
    refine Arena.founded_of_operands hn (h.made.kind j n hj hn) fun c hc => ?_
    have husable := h.made.operands j n hj hn c hc
    by_cases hold : c < π.arena.size
    · exact h.founded_of_given hready hearlier (husable.old hold)
    · exact ih c (hwell j n hn c hc) (Nat.le_of_not_lt hold) husable.lt

/-- The entries that a pass leaves are founded. -/
theorem reuses (h : Tracing π todo p) (hready : π.Ready sh) (hwell : p.arena.WellFormed)
    (hearlier : π.arena.Reuses π.grads passes) : p.arena.Reuses p.grads (π.record :: passes) := by
  intro i g hg
  rcases h.table i g hg with hold | ⟨zero, j, rfl, hlt, hcase, -⟩
  · obtain ⟨j, rfl, hj, -⟩ := hearlier i g hold
    exact ⟨j, rfl, Nat.lt_of_lt_of_le hj (Embedding.size_le_of_extends h.made.kept),
      h.founded_of_given hready hearlier (Or.inr (Or.inr ⟨i, hold⟩))⟩
  · refine ⟨j, rfl, hlt, ?_⟩
    rcases hcase with hseed | hnew
    · exact h.founded_of_given hready hearlier (Or.inr (Or.inl hseed))
    · exact h.founded hready hwell hearlier hnew hlt

end Tracing

end TensorGraph
