import TensorGraph.Graph.Arena

/-!
# Expressions as trees

What a node stands for, written out without sharing. Leaves are told apart by their index, and two
nodes with one tree compute the same. In a well-formed arena a depth one above the index is enough
to reach every leaf, and the tree of a node is built from the trees of its operands.
-/

namespace TensorGraph

inductive Tree where
  | leaf (i : Nat)
  | unary (k : Unary) (x : Tree)
  | binary (k : Binary) (l r : Tree)
deriving DecidableEq, Repr, Inhabited

namespace Arena

/-- The tree of a node, at most `depth` levels deep. -/
def treeWithin (a : Arena) : Nat → Nat → Tree
  | 0, i => .leaf i
  | depth + 1, i =>
    match (a.node? i).map Node.form with
    | some (.unary k x) => .unary k (a.treeWithin depth x)
    | some (.binary k l r) => .binary k (a.treeWithin depth l) (a.treeWithin depth r)
    | _ => .leaf i

def tree (a : Arena) (i : Nat) : Tree := a.treeWithin (i + 1) i

theorem treeWithin_eq {a : Arena} (h : a.WellFormed) (m n i : Nat) (hm : i < m) (hn : i < n) :
    a.treeWithin m i = a.treeWithin n i := by
  induction m generalizing n i with
  | zero => omega
  | succ m ih =>
    obtain ⟨n, rfl⟩ : ∃ k, n = k + 1 := ⟨n - 1, by omega⟩
    unfold treeWithin
    cases hi : a.node? i with
    | none => rfl
    | some node =>
      have lower := h i node hi
      obtain ⟨form, shape, name⟩ := node
      cases form with
      | leaf k => rfl
      | unary k x =>
        have hx := lower x (by simp [Node.operands, Form.operands])
        exact congrArg (Tree.unary k) (ih n x (by omega) (by omega))
      | binary k l r =>
        have hl := lower l (by simp [Node.operands, Form.operands])
        have hr := lower r (by simp [Node.operands, Form.operands])
        change Tree.binary k _ _ = Tree.binary k _ _
        rw [ih n l (by omega) (by omega), ih n r (by omega) (by omega)]

theorem tree_leaf {a : Arena} {i : Nat} {n : Node} {k : Leaf} (hi : a.node? i = some n)
    (hk : n.form = .leaf k) : a.tree i = .leaf i := by
  simp [tree, treeWithin, hi, hk]

theorem tree_unary {a : Arena} (h : a.WellFormed) {i x : Nat} {n : Node} {k : Unary}
    (hi : a.node? i = some n) (hk : n.form = .unary k x) :
    a.tree i = .unary k (a.tree x) := by
  have hx : x < i := h i n hi x (by simp [Node.operands, hk, Form.operands])
  simp only [tree, treeWithin, hi, Option.map_some, hk]
  rw [treeWithin_eq h i (x + 1) x hx (Nat.lt_succ_self x)]
  rfl

theorem tree_binary {a : Arena} (h : a.WellFormed) {i l r : Nat} {n : Node} {k : Binary}
    (hi : a.node? i = some n) (hk : n.form = .binary k l r) :
    a.tree i = .binary k (a.tree l) (a.tree r) := by
  have hl : l < i := h i n hi l (by simp [Node.operands, hk, Form.operands])
  have hr : r < i := h i n hi r (by simp [Node.operands, hk, Form.operands])
  simp only [tree, treeWithin, hi, Option.map_some, hk]
  rw [treeWithin_eq h i (l + 1) l hl (Nat.lt_succ_self l),
    treeWithin_eq h i (r + 1) r hr (Nat.lt_succ_self r)]
  rfl

end Arena

/-- The functions that node kinds stand for on some carrier. -/
structure Interpretation (α : Type) where
  unary : Unary → α → α
  binary : Binary → α → α → α

/-- The value of a tree, its leaves being given. -/
def Tree.value {α : Type} (I : Interpretation α) (leaf : Nat → α) : Tree → α
  | .leaf i => leaf i
  | .unary k x => I.unary k (x.value I leaf)
  | .binary k l r => I.binary k (l.value I leaf) (r.value I leaf)

end TensorGraph
