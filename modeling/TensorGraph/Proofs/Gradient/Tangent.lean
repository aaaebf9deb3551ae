import Mathlib.Tactic.Ring
import TensorGraph.Gradient.Rule
import TensorGraph.Graph.Tree
import TensorGraph.Proofs.Graph.Growth
import TensorGraph.Proofs.Graph.Reach

/-!
# Tangents

Expressions are read in a commutative ring with any functions for the kinds that are no ring
operations; zero leaves are 0. The tangent of a node along another one is computed forward, from the
operands. The rules by which gradients are sent to operands are the transpose of this computation.
-/

namespace TensorGraph

/-- What the kinds that are no ring operations stand for. -/
structure Functions (R : Type) where
  reciprocal : R → R
  exp : R → R
  log : R → R
  gtz : R → R

variable {R : Type} [CommRing R]

def Functions.interpretation (F : Functions R) : Interpretation R where
  unary
    | .neg, x => -x
    | .reciprocal, x => F.reciprocal x
    | .exp, x => F.exp x
    | .log, x => F.log x
    | .gtz, x => F.gtz x
  binary
    | .add, x, y => x + y
    | .mul, x, y => x * y

/-- The tangent of a form, from the values and tangents of its operands. -/
def Form.tangent (F : Functions R) (value tangent : Nat → R) : Form → R
  | .leaf _ => 0
  | .unary .neg x => -tangent x
  | .unary .reciprocal x => -F.reciprocal (value x) ^ 2 * tangent x
  | .unary .exp x => F.exp (value x) * tangent x
  | .unary .log x => F.reciprocal (value x) * tangent x
  | .unary .gtz _ => 0
  | .binary .add l r => tangent l + tangent r
  | .binary .mul l r => tangent l * value r + value l * tangent r

namespace Arena

variable (F : Functions R) (ρ : Nat → R)

/-- The value of a node, where parameters have given values and zero leaves are 0. -/
def value (a : Arena) (i : Nat) : R :=
  (a.tree i).value F.interpretation fun j => if a.isZero j then 0 else ρ j

def tangentWithin (a : Arena) (n : Nat) : Nat → Nat → R
  | 0, _ => 0
  | depth + 1, i =>
    if i = n then 1
    else
      match (a.node? i).map Node.form with
      | some form => form.tangent F (a.value F ρ) (a.tangentWithin n depth)
      | none => 0

/-- The tangent of node `i` along node `n`: 1 at `n` itself, 0 at other leaves. -/
def tangent (a : Arena) (n i : Nat) : R := a.tangentWithin F ρ n (i + 1) i

end Arena

/-! ### Values -/

theorem Form.tangent_congr {F : Functions R} {form : Form} {v v' d d' : Nat → R}
    (hv : ∀ c ∈ form.operands, v c = v' c) (hd : ∀ c ∈ form.operands, d c = d' c) :
    form.tangent F v d = form.tangent F v' d' := by
  cases form with
  | leaf k => rfl
  | unary k x =>
    have hvx := hv x (List.mem_singleton_self x)
    have hdx := hd x (List.mem_singleton_self x)
    cases k <;> simp only [tangent, hvx, hdx]
  | binary k l r =>
    have hvl := hv l (by simp [operands])
    have hvr := hv r (by simp [operands])
    have hdl := hd l (by simp [operands])
    have hdr := hd r (by simp [operands])
    cases k <;> simp only [tangent, hvl, hvr, hdl, hdr]

namespace Arena

variable {F : Functions R} {ρ : Nat → R} {a b : Arena} {i n : Nat} {node : Node}

theorem value_param (hn : a.node? i = some node) (hk : node.form = .leaf .param) :
    a.value F ρ i = ρ i := by
  simp [value, tree_leaf hn hk, Tree.value, isZero, hn, Node.kind, hk, Form.kind]

theorem value_zero (hn : a.node? i = some node) (hk : node.form = .leaf .zero) :
    a.value F ρ i = 0 := by
  simp [value, tree_leaf hn hk, Tree.value, isZero, hn, Node.kind, hk, Form.kind]

theorem value_unary (h : a.WellFormed) {k : Unary} {x : Nat} (hn : a.node? i = some node)
    (hk : node.form = .unary k x) :
    a.value F ρ i = F.interpretation.unary k (a.value F ρ x) := by
  rw [value, tree_unary h hn hk]
  rfl

theorem value_binary (h : a.WellFormed) {k : Binary} {l r : Nat} (hn : a.node? i = some node)
    (hk : node.form = .binary k l r) :
    a.value F ρ i = F.interpretation.binary k (a.value F ρ l) (a.value F ρ r) := by
  rw [value, tree_binary h hn hk]
  rfl

/-- Growing an arena does not change the values of its nodes. -/
theorem value_of_extends (ha : a.WellFormed) (hb : b.WellFormed) (hab : a.Extends b)
    (hn : a.node? i = some node) : b.value F ρ i = a.value F ρ i := by
  induction i using Nat.strongRecOn generalizing node with
  | ind i ih =>
    have hbn := hab i node hn
    have hoperand : ∀ c ∈ node.operands, b.value F ρ c = a.value F ρ c := by
      intro c hc
      have hlt := ha i node hn c hc
      obtain ⟨m, hm⟩ := exists_node? (Nat.lt_trans hlt (lt_size_of_node? hn))
      exact ih c hlt hm
    obtain ⟨form, shape, name⟩ := node
    cases form with
    | leaf k =>
      cases k with
      | param => rw [value_param hn rfl, value_param hbn rfl]
      | zero => rw [value_zero hn rfl, value_zero hbn rfl]
    | unary k x =>
      rw [value_unary ha hn rfl, value_unary hb hbn rfl, hoperand x (List.mem_singleton_self x)]
    | binary k l r =>
      rw [value_binary ha hn rfl, value_binary hb hbn rfl,
        hoperand l (by simp [Node.operands, Form.operands]),
        hoperand r (by simp [Node.operands, Form.operands])]

/-! ### Tangents -/

theorem tangentWithin_eq (h : a.WellFormed) (depth depth' : Nat) (hi : i < depth)
    (hi' : i < depth') : a.tangentWithin F ρ n depth i = a.tangentWithin F ρ n depth' i := by
  induction depth generalizing depth' i with
  | zero => omega
  | succ depth ih =>
    obtain ⟨depth', rfl⟩ : ∃ k, depth' = k + 1 := ⟨depth' - 1, by omega⟩
    simp only [tangentWithin]
    by_cases hin : i = n
    · rw [if_pos hin, if_pos hin]
    · rw [if_neg hin, if_neg hin]
      cases hnode : a.node? i with
      | none => rfl
      | some node =>
        apply Form.tangent_congr (fun _ _ => rfl)
        intro c hc
        have hlt := h i node hnode c hc
        exact ih depth' (by omega) (by omega)

theorem tangent_self : a.tangent F ρ n n = 1 := by
  rw [tangent, tangentWithin, if_pos rfl]

theorem tangent_node (h : a.WellFormed) (hn : a.node? i = some node) (hne : i ≠ n) :
    a.tangent F ρ n i = node.form.tangent F (a.value F ρ) (a.tangent F ρ n) := by
  rw [tangent, tangentWithin, if_neg hne, hn]
  apply Form.tangent_congr (fun _ _ => rfl)
  intro c hc
  exact tangentWithin_eq h i (c + 1) (h i node hn c hc) (Nat.lt_succ_self c)

/-- A node has no tangent along what it does not lead to. -/
theorem tangent_of_not_reaches (h : a.WellFormed) (hr : ¬Reaches a.operands i n) :
    a.tangent F ρ n i = 0 := by
  induction i using Nat.strongRecOn with
  | ind i ih =>
    have hne : i ≠ n := by
      rintro rfl
      exact hr (.refl i)
    cases hn : a.node? i with
    | none => rw [tangent, tangentWithin, if_neg hne, hn]; rfl
    | some node =>
      have hoperand : ∀ c ∈ node.form.operands, a.tangent F ρ n c = 0 := by
        intro c hc
        refine ih c (h i node hn c hc) fun hcn => hr (.step ?_ hcn)
        rw [operands_of_node? hn]
        exact hc
      rw [tangent_node h hn hne, Form.tangent_congr (fun _ _ => rfl) hoperand]
      cases node.form with
      | leaf k => rfl
      | unary k x => cases k <;> simp [Form.tangent]
      | binary k l r => cases k <;> simp [Form.tangent]

/-- Growing an arena does not change the tangents of its nodes. -/
theorem tangent_of_extends (ha : a.WellFormed) (hb : b.WellFormed) (hab : a.Extends b)
    (hn : a.node? i = some node) : b.tangent F ρ n i = a.tangent F ρ n i := by
  induction i using Nat.strongRecOn generalizing node with
  | ind i ih =>
    by_cases hin : i = n
    · rw [hin, tangent_self, tangent_self]
    · rw [tangent_node ha hn hin, tangent_node hb (hab i node hn) hin]
      refine Form.tangent_congr (fun c hc => ?_) fun c hc => ?_
      · obtain ⟨m, hm⟩ := exists_node? (Nat.lt_trans (ha i node hn c hc) (lt_size_of_node? hn))
        exact value_of_extends ha hb hab hm
      · have hlt := ha i node hn c hc
        obtain ⟨m, hm⟩ := exists_node? (Nat.lt_trans hlt (lt_size_of_node? hn))
        exact ih c hlt hm

end Arena

/-! ### Rules -/

/-- The ring as a structure in which recipes are carried out. -/
def Functions.algebra (F : Functions R) : Algebra Id R where
  neg x := pure (-x)
  mul x y := pure (x * y)
  div x y := pure (x * F.reciprocal y)
  zeroLike _ := pure 0

/-- What a recipe computes in the ring. -/
def Recipe.value (F : Functions R) (gradient node : R) (operand : Nat → R) (r : Recipe) : R :=
  (r.carryOut F.algebra gradient node operand).run

section Recipes

variable (F : Functions R) (g v : R) (operand : Nat → R) (r s : Recipe)

@[simp] theorem Recipe.value_gradient : gradient.value F g v operand = g := rfl

@[simp] theorem Recipe.value_node : node.value F g v operand = v := rfl

@[simp] theorem Recipe.value_operand (x : Nat) :
    (Recipe.operand x).value F g v operand = operand x := rfl

@[simp] theorem Recipe.value_neg : r.neg.value F g v operand = -r.value F g v operand := rfl

@[simp] theorem Recipe.value_mul :
    (r.mul s).value F g v operand = r.value F g v operand * s.value F g v operand := rfl

@[simp] theorem Recipe.value_div :
    (r.div s).value F g v operand =
      r.value F g v operand * F.reciprocal (s.value F g v operand) := rfl

@[simp] theorem Recipe.value_zeroLike : r.zeroLike.value F g v operand = 0 := rfl

end Recipes

/-- The rules of a node send to each operand what its tangent is multiplied by. -/
theorem Form.sum_rules {F : Functions R} {a : Arena} (h : a.WellFormed) {ρ : Nat → R} {i : Nat}
    {node : Node} (hn : a.node? i = some node) (g : R) (d : Nat → R) :
    (node.form.rules.map fun rule =>
      rule.2.value F g (a.value F ρ i) (a.value F ρ) * d rule.1).sum =
      g * node.form.tangent F (a.value F ρ) d := by
  obtain ⟨form, shape, name⟩ := node
  cases form with
  | leaf k => simp [rules, tangent]
  | unary k x =>
    have hi : a.value F ρ i = F.interpretation.unary k (a.value F ρ x) :=
      Arena.value_unary h hn rfl
    cases k with
    | neg => simp [rules, tangent]
    | reciprocal =>
      simp only [rules, tangent, hi, Functions.interpretation, List.map_cons, List.map_nil,
        List.sum_singleton, Recipe.value_mul, Recipe.value_neg, Recipe.value_gradient,
        Recipe.value_node]
      ring
    | exp =>
      simp only [rules, tangent, hi, Functions.interpretation, List.map_cons, List.map_nil,
        List.sum_singleton, Recipe.value_mul, Recipe.value_gradient, Recipe.value_node]
      ring
    | log =>
      simp only [rules, tangent, List.map_cons, List.map_nil, List.sum_singleton,
        Recipe.value_div, Recipe.value_gradient, Recipe.value_operand]
      ring
    | gtz => simp [rules, tangent]
  | binary k l r =>
    cases k with
    | add =>
      simp only [rules, tangent, List.map_cons, List.map_nil, List.sum_cons, List.sum_nil,
        Recipe.value_gradient]
      ring
    | mul =>
      simp only [rules, tangent, List.map_cons, List.map_nil, List.sum_cons, List.sum_nil,
        Recipe.value_mul, Recipe.value_gradient, Recipe.value_operand]
      ring

end TensorGraph
