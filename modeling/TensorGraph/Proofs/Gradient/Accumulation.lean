import TensorGraph.Proofs.Gradient.Parallel
import TensorGraph.Proofs.Graph.Unfolding

/-!
# Accumulating gradients

The table keeps one gradient for a node, to which each pass adds its own. Adding one after the other
gives what accumulating the list of all of them gives, zeros left out alike.
-/

namespace TensorGraph

namespace Arena

/-- Adds a gradient to the one that was there before, if any. -/
def addTo (old : Option Int) (g : Int) : Build Int :=
  match old with
  | none => pure g
  | some o => sum [o, g]

/-- What adding a gradient to an earlier one gives; nodes from `base` on are new. -/
inductive Adds (a : Arena) (base : Nat) : Option Int → Int → Int → Prop
  | first (g : Int) : Adds a base none g g
  | keep {o g : Int} (zero : a.isZero g = true) : Adds a base (some o) g o
  | take {o g : Int} (old : a.isZero o = true) (new : a.isZero g = false) : Adds a base (some o) g g
  | node {l r i : Nat} {n : Node} (old : a.isZero l = false) (new : a.isZero r = false)
    (hn : a.node? i = some n) (form : n.form = .binary .add l r) (le : base ≤ i) :
    Adds a base (some (l : Int)) r i

variable {a b : Arena} {base : Nat} {old : Option Int} {g k o : Int}

theorem addTo_keeps (old : Option Int) (g : Int) : Keeps GrowsUniformly (addTo old g) := by
  cases old with
  | none => exact Keeps.pure g
  | some o => exact sum_keeps [o, g]

/-- A sum of two that was built is a new node over both. -/
theorem exists_of_add_ok {l r : Int} (h : handle (binary .add l r) a = .ok k b) :
    ∃ (x y : Nat) (n : Node), l = x ∧ r = y ∧ x < a.size ∧ y < a.size ∧ k = a.size ∧
      b = a.push n ∧ n.form = .binary .add x y := by
  obtain ⟨i, hbinary, rfl⟩ := handle_ok h
  obtain ⟨m, a₁, hm, hrest⟩ := exists_of_bind_ok hbinary
  obtain ⟨m', a₂, hm', hcheck⟩ := exists_of_bind_ok hrest
  obtain ⟨-, rfl⟩ := of_nodeAt_ok hm
  obtain ⟨-, rfl⟩ := of_nodeAt_ok hm'
  by_cases hshape : m.shape = m'.shape
  case neg =>
    rw [if_pos hshape] at hcheck
    cases hcheck
  rw [if_neg (not_not_intro hshape)] at hcheck
  rcases add_cases (.binary .add) [l, r] (.shape m.shape) none a₂ with ⟨e, he⟩ | ⟨n, hn, hadd⟩
  · cases he.symm.trans hcheck
  · cases hadd.symm.trans hcheck
    have hlt := operands_lt_of_newNode hn
    obtain ⟨hkind, hops, -⟩ := newNode_ok hn
    obtain ⟨form, shape, name⟩ := n
    cases form with
    | leaf k => cases hkind
    | unary k x => cases hkind
    | binary k x y =>
      cases hkind
      simp only [Node.operands, Form.operands, List.map_cons, List.map_nil, List.cons.injEq,
        and_true] at hops
      exact ⟨x, y, _, hops.1.symm, hops.2.symm, hlt x (by simp [Node.operands, Form.operands]),
        hlt y (by simp [Node.operands, Form.operands]), rfl, rfl, rfl⟩

theorem isZero_of_extends (hab : a.Extends b) {i : Nat} (hi : i < a.size) :
    b.isZero i = a.isZero i := by
  obtain ⟨n, hn⟩ := exists_node? hi
  simp [isZero, hn, hab i n hn]

theorem adds_of_addTo (hbase : base ≤ a.size) (h : addTo old g a = .ok k b) :
    b.Adds base old g k := by
  cases old with
  | none =>
    cases h
    exact .first g
  | some o =>
    have hsum := accumulate_of_sum_ok h
    simp only [accumulate, List.filter_cons, List.filter_nil] at hsum
    cases hg : a.isZero g with
    | true =>
      cases ho : a.isZero o with
      | true =>
        simp only [ho, hg, Bool.not_true, Bool.false_eq_true, if_false] at hsum
        cases hsum
        exact .keep hg
      | false =>
        simp only [ho, hg, Bool.not_true, Bool.not_false, Bool.false_eq_true, if_false, if_true]
          at hsum
        cases hsum
        exact .keep hg
    | false =>
      cases ho : a.isZero o with
      | true =>
        simp only [ho, hg, Bool.not_true, Bool.not_false, Bool.false_eq_true, if_false, if_true]
          at hsum
        cases hsum
        exact .take ho hg
      | false =>
        simp only [ho, hg, Bool.not_false, if_true, List.foldlM_cons, List.foldlM_nil] at hsum
        obtain ⟨k', b', hadd, hpure⟩ := exists_of_bind_ok hsum
        cases hpure
        obtain ⟨x, y, n, rfl, rfl, hx, hy, rfl, rfl, hform⟩ := exists_of_add_ok hadd
        have hpush := extends_push a n
        refine .node ?_ ?_ (node?_push_self a n) hform hbase
        · rw [isZero_of_extends hpush hx, ho]
        · rw [isZero_of_extends hpush hy, hg]

/-- What adding gives stays so when the arena grows. -/
theorem Adds.of_extends (h : a.Adds base old g k) (hab : a.Extends b)
    (hold : ∀ o ∈ old, ∃ i < a.size, o = (i : Nat)) (hg : ∃ i < a.size, g = (i : Nat)) :
    b.Adds base old g k := by
  have hzero : ∀ {x : Int}, (∃ i < a.size, x = (i : Nat)) → b.isZero x = a.isZero x := by
    rintro x ⟨i, hi, rfl⟩
    exact isZero_of_extends hab hi
  cases h with
  | first => exact .first g
  | keep zero => exact .keep ((hzero hg).trans zero)
  | take old new => exact .take ((hzero (hold _ rfl)).trans old) ((hzero hg).trans new)
  | node old new hn form le =>
    exact .node ((hzero (hold _ rfl)).trans old) ((hzero hg).trans new) (hab _ _ hn) form le

end Arena

theorem Embedding.rel_mono {E F : Embedding} (hEF : E.Extends F) {old old' : Option Int}
    (h : Option.Rel E.Matches old old') : Option.Rel F.Matches old old' := by
  cases h with
  | none => exact .none
  | some ho => exact .some (ho.mono hEF)

/-- Corresponding gradients are added to what was there before. Where nothing was, the other arena
may grow alone. -/
theorem Embedding.exists_of_addTo {E : Embedding} {old old' : Option Int} {g h k k' : Int}
    {b d : Arena} (hold : old = none ∨ Option.Rel E.Matches old old') (hgh : E.Matches g h)
    (hs : Arena.addTo old g E.inner = .ok k b) (ht : Arena.addTo old' h E.outer = .ok k' d) :
    ∃ F : Embedding, F.inner = b ∧ F.outer = d ∧ E.Extends F ∧
      (Option.Rel E.Matches old old' → F.Matches k k') := by
  rcases hold with rfl | hold
  · cases hs
    have hgrows := ((Arena.addTo_keeps old' h).of_ok ht).1.1
    refine ⟨E.widen hgrows, rfl, rfl, E.extends_widen hgrows, fun hold => ?_⟩
    cases hold
    cases ht
    exact hgh.mono (E.extends_widen hgrows)
  · cases hold with
    | none =>
      cases hs
      cases ht
      exact ⟨E, rfl, rfl, .refl E, fun _ => hgh⟩
    | some ho =>
      obtain ⟨F, hb, hd, hEF, hkk'⟩ :=
        parallel_sum (.cons ho (.cons hgh .nil)) _ _ _ _ hs ht
      exact ⟨F, hb, hd, hEF, fun _ => hkk'⟩

/-! ### As unfoldings -/

namespace Unfolding

/-- Whether what is unfolded is a zero leaf; old nodes are those of `a`. -/
def isZero (a : Arena) : Unfolding → Bool
  | .old i => a.isZero i
  | .leaf k _ => k == .zero
  | .unary .. => false
  | .binary .. => false

/-- What gradients of one shape accumulate to, if there are any. -/
def accumulated (a : Arena) (sh : Shape) (us : List Unfolding) : Option Unfolding :=
  (accumulate (m := Except Error) (isZero a) (fun l r => pure (.binary .add sh l r)) us).toOption

variable {a : Arena} {sh : Shape}

/-- The left-nested sum of those that are not zero, or the first if all are. -/
theorem accumulated_eq (us : List Unfolding) : accumulated a sh us =
    match us.filter fun u => !u.isZero a with
    | v :: vs => some (vs.foldl (.binary .add sh) v)
    | [] => us.head? := by
  simp only [accumulated, accumulate]
  cases us.filter fun u => !u.isZero a with
  | nil =>
    cases us with
    | nil => rfl
    | cons v vs => rfl
  | cons v vs =>
    have hfold : ∀ v : Unfolding, vs.foldlM (m := Except Error)
        (fun l r => pure (.binary .add sh l r)) v = .ok (vs.foldl (.binary .add sh) v) := by
      intro v
      rw [List.foldlM_pure]
      rfl
    dsimp only
    rw [hfold]
    rfl

/-- What accumulates from zero leaves only is one, and nothing else is. -/
theorem isZero_foldl {v : Unfolding} (hv : v.isZero a = false) (vs : List Unfolding) :
    (vs.foldl (.binary .add sh) v).isZero a = false := by
  induction vs generalizing v with
  | nil => exact hv
  | cons u vs ih => exact ih (v := .binary .add sh v u) rfl

/-- The last of a list is added to what the others accumulate to. -/
theorem accumulated_concat (us : List Unfolding) (u : Unfolding) :
    accumulated a sh (us ++ [u]) = accumulated a sh ((accumulated a sh us).toList ++ [u]) := by
  rw [accumulated_eq us]
  cases hfilter : us.filter fun u => !u.isZero a with
  | nil =>
    cases us with
    | nil => rfl
    | cons v vs =>
      have hv : v.isZero a = true := by
        have := List.filter_eq_nil_iff.mp hfilter v (List.mem_cons_self ..)
        simpa using this
      rw [accumulated_eq, accumulated_eq, List.filter_append, hfilter]
      cases hu : u.isZero a <;> simp [hv, hu]
  | cons v vs =>
    have hv : v.isZero a = false := by
      have : v ∈ us.filter fun u => !u.isZero a := hfilter ▸ List.mem_cons_self ..
      simpa using (List.mem_filter.mp this).2
    have hsum : (vs.foldl (.binary .add sh) v).isZero a = false := isZero_foldl hv vs
    rw [accumulated_eq, accumulated_eq, List.filter_append, hfilter]
    cases hu : u.isZero a <;> simp [hsum, hu]

end Unfolding

namespace Arena

variable {a start : Arena} {sh : Shape} {old : Option Int} {g k : Int}

/-- Unfolding shows which nodes are zero leaves. -/
theorem isZero_unfold (h : start.Extends a) {i : Nat} (hi : i < a.size) :
    (a.unfold start.size i).isZero start = a.isZero i := by
  by_cases hold : i < start.size
  · rw [unfold_old hold]
    exact (isZero_of_extends h hold).symm
  · obtain ⟨⟨form, shape, name⟩, hn⟩ := exists_node? hi
    simp only [unfold, unfoldWithin, if_neg hold, hn, isZero, at?_ofNat, Option.map_some]
    cases form with
    | leaf k => cases k <;> rfl
    | unary k x => rfl
    | binary k l r => rfl

/-- What adding gives unfolds to what the unfoldings accumulate to. -/
theorem Adds.accumulated (h : a.Adds start.size old g k) (ha : a.WellFormed)
    (hstart : start.Extends a) (hold : ∀ o ∈ old, a.Has sh o) (hg : a.Has sh g)
    (hk : a.Has sh k) :
    Unfolding.accumulated start sh
      ((old.map fun o => a.unfold start.size o.toNat).toList ++ [a.unfold start.size g.toNat]) =
        some (a.unfold start.size k.toNat) := by
  have hzero : ∀ {x : Int}, a.Has sh x →
      (a.unfold start.size x.toNat).isZero start = a.isZero x := by
    rintro x ⟨i, n, rfl, hn, -⟩
    exact isZero_unfold hstart (lt_size_of_node? hn)
  rw [Unfolding.accumulated_eq]
  cases h with
  | first => cases hz : a.isZero g <;> simp [hzero hg, hz]
  | keep zero =>
    have ho := hzero (hold _ rfl)
    cases hz : a.isZero k <;> simp [hzero hg, ho, hz, zero]
  | take zero nonzero =>
    have ho := hzero (hold _ rfl)
    simp [hzero hg, ho, zero, nonzero]
  | node zero nonzero hn form le =>
    have ho := hzero (hold _ rfl)
    obtain ⟨j, m, hj, hm, hshape⟩ := hk
    obtain rfl := Int.natCast_inj.mp hj
    cases hn.symm.trans hm
    have hsum := unfold_binary ha le hn form
    rw [hshape] at hsum
    simp only [Int.toNat_natCast] at ho ⊢
    rw [hsum]
    have hr := hzero hg
    simp only [Int.toNat_natCast] at hr
    simp [ho, hr, zero, nonzero]

end Arena

end TensorGraph
