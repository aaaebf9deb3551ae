import TensorGraph.Proofs.Context.Visit
import TensorGraph.Proofs.Program.Uniform

/-!
# Evaluation of well-shaped graphs

Operators give their node the shape of its operands. Where all nodes of an arena are like that, and
what a context remembers has the shapes of its nodes, each node asks for an instruction over buffers
of its own shape, which is granted. So evaluation succeeds, and what it remembers has the right
shapes again.
-/

namespace TensorGraph

/-- Nodes have the shape of all that they reach. -/
theorem Arena.Uniform.shape_of_reaches {a : Arena} (h : a.Uniform) {i j : Nat}
    (hr : Reaches a.operands i j) {n : Node} (hn : a.node? i = some n) :
    ∃ m, a.node? j = some m ∧ m.shape = n.shape := by
  induction hr generalizing n with
  | refl i => exact ⟨n, hn, rfl⟩
  | step hc _ ih =>
    rw [operands_of_node? hn] at hc
    obtain ⟨m, hm, hshape⟩ := h _ n hn _ hc
    obtain ⟨o, ho, hsame⟩ := ih hm
    exact ⟨o, ho, hsame.trans hshape⟩

/-- What a context remembers are nodes of an arena, in buffers of their shapes. -/
def Context.Shaped (c : Context) (a : Arena) (p : Program) : Prop :=
  ∀ (i : Int) b, c.values[i]? = some b →
    ∃ (m : Nat) (n : Node), i = m ∧ a.node? m = some n ∧ p.HasShape b n.shape

theorem Context.Shaped.mono {c d : Context} {a b : Arena} {p q : Program} (h : c.Shaped a p)
    (hvalues : d.values = c.values) (hab : a.Extends b) (hpq : p.Extends q) : d.Shaped b q := by
  intro i u hu
  rw [hvalues] at hu
  obtain ⟨m, n, rfl, hn, hshape⟩ := h i u hu
  exact ⟨m, n, rfl, hab m n hn, hshape.extends hpq⟩

/-- A context that remembers something of an arena without nodes remembers nothing. -/
theorem Context.Shaped.of_empty {c : Context} {p q : Program} (h : c.Shaped .empty p) (a : Arena) :
    c.Shaped a q := by
  intro i b hb
  obtain ⟨m, n, -, hn, -⟩ := h i b hb
  simp [Arena.empty, Arena.node?] at hn

namespace Lowering

/-! ### Instructions of nodes -/

section Instructions

variable {p : Program} {digits : Option Nat} {u v : Nat} {r s t : Shape}

theorem getId_of_hasShape (h : p.HasShape u s) : p.getId u = .ok u := by
  obtain ⟨c, hc, -⟩ := h
  rw [Program.getId, Program.id?_eq_some_iff.mpr ⟨rfl, Program.le_size_of_cell? hc⟩]

theorem named_unaryOp (k : Unary) : (unaryOp k).Named digits := by
  cases k <;> exact Op.named_primitive _

theorem named_binaryOp (k : Binary) : (binaryOp k).Named digits := by
  cases k <;> exact Op.named_primitive _

theorem newInstruction_unary (k : Unary) (hu : p.HasShape u s) :
    p.newInstruction digits (.op (unaryOp k)) (.shape t) u 0 = .ok ⟨unaryOp k, t, .one u⟩ := by
  have hid := getId_of_hasShape hu
  have hsources : p.sources digits (unaryOp k) u 0 = .ok (.one u) := by
    have hcount : (unaryOp k).sourceCount ≠ 2 := by cases k <;> decide
    simp only [Program.sources, if_neg hcount, hid, ne_eq, not_true, if_false]
    rfl
  have hsourceCount : (Op.Candidate.op (unaryOp k)).sourceCount = .ok 1 := by cases k <;> rfl
  simp only [Program.newInstruction, Shape.ofValue_shape, hsources, hsourceCount]
  rfl

theorem newInstruction_binary (k : Binary) (hu : p.HasShape u r) (hv : p.HasShape v s) :
    p.newInstruction digits (.op (binaryOp k)) (.shape t) u v =
      .ok ⟨binaryOp k, t, .two u v⟩ := by
  have hidu := getId_of_hasShape hu
  have hidv := getId_of_hasShape hv
  have hpos : (v : Int) ≠ 0 := by
    obtain ⟨c, hc, -⟩ := hv
    have := Program.le_size_of_cell? hc
    omega
  have hsources : p.sources digits (binaryOp k) u v = .ok (.two u v) := by
    have hcount : (binaryOp k).sourceCount = 2 := by cases k <;> decide
    simp only [Program.sources, hcount, if_true, if_neg hpos, hidu, hidv]
    rfl
  have hsourceCount : (Op.Candidate.op (binaryOp k)).sourceCount = .ok 2 := by cases k <;> rfl
  simp only [Program.newInstruction, Shape.ofValue_shape, hsources, hsourceCount]
  rfl

end Instructions

/-! ### Evaluation -/

/-- A context at rest over a uniform program that remembers what has the right shape. -/
structure Shapely (a : Arena) (s : Lowering) : Prop where
  sound : s.program.Sound
  uniform : s.program.Uniform
  shaped : s.context.Shaped a s.program
  idle : s.context.Idle

namespace Shapely

variable {a : Arena} {s t : Lowering}

theorem hasShape (h : Shapely a s) {i b : Nat} {n : Node} (hb : s.context.buffer? i = some b)
    (hn : a.node? i = some n) : s.program.HasShape b n.shape := by
  obtain ⟨m, n', him, hn', hshape⟩ := h.shaped i b hb
  obtain rfl := Int.natCast_inj.mp him
  cases hn.symm.trans hn'
  exact hshape

/-- A remembered operand has the shape of its user. -/
theorem operand_hasShape (h : Shapely a s) (ha : a.Uniform) {i x u : Nat} {n : Node}
    (hn : a.node? i = some n) (hx : x ∈ n.operands) (hu : s.context.buffer? x = some u) :
    s.program.HasShape u n.shape := by
  obtain ⟨m, hm, hshape⟩ := ha i n hn x hx
  exact hshape ▸ h.hasShape hu hm

/-- What a node asks for is granted. -/
theorem granted {strict : Bool} (h : Shapely a s) (ha : a.Uniform) {i : Nat} {n : Node}
    {x : Emit Emission} (hn : a.node? i = some n)
    (hask : request? strict s.context.buffer? n = some x) :
    ∃ e q, x s.program = .ok e q ∧ s.program.Grows q ∧ q.Uniform ∧ q.HasShape e.id n.shape := by
  have hoperand := fun x hx u => h.operand_hasShape ha (x := x) (u := u) hn hx
  obtain ⟨form, shape, name⟩ := n
  cases form with
  | leaf k =>
    cases hask
    refine ⟨.leaf (s.program.size + 1) shape (k == .zero),
      s.program.push (.leaf shape (k == .zero)), ?_, Program.grows_push_leaf _ _ _,
      h.uniform.push (by simp), .leaf shape (k == .zero), ?_, rfl⟩
    · simp only [Program.alloc, Shape.ofValue_shape]
    · rw [Program.cell?_push]
      exact if_pos rfl
  | unary k y =>
    obtain ⟨u, hu, rfl⟩ := Option.map_eq_some_iff.mp hask
    have hshape := hoperand y (by simp [Node.operands, Form.operands]) u hu
    obtain ⟨e, q, hemit, hq, he⟩ := h.uniform.emit h.sound strict
      (newInstruction_unary k hshape) (named_unaryOp k) (by simpa [Sources.toList] using hshape)
    exact ⟨e, q, hemit, (Program.emit_keeps _ _ _ _ _ _).of_ok hemit, hq, he⟩
  | binary k l r =>
    obtain ⟨u, hu, hr⟩ := Option.bind_eq_some_iff.mp hask
    obtain ⟨v, hv, rfl⟩ := Option.map_eq_some_iff.mp hr
    have hleft := hoperand l (by simp [Node.operands, Form.operands]) u hu
    have hright := hoperand r (by simp [Node.operands, Form.operands]) v hv
    obtain ⟨e, q, hemit, hq, he⟩ := h.uniform.emit h.sound strict
      (newInstruction_binary k hleft hright) (named_binaryOp k)
      (by simpa [Sources.toList] using ⟨hleft, hright⟩)
    exact ⟨e, q, hemit, (Program.emit_keeps _ _ _ _ _ _).of_ok hemit, hq, he⟩

/-- A node whose operands are remembered is evaluated, and nothing is forgotten. -/
theorem evaluateNode (strict : Bool) (h : Shapely a s) (ha : a.Uniform) {i : Nat} (hi : i < a.size)
    (hoperands : ∀ x ∈ a.operands i, (s.context.buffer? x).isSome) :
    ∃ t, Lowering.evaluateNode strict a i s = .ok () t ∧ Shapely a t ∧
      ∀ j, (t.context.buffer? j).isSome ↔ j = i ∨ (s.context.buffer? j).isSome := by
  obtain ⟨n, hn⟩ := Arena.exists_node? hi
  rw [Arena.operands_of_node? hn] at hoperands
  obtain ⟨x, hask⟩ := exists_request strict hoperands
  obtain ⟨e, q, hx, hgrows, hq, he⟩ := h.granted ha hn hask
  have hat : a.at? i = some n := by rw [Arena.at?_ofNat, hn]
  have hvalues := values_visited i e q s
  have hrun := evaluateNode_of_granted h.idle hat hask hx
  refine ⟨visited i e q s, hrun, ⟨hgrows.2 h.sound, hq, ?_, idle_visited i e q s h.idle⟩, ?_⟩
  · intro j b hb
    rw [hvalues, Std.HashMap.getElem?_insert] at hb
    split at hb
    · rename_i hij
      cases hb
      exact ⟨i, n, (eq_of_beq hij).symm, hn, he⟩
    · obtain ⟨k, o, rfl, ho, hshape⟩ := h.shaped j b hb
      exact ⟨k, o, rfl, ho, hshape.extends hgrows.1⟩
  · intro j
    simp only [Context.buffer?, hvalues, Std.HashMap.getElem?_insert]
    grind

/-- Nodes in ascending order are evaluated when their operands are remembered or among them. -/
theorem evaluateNodes (strict : Bool) (h : Shapely a s) (hwell : a.WellFormed) (ha : a.Uniform)
    {todo : List Nat} (hascending : todo.Pairwise (· < ·)) (hlt : ∀ i ∈ todo, i < a.size)
    (hclosed : ∀ i ∈ todo, ∀ x ∈ a.operands i, (s.context.buffer? x).isSome ∨ x ∈ todo) :
    ∃ t, (todo.map Int.ofNat).forM (Lowering.evaluateNode strict a) s = .ok () t ∧ Shapely a t ∧
      ∀ j, (t.context.buffer? j).isSome ↔ j ∈ todo ∨ (s.context.buffer? j).isSome := by
  induction todo generalizing s with
  | nil => exact ⟨s, rfl, h, by simp⟩
  | cons i todo ih =>
    have hoperands := operands_of_least hclosed hwell hascending
    obtain ⟨s', hfirst, hs', hknown⟩ :=
      h.evaluateNode strict ha (hlt i (List.mem_cons_self ..)) hoperands
    obtain ⟨t, hrest, ht, hknown'⟩ := ih hs' (List.pairwise_cons.mp hascending).2
      (fun j hj => hlt j (List.mem_cons_of_mem i hj))
      (closed_of_remembered hclosed fun x => (hknown x).mpr)
    refine ⟨t, ?_, ht, fun j => ?_⟩
    · rw [List.map_cons]
      exact (forM_cons_of_ok hfirst).trans hrest
    · rw [hknown', hknown, List.mem_cons]
      grind

/-- Every node of the arena is evaluated, into a buffer of its shape. -/
theorem evaluate (strict : Bool) (h : Shapely a s) (hwell : a.WellFormed) (ha : a.Uniform)
    {root : Nat} {n : Node} (hn : a.node? root = some n) :
    ∃ b t, Lowering.evaluate strict a root s = .ok b t ∧ Shapely a t ∧
      t.program.HasShape b n.shape := by
  cases hroot : s.context.buffer? root with
  | some b => exact ⟨b, s, evaluate_of_known hroot, h, h.hasShape hroot hn⟩
  | none =>
    have hlt := Arena.lt_size_of_node? hn
    obtain ⟨order, horder, hpending⟩ := exists_pending hwell hlt hroot
    obtain ⟨t, hrun, ht, hknown⟩ := h.evaluateNodes strict hwell ha hpending.ascending
      (fun i hi => Nat.lt_of_le_of_lt
        ((hpending.reached i hi).le fun _ _ hc => hwell.operand_lt hc) hlt) hpending.closed
    obtain ⟨b, hb⟩ := Option.isSome_iff_exists.mp ((hknown root).mpr (Or.inl hpending.root_mem))
    exact ⟨b, t, evaluate_of_pending hroot horder hrun hb, ht, ht.hasShape hb hn⟩

/-- A node that is not there is refused before anything is done. -/
theorem evaluate_absent (strict : Bool) (h : Shapely a s) {root : Nat} (hn : a.node? root = none) :
    Lowering.evaluate strict a root s = .error (.absent root) s := by
  have hroot : s.context.values[(root : Int)]? = none := by
    cases hb : s.context.values[(root : Int)]? with
    | none => rfl
    | some b =>
      obtain ⟨m, n, hm, hn', -⟩ := h.shaped root b hb
      obtain rfl := Int.natCast_inj.mp hm
      cases hn.symm.trans hn'
  simp [Lowering.evaluate, hroot, pending, Arena.reach?, hn]

theorem evaluate_keeps (strict : Bool) (h : Shapely a s) (hwell : a.WellFormed)
    (ha : a.Uniform) (root : Nat) :
    Shapely a (stateAfter (Lowering.evaluate strict a root s)) := by
  cases hn : a.node? root with
  | none =>
    rw [h.evaluate_absent strict hn]
    exact h
  | some n =>
    obtain ⟨b, t, hrun, ht, -⟩ := h.evaluate strict hwell ha hn
    rw [hrun]
    exact ht

end Shapely

end Lowering

end TensorGraph
