import TensorGraph.Context.Lowering
import TensorGraph.Graph.Tree
import TensorGraph.Proofs.Graph.Growth
import TensorGraph.Proofs.Program.Execution

/-!
# What a context remembers

The buffers that a context remembers of nodes are faithful to an arena and a program when each
holds what its node computes: a leaf of its own for a leaf, and for an operator the instruction over
the buffers of the operands. Running the program then evaluates the expressions, and two nodes
share a buffer exactly when they stand for one tree.
-/

namespace TensorGraph

/-- The buffer that a context remembers of a node. -/
def Context.buffer? (c : Context) (i : Nat) : Option Nat := c.values[(i : Int)]?

theorem Context.buffer?_congr {c d : Context} (h : d.values = c.values) :
    d.buffer? = c.buffer? := by
  funext i
  simp only [buffer?, h]

/-- A buffer holds what a node computes, its operands being remembered. -/
def Program.Holds (p : Program) (memo : Nat → Option Nat) (n : Node) (b : Nat) : Prop :=
  match n.form with
  | .leaf k => p.cell? b = some (.leaf n.shape (k == .zero))
  | .unary k x =>
    ∃ u s, memo x = some u ∧ p.cell? b = some (.instruction ⟨Lowering.unaryOp k, s, .one u⟩)
  | .binary k l r =>
    ∃ u v s, memo l = some u ∧ memo r = some v ∧
      p.cell? b = some (.instruction ⟨Lowering.binaryOp k, s, .two u v⟩)

structure Context.Faithful (c : Context) (a : Arena) (p : Program) : Prop where
  holds : ∀ i b, c.buffer? i = some b → ∃ n, a.node? i = some n ∧ p.Holds c.buffer? n b
  /-- Each leaf has a buffer of its own. -/
  leaf_injective : ∀ i j b s z, c.buffer? i = some b → c.buffer? j = some b →
    p.cell? b = some (.leaf s z) → i = j

/-! ### Operations of nodes -/

theorem Op.tag_eq_of_signature {o : Op} {q : Primitive}
    (h : o.signature = (Op.primitive q).signature) : o = .primitive q := by
  have hhead := congrArg List.head? h
  cases o with
  | primitive p =>
    have hname : p.name = q.name := by simpa [signature, tag] using hhead
    rw [Primitive.name_injective hname]
  | broadcast axis count => cases q <;> simp [signature, tag, Primitive.name] at hhead
  | cat axis => cases q <;> simp [signature, tag, Primitive.name] at hhead
  | flip axis => cases q <;> simp [signature, tag, Primitive.name] at hhead
  | permute axes => cases q <;> simp [signature, tag, Primitive.name] at hhead
  | pad axis amount fill => cases q <;> simp [signature, tag, Primitive.name] at hhead

theorem Op.isUndefined_primitive (q : Primitive) : (Op.primitive q).isUndefined = false := by
  simp [isUndefined, signature, tag, parameters, Value.signatures, Value.Token.isUndefined]

/-- An instruction with the key of a primitive one carries out that primitive. -/
theorem Instruction.eq_of_key {i : Instruction} {q : Primitive} {s : Shape} {read : Sources}
    (h : i.key = (⟨.primitive q, s, read⟩ : Instruction).key) :
    i = ⟨.primitive q, i.shape, read⟩ := by
  obtain ⟨op, shape, sources⟩ := i
  have hop : op = .primitive q := Op.tag_eq_of_signature (congrArg Key.signature h)
  have hread : sources = read := congrArg Key.sources h
  rw [hop, hread]

/-- The primitive that a function is carried out by. -/
def Unary.primitive : Unary → Primitive
  | .neg => .neg
  | .reciprocal => .reciprocal
  | .exp => .exp
  | .log => .log
  | .gtz => .gtz

def Binary.primitive : Binary → Primitive
  | .add => .add
  | .mul => .mul

theorem Lowering.unaryOp_eq (k : Unary) : unaryOp k = .primitive k.primitive := by
  cases k <;> rfl

theorem Lowering.binaryOp_eq (k : Binary) : binaryOp k = .primitive k.primitive := by
  cases k <;> rfl

theorem Lowering.unaryOp_injective {k l : Unary} (h : unaryOp k = unaryOp l) : k = l := by
  cases k <;> cases l <;> first | rfl | cases h

theorem Lowering.binaryOp_injective {k l : Binary} (h : binaryOp k = binaryOp l) : k = l := by
  cases k <;> cases l <;> first | rfl | cases h

/-! ### Growth -/

theorem Program.Holds.mono {p q : Program} {memo memo' : Nat → Option Nat} {n : Node} {b : Nat}
    (h : p.Holds memo n b) (hpq : p.Extends q)
    (hmemo : ∀ x u, memo x = some u → memo' x = some u) : q.Holds memo' n b := by
  simp only [Holds] at h ⊢
  split at h
  · exact hpq b _ h
  · obtain ⟨u, s, hu, hb⟩ := h
    exact ⟨u, s, hmemo _ u hu, hpq b _ hb⟩
  · obtain ⟨u, v, s, hu, hv, hb⟩ := h
    exact ⟨u, v, s, hmemo _ u hu, hmemo _ v hv, hpq b _ hb⟩

/-- A buffer that holds what a node computes has a cell. -/
theorem Program.Holds.exists_cell {p : Program} {memo : Nat → Option Nat} {n : Node} {b : Nat}
    (h : p.Holds memo n b) : ∃ c, p.cell? b = some c := by
  unfold Holds at h
  split at h
  · exact ⟨_, h⟩
  · obtain ⟨u, s, _, hb⟩ := h
    exact ⟨_, hb⟩
  · obtain ⟨u, v, s, _, _, hb⟩ := h
    exact ⟨_, hb⟩

/-- Only leaves are held by leaves. -/
theorem Program.Holds.form_of_leaf {p : Program} {memo : Nat → Option Nat} {n : Node} {b : Nat}
    {s : Shape} {z : Bool} (h : p.Holds memo n b) (hb : p.cell? b = some (.leaf s z)) :
    ∃ k, n.form = .leaf k := by
  unfold Holds at h
  split at h
  · rename_i k hk
    exact ⟨k, hk⟩
  · obtain ⟨_, _, _, hcell⟩ := h
    rw [hcell] at hb
    cases hb
  · obtain ⟨_, _, _, _, _, hcell⟩ := h
    rw [hcell] at hb
    cases hb

namespace Context.Faithful

/-- Only the buffers of nodes matter. -/
theorem congr {c d : Context} {a : Arena} {p : Program} (h : c.Faithful a p)
    (hbuffer : d.buffer? = c.buffer?) : d.Faithful a p := by
  constructor
  · rw [hbuffer]
    exact h.holds
  · rw [hbuffer]
    exact h.leaf_injective

theorem exists_cell {c : Context} {a : Arena} {p : Program} (h : c.Faithful a p) {i b : Nat}
    (hb : c.buffer? i = some b) : ∃ cell, p.cell? b = some cell := by
  obtain ⟨n, _, hn⟩ := h.holds i b hb
  exact hn.exists_cell

theorem mono {c d : Context} {a a' : Arena} {p p' : Program} (h : c.Faithful a p)
    (hvalues : d.values = c.values) (ha : a.Extends a') (hp : p.Extends p') :
    d.Faithful a' p' := by
  refine congr ?_ (buffer?_congr hvalues)
  constructor
  · intro i b hb
    obtain ⟨n, hn, hholds⟩ := h.holds i b hb
    exact ⟨n, ha i n hn, hholds.mono hp fun _ _ hu => hu⟩
  · intro i j b s z hi hj hb
    obtain ⟨cell, hcell⟩ := h.exists_cell hi
    have hsame := (hp b cell hcell).symm.trans hb
    cases hsame
    exact h.leaf_injective i j b s z hi hj hcell

/-- A context that remembers nothing is faithful to anything. -/
theorem of_empty {c : Context} (a : Arena) (p : Program) (h : ∀ i, c.buffer? i = none) :
    c.Faithful a p := by
  constructor
  · intro i b hb
    rw [h i] at hb
    cases hb
  · intro i j b s z hi
    rw [h i] at hi
    cases hi

/-- Remembering one more node: what it computes is held, and by a new buffer if it is a leaf. -/
theorem insert {c d : Context} {a : Arena} {p : Program} (h : c.Faithful a p) {i b : Nat} {n : Node}
    (hd : ∀ j, d.buffer? j = if j = i then some b else c.buffer? j) (hnew : c.buffer? i = none)
    (hn : a.node? i = some n) (hholds : p.Holds c.buffer? n b)
    (hleaf : ∀ s z, p.cell? b = some (.leaf s z) → ∀ j, c.buffer? j ≠ some b) : d.Faithful a p := by
  have hmemo : ∀ x u, c.buffer? x = some u → d.buffer? x = some u := by
    intro x u hx
    have hne : x ≠ i := by
      rintro rfl
      rw [hnew] at hx
      cases hx
    rw [hd, if_neg hne, hx]
  constructor
  · intro j u hj
    rw [hd] at hj
    split at hj
    · rename_i hji
      cases hj
      exact ⟨n, hji ▸ hn, hholds.mono (Program.Extends.refl p) hmemo⟩
    · obtain ⟨m, hm, hmholds⟩ := h.holds j u hj
      exact ⟨m, hm, hmholds.mono (Program.Extends.refl p) hmemo⟩
  · intro j k u s z hj hk hu
    rw [hd] at hj hk
    split at hj
    · rename_i hji
      cases hj
      split at hk
      · rename_i hki
        rw [hji, hki]
      · exact absurd hk (hleaf s z hu k)
    · split at hk
      · cases hk
        exact absurd hj (hleaf s z hu j)
      · exact h.leaf_injective j k u s z hj hk hu

end Context.Faithful

/-! ### Values -/

/-- What node kinds stand for when operations are given. -/
def Program.Semantics.interpretation {α : Type} (I : Program.Semantics α) : Interpretation α where
  unary k x := I (Lowering.unaryOp k) [x]
  binary k x y := I (Lowering.binaryOp k) [x, y]

namespace Context.Faithful

variable {α : Type} {I : Program.Semantics α} {leaf : Nat → α} {m : Program.Memory α}

/-- After the schedule, the buffer of a node holds the value of its tree. -/
theorem value {c : Context} {a : Arena} {p : Program} (h : c.Faithful a p) (ha : a.WellFormed)
    (hm : p.Executed I leaf p.schedule m) {ρ : Nat → α}
    (hρ : ∀ j b s z, c.buffer? j = some b → p.cell? b = some (.leaf s z) → m b = some (ρ j))
    (i b : Nat) (hb : c.buffer? i = some b) :
    m b = some ((a.tree i).value I.interpretation ρ) := by
  induction i using Nat.strongRecOn generalizing b with
  | ind i ih =>
    obtain ⟨n, hn, hholds⟩ := h.holds i b hb
    unfold Program.Holds at hholds
    split at hholds
    · rename_i k hk
      rw [Arena.tree_leaf hn hk]
      exact hρ i b _ _ hb hholds
    · rename_i k x hk
      obtain ⟨u, s, hu, hcell⟩ := hholds
      have hx := ih x (ha.unary_lt hn hk) u hu
      obtain ⟨vs, hvs, hv⟩ := hm.carried b _ (Program.mem_schedule.mpr hcell)
      rw [Arena.tree_unary ha hn hk, hv]
      simp only [Sources.toList, List.mapM_cons, List.mapM_nil, hx] at hvs
      cases hvs
      rfl
    · rename_i k l r hk
      obtain ⟨u, v, s, hu, hv, hcell⟩ := hholds
      have hl := ih l (ha.binary_lt hn hk).1 u hu
      have hr := ih r (ha.binary_lt hn hk).2 v hv
      obtain ⟨vs, hvs, hval⟩ := hm.carried b _ (Program.mem_schedule.mpr hcell)
      rw [Arena.tree_binary ha hn hk, hval]
      simp only [Sources.toList, List.mapM_cons, List.mapM_nil, hl, hr] at hvs
      cases hvs
      rfl

end Context.Faithful

/-! ### Sharing -/

/-- Operators of one kind whose operands are related, in order. -/
inductive Form.Alike (r : Nat → Nat → Prop) : Form → Form → Prop
  | unary (k : Unary) {x y : Nat} : r x y → Alike r (.unary k x) (.unary k y)
  | binary (k : Binary) {x x' y y' : Nat} : r x x' → r y y' →
      Alike r (.binary k x y) (.binary k x' y')

theorem Form.Alike.mono {r r' : Nat → Nat → Prop} {f g : Form} (h : f.Alike r g)
    (hr : ∀ x ∈ f.operands, ∀ y, r x y → r' x y) : f.Alike r' g := by
  cases h with
  | unary k hxy => exact .unary k (hr _ (by simp [operands]) _ hxy)
  | binary k hx hy =>
    exact .binary k (hr _ (by simp [operands]) _ hx) (hr _ (by simp [operands]) _ hy)

section Trees

variable {a : Arena} {i j : Nat} {n m : Node}

/-- Operators of one kind over operands of the same trees have one tree. -/
theorem Arena.tree_of_alike (ha : a.WellFormed) (hn : a.node? i = some n)
    (hm : a.node? j = some m) (h : n.form.Alike (fun x y => a.tree x = a.tree y) m.form) :
    a.tree i = a.tree j := by
  generalize hf : n.form = f at h
  generalize hg : m.form = g at h
  cases h with
  | unary k hxy => rw [tree_unary ha hn hf, tree_unary ha hm hg, hxy]
  | binary k hx hy => rw [tree_binary ha hn hf, tree_binary ha hm hg, hx, hy]

/-- Nodes of one tree are one node, or operators of one kind over operands of the same trees. -/
theorem Arena.alike_of_tree (ha : a.WellFormed) (hn : a.node? i = some n)
    (hm : a.node? j = some m) (h : a.tree i = a.tree j) :
    i = j ∨ n.form.Alike (fun x y => a.tree x = a.tree y) m.form := by
  cases hf : n.form with
  | leaf k =>
    rw [tree_leaf hn hf] at h
    cases hg : m.form with
    | leaf k' =>
      rw [tree_leaf hm hg] at h
      exact Or.inl (Tree.leaf.inj h)
    | unary k' y =>
      rw [tree_unary ha hm hg] at h
      cases h
    | binary k' y y' =>
      rw [tree_binary ha hm hg] at h
      cases h
  | unary k x =>
    rw [tree_unary ha hn hf] at h
    cases hg : m.form with
    | leaf k' =>
      rw [tree_leaf hm hg] at h
      cases h
    | unary k' y =>
      rw [tree_unary ha hm hg] at h
      injection h with hk hxy
      exact Or.inr (hk ▸ .unary k hxy)
    | binary k' y y' =>
      rw [tree_binary ha hm hg] at h
      cases h
  | binary k x x' =>
    rw [tree_binary ha hn hf] at h
    cases hg : m.form with
    | leaf k' =>
      rw [tree_leaf hm hg] at h
      cases h
    | unary k' y =>
      rw [tree_unary ha hm hg] at h
      cases h
    | binary k' y y' =>
      rw [tree_binary ha hm hg] at h
      injection h with hk hxy hxy'
      exact Or.inr (hk ▸ .binary k hxy hxy')

end Trees

section Buffers

variable {p : Program} {memo : Nat → Option Nat} {n m : Node} {b d : Nat}

/-- Nodes held by one buffer are leaves, or operators of one kind over operands that share their
buffers. -/
theorem Program.Holds.alike (hn : p.Holds memo n b) (hm : p.Holds memo m b) :
    (∃ s z, p.cell? b = some (.leaf s z)) ∨
      n.form.Alike (fun x y => ∃ u, memo x = some u ∧ memo y = some u) m.form := by
  unfold Holds at hn hm
  split at hn
  · exact Or.inl ⟨_, _, hn⟩
  · rename_i k x hk
    obtain ⟨u, s, hu, hcell⟩ := hn
    split at hm
    · rw [hcell] at hm
      cases hm
    · rename_i k' y hk'
      obtain ⟨v, t, hv, hcell'⟩ := hm
      have hop := hcell.symm.trans hcell'
      simp only [Option.some.injEq, Cell.instruction.injEq, Instruction.mk.injEq,
        Sources.one.injEq] at hop
      obtain ⟨hop, -, rfl⟩ := hop
      rw [hk, hk', ← Lowering.unaryOp_injective hop]
      exact Or.inr (.unary k ⟨u, hu, hv⟩)
    · obtain ⟨v, w, t, -, -, hcell'⟩ := hm
      rw [hcell] at hcell'
      simp at hcell'
  · rename_i k x x' hk
    obtain ⟨u, u', s, hu, hu', hcell⟩ := hn
    split at hm
    · rw [hcell] at hm
      cases hm
    · obtain ⟨v, t, -, hcell'⟩ := hm
      rw [hcell] at hcell'
      simp at hcell'
    · rename_i k' y y' hk'
      obtain ⟨v, v', t, hv, hv', hcell'⟩ := hm
      have hop := hcell.symm.trans hcell'
      simp only [Option.some.injEq, Cell.instruction.injEq, Instruction.mk.injEq,
        Sources.two.injEq] at hop
      obtain ⟨hop, -, rfl, rfl⟩ := hop
      rw [hk, hk', ← Lowering.binaryOp_injective hop]
      exact Or.inr (.binary k ⟨u, hu, hv⟩ ⟨u', hu', hv'⟩)

/-- Two buffers of one primitive over the same sources are one. -/
theorem Program.Sound.eq_of_primitive (h : p.Sound) {q : Primitive} {s t : Shape} {read : Sources}
    (hb : p.cell? b = some (.instruction ⟨.primitive q, s, read⟩))
    (hd : p.cell? d = some (.instruction ⟨.primitive q, t, read⟩)) : b = d := by
  have hkb := h.key_known b _ hb (Op.isUndefined_primitive q)
  have hkd := h.key_known d _ hd (Op.isUndefined_primitive q)
  exact Option.some.inj (hkb.symm.trans hkd)

/-- Operators of one kind over operands that share their buffers share a buffer. -/
theorem Program.Sound.eq_of_alike (h : p.Sound) (hn : p.Holds memo n b) (hm : p.Holds memo m d)
    (halike : n.form.Alike (fun x y => ∀ u v, memo x = some u → memo y = some v → u = v) m.form) :
    b = d := by
  unfold Holds at hn hm
  generalize n.form = f at hn halike
  generalize m.form = g at hm halike
  cases halike with
  | unary k hxy =>
    obtain ⟨u, s, hu, hcell⟩ := hn
    obtain ⟨v, t, hv, hcell'⟩ := hm
    obtain rfl := hxy u v hu hv
    rw [Lowering.unaryOp_eq] at hcell hcell'
    exact h.eq_of_primitive hcell hcell'
  | binary k hx hy =>
    obtain ⟨u, u', s, hu, hu', hcell⟩ := hn
    obtain ⟨v, v', t, hv, hv', hcell'⟩ := hm
    obtain rfl := hx u v hu hv
    obtain rfl := hy u' v' hu' hv'
    rw [Lowering.binaryOp_eq] at hcell hcell'
    exact h.eq_of_primitive hcell hcell'

end Buffers

namespace Context.Faithful

variable {c : Context} {a : Arena} {p : Program}

/-- Nodes that share a buffer stand for one tree. -/
theorem tree_eq (h : c.Faithful a p) (ha : a.WellFormed) (i j b : Nat) (hi : c.buffer? i = some b)
    (hj : c.buffer? j = some b) : a.tree i = a.tree j := by
  induction i using Nat.strongRecOn generalizing j b with
  | ind i ih =>
    obtain ⟨n, hn, hholds⟩ := h.holds i b hi
    obtain ⟨m, hm, hmholds⟩ := h.holds j b hj
    rcases hholds.alike hmholds with ⟨s, z, hleaf⟩ | halike
    · rw [h.leaf_injective i j b s z hi hj hleaf]
    · refine Arena.tree_of_alike ha hn hm (halike.mono ?_)
      rintro x hx y ⟨u, hu, hv⟩
      exact ih x (ha i n hn x hx) y u hu hv

/-- Nodes that stand for one tree share a buffer. -/
theorem buffer_eq (h : c.Faithful a p) (ha : a.WellFormed) (hp : p.Sound) (i j b d : Nat)
    (hi : c.buffer? i = some b) (hj : c.buffer? j = some d) (htree : a.tree i = a.tree j) :
    b = d := by
  induction i using Nat.strongRecOn generalizing j b d with
  | ind i ih =>
    obtain ⟨n, hn, hholds⟩ := h.holds i b hi
    obtain ⟨m, hm, hmholds⟩ := h.holds j d hj
    rcases Arena.alike_of_tree ha hn hm htree with rfl | halike
    · exact Option.some.inj (hi.symm.trans hj)
    · refine hp.eq_of_alike hholds hmholds (halike.mono ?_)
      intro x hx y hxy u v hu hv
      exact ih x (ha i n hn x hx) y u v hu hv hxy

end Context.Faithful

end TensorGraph
