import Mathlib.Data.List.Induction
import TensorGraph.Gradient.Backward
import TensorGraph.Proofs.Graph.Growth
import TensorGraph.Proofs.Graph.Reach

/-!
# Live nodes

The nodes of a pass that gradients are computed for: what the output leads to, and what leads down
to a parameter asked for. The sweep over an order of nodes marks exactly these.
-/

namespace TensorGraph.Arena

/-- A node is, or has below it, a parameter asked for. -/
def Leads (a : Arena) (asked : Nat → Prop) (n : Nat) : Prop :=
  ∃ p : Nat, Reaches a.operands n p ∧ a.isParam p = true ∧ asked p

/-- A node is between the output and a parameter asked for. -/
def Live (a : Arena) (asked : Nat → Prop) (output n : Nat) : Prop :=
  Reaches a.operands output n ∧ a.Leads asked n

/-- The parameters in a set are asked for, or all when there is no set. -/
def AskedIn (targets : Option (Std.HashSet Int)) (p : Nat) : Prop :=
  ∀ ts, targets = some ts → (p : Int) ∈ ts

variable {a b : Arena} {asked : Nat → Prop} {i n : Nat}

theorem isParam_ofNat {node : Node} (hn : a.node? n = some node) :
    a.isParam n = true ↔ node.kind = .param := by
  simp [isParam, hn]

theorem exists_of_isParam (h : a.isParam n = true) :
    ∃ node, a.node? n = some node ∧ node.kind = .param := by
  cases hn : a.node? n with
  | none => simp [isParam, hn] at h
  | some node => exact ⟨node, rfl, (isParam_ofNat hn).mp h⟩

theorem operands_of_param {node : Node} (hn : a.node? n = some node) (hk : node.kind = .param) :
    a.operands n = [] := by
  rw [operands_of_node? hn, node.operands_of_param hk]

theorem Leads.of_operand {c : Nat} (hc : c ∈ a.operands n) (h : a.Leads asked c) :
    a.Leads asked n := by
  obtain ⟨p, hr, hp⟩ := h
  exact ⟨p, .step hc hr, hp⟩

theorem Leads.of_reaches {m : Nat} (hr : Reaches a.operands n m) (h : a.Leads asked m) :
    a.Leads asked n := by
  obtain ⟨p, hmp, hp⟩ := h
  exact ⟨p, hr.trans hmp, hp⟩

theorem leads_iff : a.Leads asked n ↔
    (a.isParam n = true ∧ asked n) ∨ ∃ c ∈ a.operands n, a.Leads asked c := by
  constructor
  · rintro ⟨p, hr, hp⟩
    rcases reaches_iff.mp hr with rfl | ⟨c, hc, hcp⟩
    · exact Or.inl hp
    · exact Or.inr ⟨c, hc, p, hcp, hp⟩
  · rintro (hp | ⟨c, hc, h⟩)
    · exact ⟨n, .refl n, hp⟩
    · exact h.of_operand hc

/-! ### Growth -/

theorem operands_of_extends (hab : a.Extends b) (hi : i < a.size) :
    b.operands i = a.operands i := by
  obtain ⟨node, hn⟩ := exists_node? hi
  rw [operands_of_node? hn, operands_of_node? (hab i node hn)]

theorem reaches_of_extends (ha : a.WellFormed) (hab : a.Extends b) (hi : i < a.size) :
    Reaches b.operands i n ↔ Reaches a.operands i n :=
  reaches_congr (fun _ _ hc => ha.operand_lt hc) (fun _ hi => operands_of_extends hab hi) hi

theorem isParam_of_extends (hab : a.Extends b) (hi : i < a.size) : b.isParam i = a.isParam i := by
  obtain ⟨node, hn⟩ := exists_node? hi
  simp [isParam, hn, hab i node hn]

theorem leads_of_extends (ha : a.WellFormed) (hab : a.Extends b) (hi : i < a.size) :
    b.Leads asked i ↔ a.Leads asked i := by
  apply exists_congr
  intro p
  rw [reaches_of_extends ha hab hi]
  apply and_congr_right
  intro hr
  have hp := Nat.lt_of_le_of_lt (hr.le fun _ _ hc => ha.operand_lt hc) hi
  rw [isParam_of_extends hab hp]

/-- Growing an arena does not change which of its nodes are live. -/
theorem live_of_extends (ha : a.WellFormed) (hab : a.Extends b) (hi : i < a.size) :
    b.Live asked i n ↔ a.Live asked i n := by
  rw [Live, Live, reaches_of_extends ha hab hi]
  refine and_congr_right fun hr => leads_of_extends ha hab ?_
  exact Nat.lt_of_le_of_lt (hr.le fun _ _ hc => ha.operand_lt hc) hi

/-! ### Marking -/

/-- Whether a node is marked when those before it are. -/
def counts (targets : Option (Std.HashSet Int)) (live : Std.HashSet Int) (node : Node) : Bool :=
  if node.kind = .param then
    match targets with
    | none => true
    | some ts => ts.contains n
  else node.operands.any fun c => live.contains (c : Int)

theorem live_concat (targets : Option (Std.HashSet Int)) (init : List Nat) {node : Node}
    (hn : a.node? n = some node) :
    a.live targets ((init ++ [n]).map Int.ofNat) =
      if counts (n := n) targets (a.live targets (init.map Int.ofNat)) node then
        (a.live targets (init.map Int.ofNat)).insert (n : Int)
      else a.live targets (init.map Int.ofNat) := by
  simp only [live]
  rw [List.map_append, List.foldl_append, List.map_singleton, List.foldl_cons, List.foldl_nil,
    Int.ofNat_eq_natCast, at?_ofNat, hn]
  rfl

/-- A node counts when it leads down to a parameter asked for. -/
theorem counts_iff {targets : Option (Std.HashSet Int)} {live : Std.HashSet Int} {node : Node}
    (hn : a.node? n = some node)
    (hlive : ∀ c ∈ node.operands, (c : Int) ∈ live ↔ a.Leads (AskedIn targets) c) :
    counts (n := n) targets live node = true ↔ a.Leads (AskedIn targets) n := by
  rw [leads_iff, isParam_ofNat hn, operands_of_node? hn]
  simp only [counts]
  split
  · rename_i hk
    have hno : node.operands = [] := node.operands_of_param hk
    cases targets with
    | none => simp [AskedIn, hk]
    | some ts => simp [AskedIn, hk, hno]
  · rename_i hk
    rw [List.any_eq_true]
    simp only [hk, false_and, false_or, Std.HashSet.contains_iff_mem]
    exact exists_congr fun c => and_congr_right fun hc => hlive c hc

/-- An operand of a node comes before it, so it is not the last one. -/
theorem WellFormed.operand_mem_init (h : a.WellFormed) {init : List Nat} {j : Nat}
    (hasc : (init ++ [j]).Pairwise (· < ·))
    (hclosed : ∀ k ∈ init ++ [j], ∀ c ∈ a.operands k, c ∈ init ++ [j]) :
    ∀ k ∈ init ++ [j], ∀ c ∈ a.operands k, c ∈ init := by
  intro k hk c hc
  obtain ⟨-, -, hlast⟩ := List.pairwise_append.mp hasc
  have hck := h.operand_lt hc
  have hkj : k ≤ j := by
    rcases List.mem_append.mp hk with hk | hk
    · exact Nat.le_of_lt (hlast k hk j (List.mem_singleton_self j))
    · exact Nat.le_of_eq (List.mem_singleton.mp hk)
  rcases List.mem_append.mp (hclosed k hk c hc) with hmem | hmem
  · exact hmem
  · have := List.mem_singleton.mp hmem
    omega

/-- The marks after a sweep over nodes that come after their operands. -/
theorem mem_live (h : a.WellFormed) (targets : Option (Std.HashSet Int)) {order : List Nat}
    (hasc : order.Pairwise (· < ·)) (hclosed : ∀ j ∈ order, ∀ c ∈ a.operands j, c ∈ order)
    (hnode : ∀ j ∈ order, j < a.size) (x : Int) :
    x ∈ a.live targets (order.map Int.ofNat) ↔
      ∃ j ∈ order, x = j ∧ a.Leads (AskedIn targets) j := by
  induction order using List.reverseRecOn generalizing x with
  | nil => simp [live]
  | append_singleton init j ih =>
    have hinit := (List.pairwise_append.mp hasc).1
    have hbefore := h.operand_mem_init hasc hclosed
    have hmarks := ih hinit (fun k hk => hbefore k (List.mem_append_left _ hk)) fun k hk =>
      hnode k (List.mem_append_left _ hk)
    obtain ⟨node, hn⟩ := exists_node? (hnode j (by simp))
    have hoperands : ∀ c ∈ node.operands, (c : Int) ∈ a.live targets (init.map Int.ofNat) ↔
        a.Leads (AskedIn targets) c := by
      intro c hc
      have hmem : c ∈ init := hbefore j (by simp) c (by rw [operands_of_node? hn]; exact hc)
      rw [hmarks]
      constructor
      · rintro ⟨k, -, hck, hleads⟩
        rw [Int.natCast_inj.mp hck]
        exact hleads
      · exact fun hleads => ⟨c, hmem, rfl, hleads⟩
    have hcounts := counts_iff hn hoperands
    rw [live_concat targets init hn]
    have hsplit : (∃ k ∈ init ++ [j], x = k ∧ a.Leads (AskedIn targets) k) ↔
        (∃ k ∈ init, x = k ∧ a.Leads (AskedIn targets) k) ∨
          (x = j ∧ a.Leads (AskedIn targets) j) := by
      simp only [List.mem_append, List.mem_singleton, or_and_right, exists_or, exists_eq_left]
    rw [hsplit, ← hmarks, ← hcounts]
    split
    · rename_i hc
      rw [Std.HashSet.mem_insert]
      simp only [beq_iff_eq, hc, and_true]
      rw [or_comm, eq_comm]
    · rename_i hc
      simp [hc]

/-- The marks of a pass are its live nodes. -/
theorem mem_live_of_toposort? (h : a.WellFormed) (targets : Option (Std.HashSet Int))
    {output : Nat} (houtput : output < a.size) {order : List Nat}
    (hasc : order.Pairwise (· < ·)) (hmem : ∀ j, j ∈ order ↔ Reaches a.operands output j)
    (j : Nat) :
    (j : Int) ∈ a.live targets (order.map Int.ofNat) ↔ a.Live (AskedIn targets) output j := by
  have hclosed : ∀ k ∈ order, ∀ c ∈ a.operands k, c ∈ order := fun k hk c hc =>
    (hmem c).mpr (((hmem k).mp hk).trans (.step hc (.refl c)))
  have hnode : ∀ k ∈ order, k < a.size := fun k hk =>
    Nat.lt_of_le_of_lt (((hmem k).mp hk).le fun _ _ hc => h.operand_lt hc) houtput
  rw [mem_live h targets hasc hclosed hnode, Live, ← hmem]
  constructor
  · rintro ⟨k, hk, hjk, hleads⟩
    rw [Int.natCast_inj.mp hjk]
    exact ⟨hk, hleads⟩
  · rintro ⟨hj, hleads⟩
    exact ⟨j, hj, rfl, hleads⟩

end TensorGraph.Arena
