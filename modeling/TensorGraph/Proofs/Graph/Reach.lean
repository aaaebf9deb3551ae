import TensorGraph.Graph.Reach

/-!
# Nodes below a root

Reading `reach?` off: it lists each node once, and apart from the root only nodes that were not
known. With nothing known it lists exactly what the operands lead to.
-/

namespace TensorGraph

/-- Reaching goes through an operand, or stays. -/
theorem reaches_iff {next : Nat → List Nat} {i j : Nat} :
    Reaches next i j ↔ i = j ∨ ∃ c ∈ next i, Reaches next c j := by
  constructor
  · intro h
    cases h with
    | refl => exact Or.inl rfl
    | step hc hr => exact Or.inr ⟨_, hc, hr⟩
  · rintro (rfl | ⟨c, hc, hr⟩)
    · exact .refl i
    · exact .step hc hr

theorem Reaches.mono {next next' : Nat → List Nat} (hsub : ∀ i, ∀ c ∈ next i, c ∈ next' i)
    {i j : Nat} (h : Reaches next i j) : Reaches next' i j := by
  induction h with
  | refl i => exact .refl i
  | step hc _ ih => exact .step (hsub _ _ hc) ih

/-- What is reached does not depend on what is next above the start. -/
theorem reaches_congr {next next' : Nat → List Nat} {bound : Nat}
    (hlt : ∀ i, ∀ c ∈ next i, c < i) (hsame : ∀ i < bound, next' i = next i) {i j : Nat}
    (hi : i < bound) : Reaches next' i j ↔ Reaches next i j := by
  constructor
  · intro h
    induction h with
    | refl i => exact .refl i
    | step hc _ ih =>
      rw [hsame _ hi] at hc
      exact .step hc (ih (Nat.lt_trans (hlt _ _ hc) hi))
  · intro h
    induction h with
    | refl i => exact .refl i
    | step hc _ ih =>
      have hci := Nat.lt_trans (hlt _ _ hc) hi
      rw [← hsame _ hi] at hc
      exact .step hc (ih hci)

section Order

variable {next : Nat → List Nat} (hlt : ∀ i, ∀ c ∈ next i, c < i) {order : List Nat} {i : Nat}
  (hascending : order.Pairwise (· < ·)) (hmem : ∀ j, j ∈ order ↔ Reaches next i j)

include hlt hascending hmem

/-- What a root reaches, ascending, ends with the root. -/
theorem getLast?_of_reaches : order.getLast? = some i := by
  obtain ⟨before, after, rfl⟩ := List.append_of_mem ((hmem i).mpr (.refl i))
  obtain ⟨-, hafter, -⟩ := List.pairwise_append.mp hascending
  have hnil : after = [] := by
    apply List.eq_nil_iff_forall_not_mem.mpr
    intro j hj
    have habove : i < j := (List.pairwise_cons.mp hafter).1 j hj
    have hle : j ≤ i := ((hmem j).mp (by simp [hj])).le hlt
    omega
  rw [hnil, List.getLast?_concat]

/-- Whatever it is computed from stands before a node. -/
theorem mem_before_of_reaches {before after : List Nat} {j : Nat}
    (hsplit : order = before ++ j :: after) {c : Nat} (hc : c ∈ next j) : c ∈ before := by
  subst hsplit
  have hj : Reaches next i j := (hmem j).mp (by simp)
  have hreached : c ∈ before ++ j :: after := (hmem c).mpr (hj.trans (.step hc (.refl c)))
  have hbelow : c < j := hlt j c hc
  obtain ⟨-, hafter, -⟩ := List.pairwise_append.mp hascending
  rcases List.mem_append.mp hreached with hbefore | hrest
  · exact hbefore
  · rcases List.mem_cons.mp hrest with rfl | hrest
    · omega
    · have habove : j < c := (List.pairwise_cons.mp hafter).1 c hrest
      omega

end Order

/-- A parameter is computed from nothing. -/
theorem Node.operands_of_param {n : Node} (h : n.kind = .param) : n.operands = [] := by
  obtain ⟨form, shape, name⟩ := n
  cases form with
  | leaf k => rfl
  | unary k x => cases h
  | binary k l r => cases h

namespace Arena

theorem openOperands_subset (a : Arena) (known : Nat → Bool) (i : Nat) :
    ∀ c ∈ a.openOperands known i, c ∈ a.operands i :=
  fun _ hc => (List.mem_filter.mp hc).1

theorem WellFormed.openOperands_lt {a : Arena} (h : a.WellFormed) (known : Nat → Bool) (i : Nat) :
    ∀ c ∈ a.openOperands known i, c < i :=
  fun c hc => h.operand_lt (a.openOperands_subset known i c hc)

/-- What is reached through unknown operands is unknown, but for the start. -/
theorem eq_or_unknown {a : Arena} {known : Nat → Bool} {i j : Nat}
    (h : Reaches (a.openOperands known) i j) : j = i ∨ known j = false := by
  induction h with
  | refl i => exact Or.inl rfl
  | step hc _ ih =>
    rcases ih with rfl | hj
    · have := (List.mem_filter.mp hc).2
      exact Or.inr (by simpa using this)
    · exact Or.inr hj

/-- A handle that refers to a node has an index of that node, also when it counts from the end. -/
theorem at?_eq_node? {a : Arena} {i : Int} {n : Node} (h : a.at? i = some n) :
    ∃ k : Nat, a.node? k = some n := by
  unfold at? at h
  split at h
  · exact ⟨_, h⟩
  · split at h
    · exact ⟨_, h⟩
    · cases h

theorem ofNat_nodup {xs : List Nat} (h : xs.Pairwise (· < ·)) : (xs.map Int.ofNat).Nodup := by
  rw [List.nodup_iff_pairwise_ne, List.pairwise_map]
  refine h.imp fun hxy heq => ?_
  have := Int.ofNat.inj heq
  omega

/-- Each node is listed once, and apart from the root only nodes that are not known. -/
theorem reach?_fresh {a : Arena} (h : a.WellFormed) {known : Nat → Bool} {root : Int}
    {order : List Int} (horder : a.reach? known root = some order) :
    order.Nodup ∧ ∀ i ∈ order, i = root ∨ ∃ j : Nat, i = j ∧ known j = false := by
  unfold reach? at horder
  split at horder
  · cases horder
  · rename_i node hnode
    split at horder
    · rename_i hpos
      cases horder
      refine ⟨ofNat_nodup (reached_ascending _ _ _), ?_⟩
      intro i hi
      obtain ⟨j, hj, rfl⟩ := List.mem_map.mp hi
      obtain ⟨r, hr, hreach⟩ := (mem_reached (h.openOperands_lt known) (by simp) j).mp hj
      rw [List.mem_singleton.mp hr] at hreach
      rcases eq_or_unknown hreach with rfl | hunknown
      · exact Or.inl (Int.toNat_of_nonneg hpos)
      · exact Or.inr ⟨j, rfl, hunknown⟩
    · rename_i hneg
      cases horder
      refine ⟨List.nodup_cons.mpr ⟨?_, ofNat_nodup (reached_ascending _ _ _)⟩, ?_⟩
      · intro hmem
        obtain ⟨j, _, hj⟩ := List.mem_map.mp hmem
        exact hneg (hj ▸ Int.natCast_nonneg j)
      · intro i hi
        rcases List.mem_cons.mp hi with rfl | hi
        · exact Or.inl rfl
        · obtain ⟨j, hj, rfl⟩ := List.mem_map.mp hi
          have hbound : ∀ r ∈ node.operands.filter fun c => !known c, r < a.size := by
            intro r hr
            have hmem := (List.mem_filter.mp hr).1
            obtain ⟨k, hk⟩ := at?_eq_node? hnode
            exact Nat.lt_trans (h k node hk r hmem) (lt_size_of_node? hk)
          obtain ⟨r, hr, hreach⟩ := (mem_reached (h.openOperands_lt known) hbound j).mp hj
          refine Or.inr ⟨j, rfl, ?_⟩
          rcases eq_or_unknown hreach with rfl | hunknown
          · simpa using (List.mem_filter.mp hr).2
          · exact hunknown

/-- What a node reaches through operands that are not known, ascending. -/
theorem reach?_spec {a : Arena} (h : a.WellFormed) (known : Nat → Bool) {root : Nat}
    (hroot : root < a.size) :
    ∃ order : List Nat, a.reach? known root = some (order.map Int.ofNat) ∧
      order.Pairwise (· < ·) ∧ ∀ i, i ∈ order ↔ Reaches (a.openOperands known) root i := by
  have hn : a.node? root = some a.nodes[root] := Array.getElem?_eq_getElem hroot
  refine ⟨reached (a.openOperands known) (root + 1) [root], ?_, reached_ascending _ _ _, ?_⟩
  · simp [reach?, hn]
  · intro i
    rw [mem_reached (h.openOperands_lt known) (by simp)]
    simp

/-- The order of a node: ascending, and exactly what its operands lead to. -/
theorem toposort?_spec {a : Arena} (h : a.WellFormed) {i : Nat} {n : Node}
    (hn : a.node? i = some n) :
    ∃ order : List Nat, a.toposort? i = some (order.map Int.ofNat) ∧ order.Pairwise (· < ·) ∧
      ∀ j, j ∈ order ↔ Reaches a.operands i j := by
  refine ⟨_, toposort?_ofNat hn, reached_ascending _ _ _, fun j => ?_⟩
  rw [mem_reached (fun i c hc => h.operand_lt hc) (by simp)]
  simp

/-- The order of a handle, also one that counts from the end: it is the handle and what the operands
of its node lead to. -/
theorem toposort?_handle {a : Arena} (h : a.WellFormed) {root : Int} {n : Node}
    (hn : a.at? root = some n) :
    ∃ order, a.toposort? root = some order ∧ order.Nodup ∧ ∀ i, i ∈ order ↔
      i = root ∨ ∃ c ∈ n.operands, ∃ j : Nat, i = j ∧ Reaches a.operands c j := by
  have hopen : a.openOperands (fun _ => false) = a.operands := by
    funext i
    simp [openOperands]
  have hdescends : ∀ i, ∀ c ∈ a.operands i, c < i := fun i c hc => h.operand_lt hc
  obtain ⟨k, hk⟩ := at?_eq_node? hn
  have hbound : ∀ c ∈ n.operands, c < a.size := fun c hc =>
    Nat.lt_trans (h k n hk c hc) (lt_size_of_node? hk)
  obtain ⟨order, horder⟩ : ∃ order, a.toposort? root = some order := by
    rw [toposort?, reach?, hn]
    dsimp only
    split <;> exact ⟨_, rfl⟩
  refine ⟨order, horder, (reach?_fresh h horder).1, fun i => ?_⟩
  rw [toposort?, reach?, hn] at horder
  dsimp only at horder
  split at horder
  · rename_i hpos
    obtain ⟨j, rfl⟩ := Int.eq_ofNat_of_zero_le hpos
    rw [at?_ofNat] at hn
    cases horder
    have hmem : ∀ m, m ∈ reached a.operands (j + 1) [j] ↔ ∃ r ∈ [j], Reaches a.operands r m :=
      mem_reached hdescends (by simp)
    rw [hopen, Int.toNat_natCast, List.mem_map]
    simp only [hmem, List.mem_singleton, exists_eq_left, reaches_iff (i := j),
      operands_of_node? hn]
    constructor
    · rintro ⟨m, rfl | ⟨c, hc, hr⟩, rfl⟩
      · exact .inl rfl
      · exact .inr ⟨c, hc, m, rfl, hr⟩
    · rintro (rfl | ⟨c, hc, m, rfl, hr⟩)
      · exact ⟨j, .inl rfl, rfl⟩
      · exact ⟨m, .inr ⟨c, hc, hr⟩, rfl⟩
  · cases horder
    have hstart : (n.operands.filter fun c => !(fun _ => false) c) = n.operands := by simp
    rw [hopen, hstart, List.mem_cons, List.mem_map]
    refine or_congr_right ?_
    simp only [mem_reached hdescends hbound]
    constructor
    · rintro ⟨m, ⟨c, hc, hr⟩, rfl⟩
      exact ⟨c, hc, m, rfl, hr⟩
    · rintro ⟨c, hc, m, rfl, hr⟩
      exact ⟨m, ⟨c, hc, hr⟩, rfl⟩

/-- All that is in the order of a handle is there. -/
theorem at?_isSome_of_toposort? {a : Arena} (h : a.WellFormed) {root : Int} {order : List Int}
    (horder : a.toposort? root = some order) : ∀ i ∈ order, (a.at? i).isSome := by
  intro i hi
  cases hn : a.at? root with
  | none => simp [toposort?, reach?, hn] at horder
  | some n =>
    obtain ⟨order', horder', -, hmem⟩ := toposort?_handle h hn
    rw [horder] at horder'
    cases horder'
    rcases (hmem i).mp hi with rfl | ⟨c, hc, j, rfl, hr⟩
    · rw [hn]
      rfl
    · obtain ⟨k, hk⟩ := at?_eq_node? hn
      have hle : j ≤ c := hr.le fun _ _ hc => h.operand_lt hc
      have hlt := Nat.lt_trans (h k n hk c hc) (lt_size_of_node? hk)
      rw [at?_ofNat]
      exact Option.isSome_iff_exists.mpr
        ⟨_, Array.getElem?_eq_getElem (Nat.lt_of_le_of_lt hle hlt)⟩

end Arena

end TensorGraph
