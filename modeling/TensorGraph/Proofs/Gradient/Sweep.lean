import TensorGraph.Proofs.Gradient.Liveness
import TensorGraph.Proofs.Gradient.Meeting

/-!
# The sweep of a pass

The nodes below the output are met from the top down. Something waits at every live node when its
turn comes, for one of its users was met before. As long as a live node has not been met, what flows
along its tangent is what the pass is to give to it; when it is met, all of that waits at it.
-/

namespace TensorGraph

/-- What a pass is carried out on. -/
structure Plan where
  arena : Arena
  /-- What earlier passes left. -/
  grads : Table Int Int
  output : Nat
  seed : Int
  asked : Nat → Prop

namespace Plan

variable (π : Plan)

def Reached (n : Nat) : Prop := Reaches π.arena.operands π.output n

def Live (n : Nat) : Prop := π.arena.Live π.asked π.output n

/-- Seed and output have one shape, and the entries of the table have the shapes of their nodes. -/
structure Ready (sh : Shape) : Prop where
  regular : π.arena.Regular
  output : π.arena.Has sh (π.output : Int)
  seed : π.arena.Has sh π.seed
  entries : ∀ (n : Nat) (node : Node) (g : Int), π.arena.node? n = some node →
    π.grads.get? n = some g → π.arena.Has node.shape g

/-- What the pass is to give to a node. -/
def gain {R : Type} [CommRing R] (F : Functions R) (ρ : Nat → R) (n : Nat) : R :=
  π.arena.value F ρ π.seed.toNat * π.arena.tangent F ρ n π.output

variable {π} {sh : Shape} {m n u : Nat}

theorem Ready.output_lt (h : π.Ready sh) : π.output < π.arena.size := by
  obtain ⟨k, node, hk, hnode, _⟩ := h.output
  rw [Int.natCast_inj.mp hk]
  exact Arena.lt_size_of_node? hnode

theorem Ready.operand_lt (h : π.Ready sh) {c : Nat} (hc : c ∈ π.arena.operands n) : c < n :=
  h.regular.wellFormed.operand_lt hc

theorem Ready.le_output (h : π.Ready sh) (hn : π.Reached n) : n ≤ π.output :=
  hn.le fun _ _ hc => h.operand_lt hc

/-- All nodes below the output have its shape. -/
theorem Ready.exists_node (h : π.Ready sh) (hn : π.Reached n) :
    ∃ node, π.arena.node? n = some node ∧ node.shape = sh := by
  obtain ⟨k, node, hk, hnode, hshape⟩ := h.output
  rw [← Int.natCast_inj.mp hk] at hnode
  unfold Reached at hn
  generalize π.output = y at hn hnode
  induction hn generalizing node with
  | refl y => exact ⟨node, hnode, hshape⟩
  | step hc _ ih =>
    rw [Arena.operands_of_node? hnode] at hc
    obtain ⟨o, ho, hoshape⟩ := h.regular.uniform _ _ hnode _ hc
    exact ih o (hoshape.trans hshape) ho

theorem Live.reached (h : π.Live n) : π.Reached n := h.1

theorem Live.of_operand {c : Nat} (hn : π.Reached n) (hc : c ∈ π.arena.operands n)
    (h : π.Live c) : π.Live n :=
  ⟨hn, h.2.of_operand hc⟩

theorem Reached.of_operand {c : Nat} (hn : π.Reached n) (hc : c ∈ π.arena.operands n) :
    π.Reached c := hn.trans (.step hc (.refl c))

/-- Where a live node is reached, the start is live. -/
theorem Live.of_reaches (hm : π.Reached m) (h : π.Live n) (hr : Reaches π.arena.operands m n) :
    π.Live m :=
  ⟨hm, h.2.of_reaches hr⟩

theorem Live.output (h : π.Live n) : π.Live π.output := h.of_reaches (.refl _) h.1

/-- A reached node is the output or an operand of a reached node. -/
theorem Reached.exists_user (h : π.Reached n) :
    n = π.output ∨ ∃ u, π.Reached u ∧ n ∈ π.arena.operands u := by
  simp only [Reached] at h ⊢
  generalize π.output = y at h ⊢
  induction h with
  | refl y => exact Or.inl rfl
  | step hc _ ih =>
    rename_i y c j _
    rcases ih with rfl | ⟨u, hu, hju⟩
    · exact Or.inr ⟨y, .refl y, hc⟩
    · exact Or.inr ⟨u, .step hc hu, hju⟩

/-! ### What is left to do -/

/-- Nodes that are left: reached, from the top down, and below all that were met. -/
structure Remaining (π : Plan) (todo : List Nat) : Prop where
  descending : todo.Pairwise fun m n => n < m
  reached : ∀ m ∈ todo, π.Reached m
  above : ∀ u, π.Reached u → u ∉ todo → ∀ m ∈ todo, m < u

theorem Remaining.tail {i : Nat} {rest : List Nat} (h : π.Remaining (i :: rest)) :
    π.Remaining rest := by
  obtain ⟨hhead, htail⟩ := List.pairwise_cons.mp h.descending
  refine ⟨htail, fun m hm => h.reached m (List.mem_cons_of_mem i hm), fun u hu hnot m hm => ?_⟩
  by_cases hui : u = i
  · rw [hui]
    exact hhead m hm
  · refine h.above u hu (fun hmem => ?_) m (List.mem_cons_of_mem i hm)
    rcases List.mem_cons.mp hmem with heq | hmem
    · exact hui heq
    · exact hnot hmem

theorem Remaining.lt_head {i : Nat} {rest : List Nat} (h : π.Remaining (i :: rest)) :
    ∀ m ∈ rest, m < i := (List.pairwise_cons.mp h.descending).1

/-- All that the output reaches, from the top down. -/
structure Schedule (π : Plan) (todo : List Nat) : Prop where
  descending : todo.Pairwise fun m n => n < m
  mem : ∀ m, m ∈ todo ↔ π.Reached m

theorem Schedule.remaining {todo : List Nat} (h : π.Schedule todo) : π.Remaining todo :=
  ⟨h.descending, fun m hm => (h.mem m).mp hm, fun u hu hnot => absurd ((h.mem u).mpr hu) hnot⟩

/-- The operands of the next node are left. -/
theorem Remaining.operand {i c : Nat} {rest : List Nat} (h : π.Remaining (i :: rest))
    (hready : π.Ready sh) (hc : c ∈ π.arena.operands i) : c ∈ rest := by
  have hlt := hready.operand_lt hc
  have hi := h.reached i (List.mem_cons_self ..)
  by_contra hnot
  have hnot' : c ∉ i :: rest := by
    intro hmem
    rcases List.mem_cons.mp hmem with heq | hmem
    · omega
    · exact hnot hmem
  have := h.above c (hi.of_operand hc) hnot' i (List.mem_cons_self ..)
  omega

end Plan

/-! ### One step -/

/-- A pass under way, with nodes left to be met. -/
structure Sweeping {R : Type} [CommRing R] (F : Functions R) (ρ : Nat → R) (π : Plan) (sh : Shape)
    (todo : List Nat) (s : Pass) : Prop where
  kept : π.arena.Extends s.arena
  valid : s.Valid sh
  /-- Something waits only at nodes that are left, and but for the output at live ones. -/
  waiting : ∀ m, s.waiting m ≠ [] → m ∈ todo ∧ (π.Live m ∨ m = π.output)
  /-- Something waits at a live node one of whose users was met. -/
  arrived : ∀ m ∈ todo, π.Live m →
    (m = π.output ∨ ∃ u, π.Reached u ∧ u ∉ todo ∧ m ∈ π.arena.operands u) → s.waiting m ≠ []
  flow : ∀ n ∈ todo, π.Live n →
    s.flow F ρ (π.output + 1) (π.arena.tangent F ρ n) = π.gain F ρ n
  settled : ∀ n, π.Live n → n ∉ todo → ∃ g, s.grads.get? n = some g ∧
    s.arena.Denotes F ρ sh g (π.arena.gradient F ρ π.grads n + π.gain F ρ n)
  untouched : ∀ i : Int, (∀ n : Nat, i = n → n ∈ todo ∨ ¬π.Live n) →
    s.grads.get? i = π.grads.get? i
  found : ∀ (i g : Int), (i, g) ∈ s.found.toList ↔
    ∃ n : Nat, i = n ∧ n ∉ todo ∧ π.Live n ∧ π.arena.isParam n = true ∧ s.grads.get? i = some g
  descending : s.found.toList.Pairwise fun x y => y.1 < x.1

namespace Sweeping

variable {R : Type} [CommRing R] {F : Functions R} {ρ : Nat → R} {π : Plan} {sh : Shape} {i : Nat}
  {rest : List Nat} {s : Pass} {live : Std.HashSet Int}

theorem untouched_head (h : Sweeping F ρ π sh (i :: rest) s) :
    s.grads.get? i = π.grads.get? i :=
  h.untouched i fun _ hn => Or.inl (by rw [← Int.natCast_inj.mp hn]; exact List.mem_cons_self ..)

theorem untouched_rest (h : Sweeping F ρ π sh (i :: rest) s) {j : Int}
    (hj : ∀ n : Nat, j = n → n ∈ rest ∨ ¬π.Live n) : s.grads.get? j = π.grads.get? j := by
  apply h.untouched j
  intro n hn
  rcases hj n hn with hmem | hdead
  · exact Or.inl (List.mem_cons_of_mem i hmem)
  · exact Or.inr hdead

/-- The entry of the next node still has the value that earlier passes left. -/
theorem gradient_eq (h : Sweeping F ρ π sh (i :: rest) s) (hready : π.Ready sh) {node : Node}
    (hnode : π.arena.node? i = some node) :
    s.arena.gradient F ρ s.grads i = π.arena.gradient F ρ π.grads i := by
  have hsame : s.arena.gradient F ρ s.grads i = s.arena.gradient F ρ π.grads i := by
    simp only [Arena.gradient, h.untouched_head]
  rw [hsame]
  exact Arena.gradient_of_extends hready.regular h.valid.regular h.kept fun g hg =>
    ⟨node.shape, hready.entries i node g hnode hg⟩

/-- All that flows along the tangent of the next node waits at it. -/
theorem weight_eq (h : Sweeping F ρ π sh (i :: rest) s) (hready : π.Ready sh)
    (htodo : π.Remaining (i :: rest)) (hi : π.Live i) : s.weight F ρ i = π.gain F ρ i := by
  rw [← h.flow i (List.mem_cons_self ..) hi, Pass.flow, Finset.sum_eq_single i]
  · rw [Arena.tangent_self, mul_one]
  · intro m _ hm
    by_cases hlt : m < i
    · have hr : ¬Reaches π.arena.operands m i := by
        intro hr
        have := hr.le fun _ _ hc => hready.operand_lt hc
        omega
      rw [Arena.tangent_of_not_reaches hready.regular.wellFormed hr, mul_zero]
    · have hnone : s.waiting m = [] := by
        by_contra hwait
        rcases List.mem_cons.mp (h.waiting m hwait).1 with heq | hmem
        · exact hm heq
        · exact hlt (htodo.lt_head m hmem)
      rw [Pass.weight, hnone, Arena.total, List.map_nil, List.sum_nil, zero_mul]
  · intro hnot
    have := hready.le_output hi.reached
    simp only [Finset.mem_range] at hnot
    omega

/-! ### A node that is not live -/

section Skip

variable (hi : ¬π.Live i)

include hi

theorem mem_cons_iff_of_live {n : Nat} (hn : π.Live n) : n ∈ i :: rest ↔ n ∈ rest := by
  have hne : n ≠ i := by
    rintro rfl
    exact hi hn
  rw [List.mem_cons, or_iff_right hne]

/-- Nothing waits at it, for it is not the output either. -/
theorem waiting_eq_nil (h : Sweeping F ρ π sh (i :: rest) s) {n : Nat} (hn : π.Live n) :
    s.waiting i = [] := by
  by_contra hwait
  rcases (h.waiting i hwait).2 with hlive | rfl
  · exact hi hlive
  · exact hi hn.output

omit hi in
theorem waiting_skip (h : Sweeping F ρ π sh (i :: rest) s) {m : Nat}
    (hm : Pass.waiting { s with pending := s.pending.erase (i : Int) } m ≠ []) :
    m ∈ rest ∧ (π.Live m ∨ m = π.output) := by
  rw [Pass.waiting_take] at hm
  split at hm
  · exact absurd rfl hm
  · rename_i hmi
    obtain ⟨hmem, hcase⟩ := h.waiting m hm
    exact ⟨List.mem_of_ne_of_mem hmi hmem, hcase⟩

theorem arrived_skip (h : Sweeping F ρ π sh (i :: rest) s) {m : Nat} (hm : m ∈ rest)
    (hlive : π.Live m)
    (hcase : m = π.output ∨ ∃ u, π.Reached u ∧ u ∉ rest ∧ m ∈ π.arena.operands u) :
    Pass.waiting { s with pending := s.pending.erase (i : Int) } m ≠ [] := by
  have hmi : m ≠ i := by
    rintro rfl
    exact hi hlive
  rw [Pass.waiting_take, if_neg hmi]
  refine h.arrived m (List.mem_cons_of_mem i hm) hlive ?_
  rcases hcase with heq | ⟨u, hu, hur, hmu⟩
  · exact Or.inl heq
  · exact Or.inr ⟨u, hu, (mem_cons_iff_of_live hi (hlive.of_operand hu hmu)).not.mpr hur, hmu⟩

theorem flow_skip (h : Sweeping F ρ π sh (i :: rest) s) (hready : π.Ready sh)
    (hreached : π.Reached i) {n : Nat} (hn : n ∈ rest) (hlive : π.Live n) :
    Pass.flow F ρ { s with pending := s.pending.erase (i : Int) } (π.output + 1)
      (π.arena.tangent F ρ n) = π.gain F ρ n := by
  have hbound : i < π.output + 1 := Nat.lt_succ_of_le (hready.le_output hreached)
  rw [Pass.flow_take hbound, ← h.flow n (List.mem_cons_of_mem i hn) hlive, Pass.weight,
    waiting_eq_nil hi h hlive, Arena.total, List.map_nil, List.sum_nil, zero_mul, sub_zero]

theorem found_skip (h : Sweeping F ρ π sh (i :: rest) s) (j g : Int) :
    (j, g) ∈ s.found.toList ↔ ∃ n : Nat, j = n ∧ n ∉ rest ∧ π.Live n ∧
      π.arena.isParam n = true ∧ s.grads.get? j = some g := by
  rw [h.found]
  refine exists_congr fun n => and_congr_right fun _ => ?_
  constructor
  · rintro ⟨hnr, hlive, hrest⟩
    exact ⟨(mem_cons_iff_of_live hi hlive).not.mp hnr, hlive, hrest⟩
  · rintro ⟨hnr, hlive, hrest⟩
    exact ⟨(mem_cons_iff_of_live hi hlive).not.mpr hnr, hlive, hrest⟩

/-- A node that is not live is passed over. -/
theorem skip (h : Sweeping F ρ π sh (i :: rest) s) (hready : π.Ready sh)
    (htodo : π.Remaining (i :: rest)) :
    Sweeping F ρ π sh rest { s with pending := s.pending.erase (i : Int) } where
  kept := h.kept
  valid := h.valid.take i
  waiting _ hm := h.waiting_skip hm
  arrived _ hm hlive hcase := arrived_skip hi h hm hlive hcase
  flow _ hn hlive :=
    flow_skip hi h hready (htodo.reached i (List.mem_cons_self ..)) hn hlive
  settled n hn hnr := h.settled n hn ((mem_cons_iff_of_live hi hn).not.mpr hnr)
  untouched _ hj := h.untouched_rest hj
  found j g := found_skip hi h j g
  descending := h.descending

end Skip

theorem get?_insert_self (t : Table Int Int) (i k : Int) : (t.insert i k).get? i = some k := by
  rw [Table.get?_insert, if_pos (beq_self_eq_true i)]

theorem get?_insert_of_ne (t : Table Int Int) {i j : Int} (k : Int) (h : i ≠ j) :
    (t.insert i k).get? j = t.get? j := by
  rw [Table.get?_insert, if_neg (by simpa using h)]

/-! ### A live node that is met -/

section Met

variable {node : Node} {k : Int} {t : Pass}

/-- Meeting a node writes its own entry only. -/
theorem grads_met (hmet : Pass.Met F ρ sh live i node k s t) {j : Int} (hj : (i : Int) ≠ j) :
    t.grads.get? j = s.grads.get? j := by
  rw [hmet.grads, get?_insert_of_ne _ _ hj]

theorem entry_met (hmet : Pass.Met F ρ sh live i node k s t) : t.grads.get? i = some k := by
  rw [hmet.grads, get?_insert_self]

/-- What other nodes are found with stays. -/
theorem found_met_of_ne (hmet : Pass.Met F ρ sh live i node k s t) {n : Nat} (hni : n ≠ i)
    {g : Int} : (n ∉ rest ∧ π.Live n ∧ π.arena.isParam n = true ∧ t.grads.get? n = some g) ↔
      (n ∉ i :: rest ∧ π.Live n ∧ π.arena.isParam n = true ∧ s.grads.get? n = some g) := by
  rw [grads_met hmet (by simpa using Ne.symm hni), List.mem_cons, not_or, and_iff_right hni]

/-- Something waits where it did, and at the live operands of the node. -/
theorem waiting_met (h : Sweeping F ρ π sh (i :: rest) s) (hready : π.Ready sh)
    (htodo : π.Remaining (i :: rest)) (hlive : ∀ j : Nat, (j : Int) ∈ live ↔ π.Live j)
    (hnode : π.arena.node? i = some node) (hmet : Pass.Met F ρ sh live i node k s t) {m : Nat}
    (hm : t.waiting m ≠ []) : m ∈ rest ∧ (π.Live m ∨ m = π.output) := by
  rw [ne_eq, hmet.waiting, not_or, not_and_or] at hm
  obtain ⟨hmi, hcase⟩ := hm
  rcases hcase with hwait | hsent
  · obtain ⟨hmt, hml⟩ := h.waiting m hwait
    exact ⟨List.mem_of_ne_of_mem hmi hmt, hml⟩
  · rw [Classical.not_imp, not_not] at hsent
    have hmo : m ∈ π.arena.operands i := by
      rw [Arena.operands_of_node? hnode]
      exact hsent.2
    exact ⟨htodo.operand hready hmo, Or.inl ((hlive m).mp hsent.1)⟩

theorem arrived_met (h : Sweeping F ρ π sh (i :: rest) s) (htodo : π.Remaining (i :: rest))
    (hlive : ∀ j : Nat, (j : Int) ∈ live ↔ π.Live j) (hnode : π.arena.node? i = some node)
    (hmet : Pass.Met F ρ sh live i node k s t) {m : Nat} (hm : m ∈ rest) (hml : π.Live m)
    (hcase : m = π.output ∨ ∃ u, π.Reached u ∧ u ∉ rest ∧ m ∈ π.arena.operands u) :
    t.waiting m ≠ [] := by
  have hmi : m ≠ i := Nat.ne_of_lt (htodo.lt_head m hm)
  rw [ne_eq, hmet.waiting, not_or, not_and_or]
  refine ⟨hmi, ?_⟩
  by_cases hmo : m ∈ node.operands
  · exact Or.inr fun hnot => hnot ((hlive m).mpr hml) hmo
  · refine Or.inl (h.arrived m (List.mem_cons_of_mem i hm) hml ?_)
    rcases hcase with heq | ⟨u, hu, hur, hmu⟩
    · exact Or.inl heq
    · refine Or.inr ⟨u, hu, fun hut => hmo ?_, hmu⟩
      -- a user that was left until now is the node that is met
      obtain rfl : u = i := by
        by_contra hne
        exact hur (List.mem_of_ne_of_mem hne hut)
      rw [Arena.operands_of_node? hnode] at hmu
      exact hmu

/-- What flows along the tangent of a node that is left does not change when another is met. -/
theorem flow_met (h : Sweeping F ρ π sh (i :: rest) s) (hready : π.Ready sh)
    (htodo : π.Remaining (i :: rest)) (hlive : ∀ j : Nat, (j : Int) ∈ live ↔ π.Live j)
    (hnode : π.arena.node? i = some node) (hmet : Pass.Met F ρ sh live i node k s t) {n : Nat}
    (hn : n ∈ rest) (hnlive : π.Live n) :
    t.flow F ρ (π.output + 1) (π.arena.tangent F ρ n) = π.gain F ρ n := by
  have hreached := htodo.reached i (List.mem_cons_self ..)
  have hbound : i < π.output + 1 := Nat.lt_succ_of_le (hready.le_output hreached)
  have hwell := hready.regular.wellFormed
  have hne : i ≠ n := Nat.ne_of_gt (htodo.lt_head n hn)
  -- an operand that is not live does not lead to a live node
  have hdead : ∀ c ∈ node.operands, (c : Int) ∉ live → π.arena.tangent F ρ n c = 0 := by
    intro c hc hcl
    rw [← Arena.operands_of_node? hnode] at hc
    refine Arena.tangent_of_not_reaches hwell fun hr => hcl ((hlive c).mpr ?_)
    exact hnlive.of_reaches (hreached.of_operand hc) hr
  have htangent : π.arena.tangent F ρ n i =
      node.form.tangent F (s.arena.value F ρ) (π.arena.tangent F ρ n) := by
    rw [Arena.tangent_node hwell hnode hne]
    refine Form.tangent_congr (fun c hc => ?_) fun _ _ => rfl
    obtain ⟨o, ho⟩ := Arena.exists_node? (Nat.lt_trans (hwell i node hnode c hc)
      (Arena.lt_size_of_node? hnode))
    exact (Arena.value_of_extends hwell h.valid.regular.wellFormed h.kept ho).symm
  rw [hmet.flow _ _ hbound hdead, htangent, sub_add_cancel]
  exact h.flow n (List.mem_cons_of_mem i hn) hnlive

theorem settled_met (h : Sweeping F ρ π sh (i :: rest) s) (hready : π.Ready sh)
    (htodo : π.Remaining (i :: rest)) (hi : π.Live i) (hnode : π.arena.node? i = some node)
    (hmet : Pass.Met F ρ sh live i node k s t) {n : Nat} (hn : π.Live n) (hnr : n ∉ rest) :
    ∃ g, t.grads.get? n = some g ∧
      t.arena.Denotes F ρ sh g (π.arena.gradient F ρ π.grads n + π.gain F ρ n) := by
  by_cases hni : n = i
  · subst hni
    refine ⟨k, entry_met hmet, ?_⟩
    rw [← h.gradient_eq hready hnode, ← h.weight_eq hready htodo hi]
    exact hmet.entry
  · obtain ⟨g, hg, hdenotes⟩ := h.settled n hn fun hmt => hnr (List.mem_of_ne_of_mem hni hmt)
    refine ⟨g, ?_, hdenotes.of_extends h.valid.regular hmet.valid.regular hmet.kept⟩
    rw [grads_met hmet (by simpa using Ne.symm hni), hg]

theorem untouched_met (h : Sweeping F ρ π sh (i :: rest) s) (htodo : π.Remaining (i :: rest))
    (hi : π.Live i) (hmet : Pass.Met F ρ sh live i node k s t) {j : Int}
    (hj : ∀ n : Nat, j = n → n ∈ rest ∨ ¬π.Live n) : t.grads.get? j = π.grads.get? j := by
  have hij : (i : Int) ≠ j := by
    rintro rfl
    rcases hj i rfl with hir | hdead
    · exact Nat.lt_irrefl i (htodo.lt_head i hir)
    · exact hdead hi
  rw [grads_met hmet hij]
  exact h.untouched_rest hj

theorem found_met (h : Sweeping F ρ π sh (i :: rest) s) (htodo : π.Remaining (i :: rest))
    (hi : π.Live i) (hnode : π.arena.node? i = some node)
    (hmet : Pass.Met F ρ sh live i node k s t) (j g : Int) :
    (j, g) ∈ t.found.toList ↔ ∃ n : Nat, j = n ∧ n ∉ rest ∧ π.Live n ∧
      π.arena.isParam n = true ∧ t.grads.get? j = some g := by
  have hirest : i ∉ rest := fun hir => Nat.lt_irrefl i (htodo.lt_head i hir)
  rw [hmet.found]
  by_cases hparam : node.kind = .param
  · rw [if_pos hparam, Array.toList_push, List.mem_append, List.mem_singleton, Prod.mk.injEq,
      h.found]
    constructor
    · rintro (⟨n, rfl, hfound⟩ | ⟨rfl, rfl⟩)
      · have hni : n ≠ i := fun heq => hfound.1 (heq ▸ List.mem_cons_self ..)
        exact ⟨n, rfl, (found_met_of_ne hmet hni).mpr hfound⟩
      · exact ⟨i, rfl, hirest, hi, (Arena.isParam_ofNat hnode).mpr hparam, entry_met hmet⟩
    · rintro ⟨n, rfl, hfound⟩
      by_cases hni : n = i
      · subst hni
        have hg := hfound.2.2.2
        rw [entry_met hmet] at hg
        exact Or.inr ⟨rfl, (Option.some.inj hg).symm⟩
      · exact Or.inl ⟨n, rfl, (found_met_of_ne hmet hni).mp hfound⟩
  · rw [if_neg hparam, h.found]
    have hni : ∀ {n : Nat}, π.arena.isParam n = true → n ≠ i := fun hnp heq =>
      hparam ((Arena.isParam_ofNat hnode).mp (heq ▸ hnp))
    constructor
    · rintro ⟨n, rfl, hfound⟩
      exact ⟨n, rfl, (found_met_of_ne hmet (hni hfound.2.2.1)).mpr hfound⟩
    · rintro ⟨n, rfl, hfound⟩
      exact ⟨n, rfl, (found_met_of_ne hmet (hni hfound.2.2.1)).mp hfound⟩

theorem descending_met (h : Sweeping F ρ π sh (i :: rest) s) (htodo : π.Remaining (i :: rest))
    (hmet : Pass.Met F ρ sh live i node k s t) : t.found.toList.Pairwise fun x y => y.1 < x.1 := by
  rw [hmet.found]
  split
  · rw [Array.toList_push, List.pairwise_append]
    refine ⟨h.descending, List.pairwise_singleton _ _, fun x hx y hy => ?_⟩
    rw [List.mem_singleton.mp hy]
    obtain ⟨n, hn, hnt, hnl, -, -⟩ := (h.found x.1 x.2).mp hx
    have := htodo.above n hnl.reached hnt i (List.mem_cons_self ..)
    rw [hn]
    exact Int.ofNat_lt.mpr this
  · exact h.descending

/-- A live node is met. -/
theorem met (h : Sweeping F ρ π sh (i :: rest) s) (hready : π.Ready sh)
    (htodo : π.Remaining (i :: rest)) (hlive : ∀ j : Nat, (j : Int) ∈ live ↔ π.Live j)
    (hi : π.Live i) (hnode : π.arena.node? i = some node)
    (hmet : Pass.Met F ρ sh live i node k s t) : Sweeping F ρ π sh rest t where
  kept := h.kept.trans hmet.kept
  valid := hmet.valid
  waiting _ hm := h.waiting_met hready htodo hlive hnode hmet hm
  arrived _ hm hml hcase := h.arrived_met htodo hlive hnode hmet hm hml hcase
  flow _ hn hnl := h.flow_met hready htodo hlive hnode hmet hn hnl
  settled _ hn hnr := h.settled_met hready htodo hi hnode hmet hn hnr
  untouched _ hj := h.untouched_met htodo hi hmet hj
  found := h.found_met htodo hi hnode hmet
  descending := h.descending_met htodo hmet

end Met

/-- Something waits at a live node when its turn comes. -/
theorem waiting_ne_nil (h : Sweeping F ρ π sh (i :: rest) s) (hready : π.Ready sh)
    (htodo : π.Remaining (i :: rest)) (hi : π.Live i) : s.waiting i ≠ [] := by
  refine h.arrived i (List.mem_cons_self ..) hi ?_
  rcases hi.reached.exists_user with heq | ⟨u, hu, hiu⟩
  · exact Or.inl heq
  · refine Or.inr ⟨u, hu, fun hut => ?_, hiu⟩
    have hlt := hready.operand_lt hiu
    rcases List.mem_cons.mp hut with heq | hur
    · omega
    · have := htodo.lt_head u hur
      omega

/-- Each step of the sweep succeeds and leaves one node less. -/
theorem step (h : Sweeping F ρ π sh (i :: rest) s) (hready : π.Ready sh)
    (htodo : π.Remaining (i :: rest)) (hlive : ∀ j : Nat, (j : Int) ∈ live ↔ π.Live j) :
    ∃ t, Pass.meet live i s = .ok () t ∧ Sweeping F ρ π sh rest t := by
  obtain ⟨node, hnode, hshape⟩ := hready.exists_node (htodo.reached i (List.mem_cons_self ..))
  by_cases hi : π.Live i
  · have hwait := h.waiting_ne_nil hready htodo hi
    have hold : ∀ old, s.grads.get? i = some old → s.arena.Has sh old := by
      intro old hget
      rw [h.untouched_head] at hget
      exact hshape ▸ (hready.entries i node old hnode hget).of_extends h.kept
    obtain ⟨t, k, hok, hmet⟩ : ∃ t k, _ ∧ Pass.Met F ρ sh live i node k s t :=
      h.valid.meet ((hlive i).mpr hi) hwait (h.kept i node hnode) hshape hold
    exact ⟨t, hok, h.met hready htodo hlive hi hnode hmet⟩
  · refine ⟨_, Pass.meet_skip (Or.inr fun hmem => hi ((hlive i).mp hmem)), ?_⟩
    exact skip hi h hready htodo

/-- The whole sweep succeeds and leaves no node. -/
theorem sweep {todo : List Nat} (h : Sweeping F ρ π sh todo s) (hready : π.Ready sh)
    (htodo : π.Remaining todo) (hlive : ∀ j : Nat, (j : Int) ∈ live ↔ π.Live j) :
    ∃ t, (todo.map Int.ofNat).forM (Pass.meet live) s = .ok () t ∧ Sweeping F ρ π sh [] t := by
  induction todo generalizing s with
  | nil => exact ⟨s, rfl, h⟩
  | cons i rest ih =>
    obtain ⟨t, hok, ht⟩ := h.step hready htodo hlive
    obtain ⟨u, hrest, hu⟩ := ih ht htodo.tail
    exact ⟨u, (forM_cons_of_ok (g := Pass.meet live) hok).trans hrest, hu⟩

end Sweeping

end TensorGraph
