import TensorGraph.Proofs.Gradient.Backward
import TensorGraph.Proofs.Gradient.Shadow

/-!
# The size of gradients

What a pass appends is bounded by the edges it goes along, however many paths they make. To a live
operand goes one contribution, for which at most three nodes are built, and a fourth one adds it to
the others when all have come. So a contribution that waits is counted like a node.
-/

namespace TensorGraph

/-! ### Actions that raise a measure -/

/-- A measure of the state rises by no more than a number. -/
def Raises {σ : Type} (μ : σ → Nat) (n : Nat) (s t : σ) : Prop := μ t ≤ μ s + n

namespace Raises

variable {ε σ α β : Type} {μ : σ → Nat} {m n : Nat}

instance : IsPreorder σ (Raises μ 0) where
  refl s := Nat.le_refl (μ s)
  trans _ _ _ hst htu := Nat.le_trans htu hst

theorem mono {x : EStateM ε σ α} (h : Keeps (Raises μ m) x) (hmn : m ≤ n) : Keeps (Raises μ n) x :=
  fun s => Nat.le_trans (h s) (Nat.add_le_add_left hmn _)

theorem pure (v : α) : Keeps (Raises μ n) (Pure.pure v : EStateM ε σ α) :=
  mono (Keeps.pure v) (Nat.zero_le n)

/-- What two steps raise adds up. -/
theorem bind {x : EStateM ε σ α} {f : α → EStateM ε σ β} (hx : Keeps (Raises μ m) x)
    (hf : ∀ v, Keeps (Raises μ n) (f v)) : Keeps (Raises μ (m + n)) (x >>= f) := by
  intro s
  cases hr : x s with
  | error e t =>
    rw [bind_of_error hr]
    exact Nat.le_trans (hx.of_error hr) (by omega)
  | ok v t =>
    rw [bind_of_ok hr]
    have hfirst : μ t ≤ μ s + m := hx.of_ok hr
    have hlast : μ (stateAfter (f v t)) ≤ μ t + n := hf v t
    exact Nat.le_trans hlast (by omega)

/-- A step that raises nothing costs nothing. -/
theorem free_bind {x : EStateM ε σ α} {f : α → EStateM ε σ β} (hx : Keeps (Raises μ 0) x)
    (hf : ∀ v, Keeps (Raises μ n) (f v)) : Keeps (Raises μ n) (x >>= f) := by
  have hboth := bind hx hf
  rwa [Nat.zero_add] at hboth

theorem forM {f : α → EStateM ε σ Unit} {cost : α → Nat} (xs : List α)
    (hf : ∀ x ∈ xs, Keeps (Raises μ (cost x)) (f x)) :
    Keeps (Raises μ (xs.map cost).sum) (xs.forM f) := by
  induction xs with
  | nil => exact pure ()
  | cons x xs ih =>
    have hx := hf x (List.mem_cons_self ..)
    have hxs := ih fun y hy => hf y (List.mem_cons_of_mem x hy)
    rw [List.map_cons, List.sum_cons]
    exact bind hx fun _ => hxs

theorem foldlM {f : β → α → EStateM ε σ β} (xs : List α) (hf : ∀ b x, Keeps (Raises μ n) (f b x))
    (b : β) : Keeps (Raises μ (n * xs.length)) (xs.foldlM f b) := by
  induction xs generalizing b with
  | nil => exact pure b
  | cons x xs ih =>
    rw [List.foldlM_cons, List.length_cons, Nat.mul_succ, Nat.add_comm]
    exact bind (hf b x) ih

end Raises

/-! ### Building -/

/-- The number of nodes that a recipe appends. -/
def Recipe.nodes : Recipe → Nat
  | .gradient | .node | .operand _ => 0
  | .neg r | .zeroLike r => r.nodes + 1
  | .mul r s => r.nodes + s.nodes + 1
  | .div r s => r.nodes + s.nodes + 2

/-- The reciprocal has the longest recipe. -/
theorem Form.nodes_le_three {form : Form} {rule : Nat × Recipe} (h : rule ∈ form.rules) :
    rule.2.nodes ≤ 3 := by
  cases form with
  | leaf k => cases h
  | unary k x => cases k <;> rw [List.mem_singleton.mp h] <;> simp [Recipe.nodes]
  | binary k l r =>
    cases k <;> simp only [rules, List.mem_cons, List.not_mem_nil, or_false] at h <;>
      rcases h with rfl | rfl <;> simp [Recipe.nodes]

namespace Arena

theorem nodeAt_raises (i : Int) : Keeps (Raises size 0) (nodeAt i) := by
  intro a
  rw [nodeAt]
  split <;> exact Std.Refl.refl a

theorem add_raises (kind : Kind) (operands : List Int) (shape : Value) (name : Option String) :
    Keeps (Raises size 1) (add kind operands shape name) := by
  intro a
  simp only [add]
  split
  · exact Nat.le_of_eq (size_push ..)
  · exact Nat.le_succ a.size

theorem unary_raises (k : Unary) (x : Int) : Keeps (Raises size 1) (unary k x) :=
  Raises.free_bind (nodeAt_raises x) fun _ => add_raises _ _ _ _

theorem binary_raises (k : Binary) (l r : Int) : Keeps (Raises size 1) (binary k l r) := by
  refine Raises.free_bind (nodeAt_raises l) fun left => ?_
  refine Raises.free_bind (nodeAt_raises r) fun right => ?_
  split
  · exact fun a => Nat.le_succ a.size
  · exact add_raises _ _ _ _

theorem div_raises (l r : Int) : Keeps (Raises size 2) (div l r) :=
  Raises.bind (unary_raises .reciprocal r) fun inverse => binary_raises .mul l inverse

theorem zeroLike_raises (x : Int) : Keeps (Raises size 1) (zeroLike x) :=
  Raises.free_bind (nodeAt_raises x) fun _ => add_raises _ _ _ _

theorem carryOut_raises (g i : Int) (operand : Nat → Int) (r : Recipe) :
    Keeps (Raises size r.nodes) (r.carryOut algebra g i operand) := by
  induction r with
  | gradient => exact Raises.pure g
  | node => exact Raises.pure i
  | operand x => exact Raises.pure (operand x)
  | neg r ih => exact Raises.bind ih fun x => handle_keeps (unary_raises .neg x)
  | zeroLike r ih => exact Raises.bind ih fun x => handle_keeps (zeroLike_raises x)
  | mul r s ihr ihs =>
    rw [Recipe.nodes, Nat.add_assoc]
    exact Raises.bind ihr fun x => Raises.bind ihs fun y => handle_keeps (binary_raises .mul x y)
  | div r s ihr ihs =>
    rw [Recipe.nodes, Nat.add_assoc]
    exact Raises.bind ihr fun x => Raises.bind ihs fun y => handle_keeps (div_raises x y)

/-- To add contributions up takes one node less than there are contributions. -/
theorem sum_raises (gs : List Int) : Keeps (Raises size (gs.length - 1)) (sum gs) := by
  have hcheck : Keeps (Raises size 0) (gs.forM fun g => do let _ ← nodeAt g) :=
    Keeps.forM gs fun g _ => Keeps.bind (nodeAt_raises g) fun _ => Keeps.pure ()
  refine Raises.free_bind hcheck fun _ a => ?_
  simp only [accumulate]
  cases hfilter : gs.filter fun g => !a.isZero g with
  | cons g rest =>
    have hlength : rest.length + 1 ≤ gs.length := by
      rw [← List.length_cons (a := g), ← hfilter]
      exact List.length_filter_le ..
    have hfold := Raises.foldlM rest
      (fun x y => handle_keeps (R := Raises size 1) (binary_raises .add x y)) g
    exact Raises.mono hfold (by omega) a
  | nil =>
    cases gs with
    | nil => exact Nat.le_add_right ..
    | cons g rest => exact Nat.le_add_right ..

theorem addTo_raises (old : Option Int) (g : Int) : Keeps (Raises size 1) (addTo old g) := by
  cases old with
  | none => exact Raises.pure g
  | some o => exact sum_raises [o, g]

end Arena

/-! ### Passes -/

namespace Pass

/-- The nodes that are there and the contributions that wait, each counted once. -/
def burden (bound : Nat) (s : Pass) : Nat :=
  s.arena.size + ∑ m ∈ Finset.range bound, (s.waiting m).length

variable {bound : Nat} {live : Std.HashSet Int} {i : Nat} {n : Node} {s t : Pass}

theorem size_le_burden (bound : Nat) (s : Pass) : s.arena.size ≤ s.burden bound :=
  Nat.le_add_right ..

theorem building_raises {α : Type} {x : Build α} {k : Nat} (h : Keeps (Raises Arena.size k) x) :
    Keeps (Raises (burden bound) k) (building x) := by
  intro s
  have hrises : ∀ b : Arena, Raises Arena.size k s.arena b →
      Raises (burden bound) k s { s with arena := b } := by
    intro b hb
    change b.size + _ ≤ s.arena.size + _ + k
    have : b.size ≤ s.arena.size + k := hb
    have : ∑ m ∈ Finset.range bound, (waiting { s with arena := b } m).length =
      ∑ m ∈ Finset.range bound, (s.waiting m).length := rfl
    omega
  obtain ⟨arena, grads, pending, found⟩ := s
  simp only [building]
  cases hx : x arena with
  | ok v b => exact hrises b (h.of_ok hx)
  | error e b => exact hrises b (h.of_error hx)

theorem send_raises (x : Nat) (g : Int) : Keeps (Raises (burden bound) 1) (send x g) := by
  intro s
  have hlength : ∀ m, (waiting { s with
      pending := s.pending.insert (x : Int) (g :: s.pending.getD x []) } m).length =
        (s.waiting m).length + if m = x then 1 else 0 := by
    intro m
    rw [waiting_send]
    split
    · rename_i hm
      rw [hm, List.length_cons]
    · rfl
  change s.arena.size + ∑ m ∈ Finset.range bound, (waiting { s with
    pending := s.pending.insert (x : Int) (g :: s.pending.getD x []) } m).length ≤ _
  rw [Finset.sum_congr rfl fun m _ => hlength m, Finset.sum_add_distrib, Finset.sum_ite_eq']
  have : (if x ∈ Finset.range bound then 1 else 0) ≤ 1 := by split <;> omega
  simp only [burden]
  omega

/-- Taking out what waits at a node lightens the burden by that much. -/
theorem burden_take (hi : i < bound) (s : Pass) :
    burden bound { s with pending := s.pending.erase (i : Int) } + (s.waiting i).length =
      s.burden bound := by
  have hlength : ∀ m, (s.waiting m).length = (waiting { s with
      pending := s.pending.erase (i : Int) } m).length +
        if m = i then (s.waiting i).length else 0 := by
    intro m
    rw [waiting_take]
    split
    · rename_i hm
      rw [hm, List.length_nil, Nat.zero_add]
    · rfl
  have hmem : i ∈ Finset.range bound := Finset.mem_range.mpr hi
  simp only [burden]
  rw [Finset.sum_congr rfl fun m _ => hlength m, Finset.sum_add_distrib, Finset.sum_ite_eq',
    if_pos hmem, Nat.add_assoc]

/-- For what is sent to a live target, at most three nodes are built; nothing else is. -/
theorem sendEach_raises {β : Type} (live : Std.HashSet Int) (target : β → Nat)
    {build : β → Build Int} (xs : List β)
    (hbuild : ∀ x ∈ xs, Keeps (Raises Arena.size 3) (build x)) :
    Keeps (Raises (burden bound) (4 * (xs.map target).countP fun x : Nat => (x : Int) ∈ live))
      (sendEach live target build xs) := by
  have hcost : ∀ xs : List β, 4 * (xs.map target).countP (fun x : Nat => (x : Int) ∈ live) =
      (xs.map fun x => if (target x : Int) ∈ live then 4 else 0).sum := by
    intro xs
    induction xs with
    | nil => rfl
    | cons x xs ih =>
      rw [List.map_cons, List.map_cons, List.sum_cons, List.countP_cons, Nat.mul_add, ih,
        Nat.add_comm]
      simp only [decide_eq_true_eq, mul_ite, mul_one, mul_zero]
  rw [hcost]
  refine Raises.forM xs fun x hx => ?_
  simp only [sendOne]
  split
  · exact Raises.bind (building_raises (hbuild x hx)) fun g => send_raises (target x) g
  · exact Raises.pure ()

/-- What is sent on from a node. -/
theorem forward_raises (live : Std.HashSet Int) (i g k : Int) (n : Node) (kind : Kind) :
    Keeps (Raises (burden bound) (4 * n.operands.countP fun x : Nat => (x : Int) ∈ live))
      (forward live i g k n kind) := by
  simp only [forward]
  split
  · exact Raises.mono (m := 0) (fun s => Nat.le_refl (s.burden bound)) (Nat.zero_le _)
  · split
    · have hsend : Keeps (Raises (burden bound) _) _ :=
        sendEach_raises live id n.operands fun _ _ => Raises.pure g
      rwa [List.map_id, ← sendUnchanged_eq] at hsend
    · have hsend : Keeps (Raises (burden bound) _) _ :=
        sendEach_raises live Prod.fst n.form.rules fun rule hrule =>
          Raises.mono (Arena.carryOut_raises g i Int.ofNat rule.2) (Form.nodes_le_three hrule)
      rwa [Form.rules_operands, ← sendByRules_eq] at hsend

/-- The contributions that waited pay for their sum and for adding it to the entry. -/
theorem burden_of_meet_ok (hi : i < bound) (hn : s.arena.node? i = some n)
    (h : meet live i s = .ok () t) : t.burden bound ≤ s.burden bound +
      if (i : Int) ∈ live then 4 * n.operands.countP fun x : Nat => (x : Int) ∈ live else 0 := by
  have htake := burden_take hi s
  by_cases hskip : s.waiting i = [] ∨ (i : Int) ∉ live
  · rw [meet_skip hskip] at h
    cases h
    omega
  · rw [not_or, not_not] at hskip
    obtain ⟨hwait, hlive⟩ := hskip
    obtain ⟨g, k, b, d, n', m, hsum, hadd, hn', -, hforward⟩ := exists_of_meet_ok hlive hwait h
    have hkept :=
      ((Arena.sum_keeps _).of_ok hsum).1.1.trans ((Arena.addTo_keeps _ _).of_ok hadd).1.1
    rw [Arena.at?_ofNat, hkept i n hn] at hn'
    obtain rfl := Option.some.inj hn'
    have hsize : b.size ≤ s.arena.size + ((s.waiting i).reverse.length - 1) :=
      (Arena.sum_raises _).of_ok hsum
    have hsize' : d.size ≤ b.size + 1 := (Arena.addTo_raises _ _).of_ok hadd
    have hpos := List.length_pos_iff.mpr hwait
    rw [List.length_reverse] at hsize
    have hsent : Raises (burden bound) _ _ _ := (forward_raises live i g k n m.kind).of_ok hforward
    have hopened : burden bound ⟨d, s.grads.insert (i : Int) k, s.pending.erase (i : Int), s.found⟩ +
        s.arena.size =
          burden bound { s with pending := s.pending.erase (i : Int) } + d.size := by
      simp only [burden]
      have : ∀ m, waiting ⟨d, s.grads.insert (i : Int) k, s.pending.erase (i : Int), s.found⟩ m =
        waiting { s with pending := s.pending.erase (i : Int) } m := fun _ => rfl
      simp only [this]
      omega
    rw [if_pos hlive]
    change t.burden bound ≤ burden bound ⟨d, _, _, _⟩ + _ at hsent
    omega

end Pass

/-! ### The whole sweep -/

theorem mem_of_mem_foldl_insert {f : Std.HashSet Int → Int → Bool} {order : List Int} {x : Int} :
    x ∈ order.foldl (fun marks i => if f marks i then marks.insert i else marks) ∅ → x ∈ order := by
  refine List.foldlRecOn (motive := fun marks : Std.HashSet Int => x ∈ marks → x ∈ order) order _
    (by simp) fun marks hmarks i hi hx => ?_
  split at hx
  · rcases Std.HashSet.mem_insert.mp hx with heq | hx
    · exact beq_iff_eq.mp heq ▸ hi
    · exact hmarks hx
  · exact hmarks hx

namespace Arena

open Classical in
/-- The live nodes of a pass. -/
noncomputable def liveNodes (a : Arena) (asked : Nat → Prop) (y : Nat) : Finset Nat :=
  (Finset.range a.size).filter (a.Live asked y)

open Classical in
/-- The number of operand positions of a node at which a live node stands. -/
noncomputable def liveOperands (a : Arena) (asked : Nat → Prop) (y n : Nat) : Nat :=
  (a.operands n).countP fun c => a.Live asked y c

/-- The number of pairs of a live node and one of its positions at which a live operand stands. -/
noncomputable def liveEdges (a : Arena) (asked : Nat → Prop) (y : Nat) : Nat :=
  ∑ n ∈ a.liveNodes asked y, a.liveOperands asked y n

variable {a b : Arena} {asked : Nat → Prop} {y n : Nat}

theorem mem_liveNodes (ha : a.WellFormed) (hy : y < a.size) :
    n ∈ a.liveNodes asked y ↔ a.Live asked y n := by
  classical
  rw [liveNodes, Finset.mem_filter, Finset.mem_range]
  refine and_iff_right_of_imp fun hn => ?_
  exact Nat.lt_of_le_of_lt (hn.1.le fun _ _ hc => ha.operand_lt hc) hy

theorem liveNodes_of_extends (ha : a.WellFormed) (hb : b.WellFormed) (hab : a.Extends b)
    (hy : y < a.size) : b.liveNodes asked y = a.liveNodes asked y := by
  ext n
  rw [mem_liveNodes hb (Nat.lt_of_lt_of_le hy (Embedding.size_le_of_extends hab)),
    mem_liveNodes ha hy, live_of_extends ha hab hy]

/-- Only nodes of the order are marked. -/
theorem mem_of_mem_live {targets : Option (Std.HashSet Int)} {order : List Int} {x : Int}
    (h : x ∈ a.live targets order) : x ∈ order := mem_of_mem_foldl_insert h

/-- Growing an arena does not change its live edges. -/
theorem liveEdges_of_extends (ha : a.WellFormed) (hb : b.WellFormed) (hab : a.Extends b)
    (hy : y < a.size) : b.liveEdges asked y = a.liveEdges asked y := by
  rw [liveEdges, liveNodes_of_extends ha hb hab hy]
  refine Finset.sum_congr rfl fun n hn => ?_
  have hn := ((mem_liveNodes ha hy).mp hn).1.le fun _ _ hc => ha.operand_lt hc
  rw [liveOperands, operands_of_extends hab (Nat.lt_of_le_of_lt hn hy)]
  exact List.countP_congr fun c _ => by simp [live_of_extends ha hab hy]

end Arena

namespace Plan

variable {π : Plan} {sh : Shape} {live : Std.HashSet Int} {todo : List Nat} {s t : Pass}

theorem mem_liveNodes (hready : π.Ready sh) {n : Nat} :
    n ∈ π.arena.liveNodes π.asked π.output ↔ π.Live n :=
  Arena.mem_liveNodes hready.regular.wellFormed hready.output_lt

/-- There are as many live nodes as marks. -/
theorem card_liveNodes (hready : π.Ready sh) (hlive : ∀ j : Nat, (j : Int) ∈ live ↔ π.Live j)
    (hnatural : ∀ x ∈ live, ∃ j : Nat, x = j) :
    (π.arena.liveNodes π.asked π.output).card = live.size := by
  have hdistinct : live.toList.Nodup := by
    refine Std.HashSet.distinct_toList.imp fun h => ?_
    simpa using h
  have himage : (π.arena.liveNodes π.asked π.output).image Nat.cast = live.toList.toFinset := by
    ext x
    rw [Finset.mem_image, List.mem_toFinset, Std.HashSet.mem_toList]
    constructor
    · rintro ⟨j, hj, rfl⟩
      exact (hlive j).mpr ((mem_liveNodes hready).mp hj)
    · intro hx
      obtain ⟨j, rfl⟩ := hnatural x hx
      exact ⟨j, (mem_liveNodes hready).mpr ((hlive j).mp hx), rfl⟩
  rw [← Finset.card_image_of_injective _ (fun _ _ h => Int.natCast_inj.mp h), himage,
    List.toFinset_card_of_nodup hdistinct, Std.HashSet.length_toList]

/-- Each live node that is left raises the burden by four for each live operand. -/
theorem burden_of_sweep_ok (hready : π.Ready sh) (htodo : π.Remaining todo)
    (hlive : ∀ j : Nat, (j : Int) ∈ live ↔ π.Live j) (hkept : π.arena.Extends s.arena)
    (h : (todo.map Int.ofNat).forM (Pass.meet live) s = .ok () t) :
    t.burden (π.output + 1) ≤ s.burden (π.output + 1) + 4 *
      ∑ n ∈ todo.toFinset ∩ π.arena.liveNodes π.asked π.output,
        π.arena.liveOperands π.asked π.output n := by
  induction todo generalizing s with
  | nil =>
    cases h
    exact Nat.le_add_right ..
  | cons i rest ih =>
    obtain ⟨_, u, hmeet, hrest⟩ := exists_of_bind_ok h
    have hi := htodo.reached i (List.mem_cons_self ..)
    obtain ⟨node, hnode, -⟩ := hready.exists_node hi
    have hgrown := hkept.trans ((Pass.meet_keeps live i).of_ok hmeet).1.1
    have hlater := ih htodo.tail hgrown hrest
    have hbound : i < π.output + 1 := Nat.lt_succ_of_le (hready.le_output hi)
    have hstep := Pass.burden_of_meet_ok hbound (hkept i node hnode) hmeet
    have hcount : node.operands.countP (fun x : Nat => (x : Int) ∈ live) =
        π.arena.liveOperands π.asked π.output i := by
      rw [Arena.liveOperands, Arena.operands_of_node? hnode]
      exact List.countP_congr fun c _ => by simpa [Plan.Live] using hlive c
    rw [List.toFinset_cons]
    by_cases hmem : π.Live i
    · have hnew : i ∉ rest.toFinset ∩ π.arena.liveNodes π.asked π.output := by
        intro hmem
        exact Nat.lt_irrefl i (htodo.lt_head i (List.mem_toFinset.mp (Finset.mem_inter.mp hmem).1))
      rw [Finset.insert_inter_of_mem ((mem_liveNodes hready).mpr hmem), Finset.sum_insert hnew]
      rw [if_pos ((hlive i).mpr hmem), hcount] at hstep
      omega
    · rw [Finset.insert_inter_of_notMem fun hin => hmem ((mem_liveNodes hready).mp hin)]
      rw [if_neg fun hin => hmem ((hlive i).mp hin)] at hstep
      omega

/-- When no node is live, nothing is appended. -/
theorem arena_of_sweep_ok (hdead : ∀ j ∈ todo, (j : Int) ∉ live)
    (h : (todo.map Int.ofNat).forM (Pass.meet live) s = .ok () t) : t.arena = s.arena := by
  induction todo generalizing s with
  | nil =>
    cases h
    rfl
  | cons i rest ih =>
    obtain ⟨_, u, hmeet, hrest⟩ := exists_of_bind_ok h
    rw [Int.ofNat_eq_natCast, Pass.meet_skip (Or.inr (hdead i (List.mem_cons_self ..)))] at hmeet
    cases hmeet
    exact (ih (fun j hj => hdead j (List.mem_cons_of_mem i hj)) hrest).trans rfl

theorem burden_opening (π : Plan) :
    (Differentiation.opening π).burden (π.output + 1) = π.arena.size + 1 := by
  have hlength : ∀ m, ((Differentiation.opening π).waiting m).length =
      if m = π.output then 1 else 0 := by
    intro m
    rw [Differentiation.waiting_opening]
    split <;> rfl
  rw [Pass.burden, Finset.sum_congr rfl fun m _ => hlength m, Finset.sum_ite_eq',
    if_pos (Finset.mem_range.mpr (Nat.lt_succ_self _))]
  rfl

/-- A whole sweep appends at most four nodes for each live edge and one more, if any. -/
theorem size_of_sweep_ok (hready : π.Ready sh) (hschedule : π.Schedule todo)
    (hlive : ∀ j : Nat, (j : Int) ∈ live ↔ π.Live j)
    (h : (todo.map Int.ofNat).forM (Pass.meet live) (Differentiation.opening π) = .ok () t) :
    t.arena.size ≤ π.arena.size + 4 * π.arena.liveEdges π.asked π.output +
      (π.arena.liveNodes π.asked π.output).card := by
  by_cases houtput : π.Live π.output
  · have hburden := burden_of_sweep_ok hready hschedule.remaining hlive (Arena.Extends.refl _) h
    have hsubset : π.arena.liveNodes π.asked π.output ⊆ todo.toFinset := fun n hn =>
      List.mem_toFinset.mpr ((hschedule.mem n).mpr ((mem_liveNodes hready).mp hn).1)
    rw [burden_opening, Finset.inter_eq_right.mpr hsubset] at hburden
    have hcard := Finset.card_pos.mpr ⟨π.output, (mem_liveNodes hready).mpr houtput⟩
    have hsize := Pass.size_le_burden (π.output + 1) t
    rw [Arena.liveEdges]
    omega
  · rw [arena_of_sweep_ok (fun j _ hj => houtput ((hlive j).mp hj).output) h, Nat.add_assoc]
    exact Nat.le_add_right ..

end Plan

end TensorGraph
