import TensorGraph.Proofs.Gradient.Backward
import TensorGraph.Proofs.Gradient.Making
import TensorGraph.Proofs.Gradient.Shadow

/-!
# Vanishing gradients

The gradient of a step function's operand is a zero leaf, and a zero leaf is sent on as it is. So the
gradient of a node is one exactly when the seed is, or when each way down to the node leaves a step
function. What has vanished is in no sum and no product.
-/

namespace TensorGraph

/-! ### Ways down -/

/-- A way down from one node to another, with the nodes that it leaves. -/
inductive Descent (next : Nat → List Nat) : Nat → List Nat → Nat → Prop
  | here (i : Nat) : Descent next i [] i
  | down {i c j : Nat} {left : List Nat} : c ∈ next i → Descent next c left j →
      Descent next i (i :: left) j

/-- What is reached is the start or next to something that is. -/
theorem Reaches.exists_last {next : Nat → List Nat} {i j : Nat} (h : Reaches next i j) :
    j = i ∨ ∃ u, Reaches next i u ∧ j ∈ next u := by
  induction h with
  | refl i => exact Or.inl rfl
  | step hc _ ih =>
    rename_i i c j _
    rcases ih with rfl | ⟨u, hu, hj⟩
    · exact Or.inr ⟨i, .refl i, hc⟩
    · exact Or.inr ⟨u, .step hc hu, hj⟩

namespace Arena

def isStep (a : Arena) (i : Nat) : Bool := (a.node? i).map Node.kind == some (.unary .gtz)

/-- The operands to which more than a zero leaf is sent. -/
def carriers (a : Arena) (i : Nat) : List Nat := if a.isStep i then [] else a.operands i

theorem mem_carriers {a : Arena} {i c : Nat} :
    c ∈ a.carriers i ↔ a.isStep i = false ∧ c ∈ a.operands i := by
  rw [carriers]
  cases a.isStep i <;> simp

theorem carriers_subset {a : Arena} {i c : Nat} (h : c ∈ a.carriers i) : c ∈ a.operands i :=
  (mem_carriers.mp h).2

/-- What carriers reach is reached on a way down that leaves no step function. -/
theorem reaches_carriers_iff {a : Arena} {y n : Nat} :
    Reaches a.carriers y n ↔
      ∃ left, Descent a.operands y left n ∧ ∀ u ∈ left, a.isStep u = false := by
  constructor
  · intro h
    induction h with
    | refl i => exact ⟨[], .here i, by simp⟩
    | step hc _ ih =>
      obtain ⟨left, hdescent, hleft⟩ := ih
      obtain ⟨hstep, hoperand⟩ := mem_carriers.mp hc
      exact ⟨_, .down hoperand hdescent, List.forall_mem_cons.mpr ⟨hstep, hleft⟩⟩
  · rintro ⟨left, hdescent, hleft⟩
    induction hdescent with
    | here i => exact .refl i
    | down hc _ ih =>
      obtain ⟨hstep, hrest⟩ := List.forall_mem_cons.mp hleft
      exact .step (mem_carriers.mpr ⟨hstep, hc⟩) (ih hrest)

/-- What carriers do not reach is reached on ways down only that all leave a step function. -/
theorem not_reaches_carriers_iff {a : Arena} {y n : Nat} : ¬Reaches a.carriers y n ↔
    ∀ left, Descent a.operands y left n → ∃ u ∈ left, a.isStep u = true := by
  simp only [reaches_carriers_iff, not_exists, not_and, not_forall, Bool.not_eq_false, exists_prop]

theorem reaches_carriers_of_extends {a b : Arena} (ha : a.WellFormed) (hab : a.Extends b) {y n : Nat}
    (hy : y < a.size) : Reaches b.carriers y n ↔ Reaches a.carriers y n := by
  refine reaches_congr (fun _ _ hc => ha.operand_lt (carriers_subset hc)) (fun i hi => ?_) hy
  obtain ⟨node, hn⟩ := exists_node? hi
  rw [carriers, carriers, operands_of_extends hab hi, isStep, isStep, hn, hab i node hn]

end Arena

theorem Reaches.of_carriers {a : Arena} {y n : Nat} (h : Reaches a.carriers y n) :
    Reaches a.operands y n := by
  induction h with
  | refl i => exact .refl i
  | step hc _ ih => exact .step (Arena.carriers_subset hc) ih

/-! ### Sending -/

namespace Pass

variable {R : Arena → Arena → Prop} {Q : Arena → Int → Prop} {live : Std.HashSet Int}
  {targets : List Nat} {s t u : Pass}

/-- What is sent to the live targets: the arena has changed in a certain way, and more of a certain
kind waits there. -/
structure Spread (R : Arena → Arena → Prop) (Q : Arena → Int → Prop) (live : Std.HashSet Int)
    (targets : List Nat) (s t : Pass) : Prop where
  arena : R s.arena t.arena
  grads : t.grads = s.grads
  old : ∀ m, ∀ g ∈ s.waiting m, g ∈ t.waiting m
  new : ∀ m, ∀ g ∈ t.waiting m,
    g ∈ s.waiting m ∨ m ∈ targets ∧ (m : Int) ∈ live ∧ Q t.arena g
  sent : ∀ m ∈ targets, (m : Int) ∈ live → ∃ g ∈ t.waiting m, Q t.arena g

variable [IsPreorder Arena R]

theorem Spread.refl (s : Pass) : Spread R Q live [] s s where
  arena := Std.Refl.refl _
  grads := rfl
  old _ _ hg := hg
  new _ _ hg := Or.inl hg
  sent := by simp

theorem Spread.trans {xs ys : List Nat} (hQ : ∀ a b g, R a b → Q a g → Q b g)
    (hst : Spread R Q live xs s t) (htu : Spread R Q live ys t u) :
    Spread R Q live (xs ++ ys) s u where
  arena := IsTrans.trans _ _ _ hst.arena htu.arena
  grads := htu.grads.trans hst.grads
  old m g hg := htu.old m g (hst.old m g hg)
  new m g hg := by
    rcases htu.new m g hg with hg | ⟨hm, hlive, hQg⟩
    · rcases hst.new m g hg with hg | ⟨hm, hlive, hQg⟩
      · exact Or.inl hg
      · exact Or.inr ⟨List.mem_append_left _ hm, hlive, hQ _ _ g htu.arena hQg⟩
    · exact Or.inr ⟨List.mem_append_right _ hm, hlive, hQg⟩
  sent m hm hlive := by
    rcases List.mem_append.mp hm with hm | hm
    · obtain ⟨g, hg, hQg⟩ := hst.sent m hm hlive
      exact ⟨g, htu.old m g hg, hQ _ _ g htu.arena hQg⟩
    · exact htu.sent m hm hlive

theorem spread_sendOne {target : Nat} {build : Build Int}
    (hbuild : ∀ k b, build s.arena = .ok k b → R s.arena b ∧ Q b k)
    (h : sendOne live target build s = .ok () t) : Spread R Q live [target] s t := by
  simp only [sendOne] at h
  split at h
  · rename_i hlive
    obtain ⟨k, s₁, hbuilding, hsend⟩ := exists_of_bind_ok h
    obtain ⟨b, hb, rfl⟩ := exists_of_building_ok hbuilding
    obtain ⟨hR, hQ⟩ := hbuild k b hb
    cases hsend
    have hwait := waiting_send { s with arena := b } target
    refine ⟨hR, rfl, fun m g hg => ?_, fun m g hg => ?_, fun m hm _ => ?_⟩
    · rw [hwait]
      split
      · rename_i hm
        exact List.mem_cons_of_mem k (hm ▸ hg)
      · exact hg
    · rw [hwait] at hg
      split at hg
      · rename_i hm
        subst hm
        rcases List.mem_cons.mp hg with rfl | hg
        · exact Or.inr ⟨List.mem_singleton_self m, hlive, hQ⟩
        · exact Or.inl hg
      · exact Or.inl hg
    · rw [List.mem_singleton.mp hm]
      refine ⟨k, ?_, hQ⟩
      rw [hwait, if_pos rfl]
      exact List.mem_cons_self ..
  · rename_i hlive
    cases h
    refine ⟨Std.Refl.refl _, rfl, fun _ _ hg => hg, fun _ _ hg => Or.inl hg, fun m hm hmlive => ?_⟩
    rw [List.mem_singleton.mp hm] at hmlive
    exact absurd hmlive hlive

theorem spread_sendEach {β : Type} {target : β → Nat} {build : β → Build Int} {xs : List β}
    (hQ : ∀ a b g, R a b → Q a g → Q b g)
    (hbuild : ∀ x ∈ xs, ∀ a k b, R s.arena a → build x a = .ok k b → R a b ∧ Q b k)
    (h : sendEach live target build xs s = .ok () t) :
    Spread R Q live (xs.map target) s t := by
  induction xs generalizing s with
  | nil =>
    cases h
    exact .refl _
  | cons x xs ih =>
    obtain ⟨_, s₁, hone, hrest⟩ := exists_of_bind_ok h
    have hfirst : Spread R Q live [target x] s s₁ :=
      spread_sendOne (hbuild x (List.mem_cons_self ..) s.arena · · (Std.Refl.refl _)) hone
    refine hfirst.trans hQ (ih (fun y hy a k b hR => ?_) hrest)
    exact hbuild y (List.mem_cons_of_mem x hy) a k b (IsTrans.trans _ _ _ hfirst.arena hR)

end Pass

/-! ### The sweep -/

namespace Plan

variable (π : Plan)

/-- What a pass may use from the start: what the output reaches, the seed and earlier gradients. -/
def Given (x : Nat) : Prop :=
  π.Reached x ∨ (x : Int) = π.seed ∨ ∃ i, π.grads.get? i = some (x : Int)

/-- What a pass sends: the seed or a new node, which is a zero leaf or not. -/
def Offers (zero : Bool) (a : Arena) (g : Int) : Prop :=
  ∃ j : Nat, g = j ∧ j < a.size ∧ (g = π.seed ∨ π.arena.size ≤ j) ∧ a.isZero j = zero

/-- More than zero leaves comes down to a node. -/
def Carries (n : Nat) : Prop :=
  π.arena.isZero π.seed = false ∧ Reaches π.arena.carriers π.output n

/-- More than zero leaves has come to a node from those that were met. -/
def Arrives (todo : List Nat) (m : Nat) : Prop :=
  (π.arena.isZero π.seed = false ∧ m = π.output) ∨
    ∃ u, u ∉ todo ∧ π.Carries u ∧ m ∈ π.arena.carriers u

variable {π} {sh : Shape} {a b : Arena} {g : Int} {zero : Bool} {i m n : Nat} {rest : List Nat}

theorem Offers.of_extends (h : π.Offers zero a g) (hab : a.Extends b) : π.Offers zero b g := by
  obtain ⟨j, rfl, hlt, hcase, hzero⟩ := h
  exact ⟨j, rfl, Nat.lt_of_lt_of_le hlt (Embedding.size_le_of_extends hab), hcase,
    (Arena.isZero_of_extends hab hlt).trans hzero⟩

theorem Offers.isZero (h : π.Offers zero a g) : a.isZero g = zero := by
  obtain ⟨j, rfl, -, -, hzero⟩ := h
  exact hzero

theorem Offers.isZero_of_extends (h : π.Offers zero a g) (hab : a.Extends b) :
    b.isZero g = a.isZero g := by
  rw [(h.of_extends hab).isZero, h.isZero]

theorem Offers.usable (h : π.Offers false a g) : a.UsableAt π.arena.size π.Given g := by
  obtain ⟨j, rfl, hlt, hcase, hzero⟩ := h
  refine ⟨j, rfl, hlt, fun hold => ?_, fun _ => hzero⟩
  rcases hcase with hseed | hnew
  · exact Or.inr (Or.inl hseed)
  · omega

theorem Offers.of_new (h : Arena.New a b zero g) (ha : π.arena.size ≤ a.size) :
    π.Offers zero b g := by
  obtain ⟨j, rfl, hj, hlt, hzero⟩ := h
  exact ⟨j, rfl, hlt, Or.inr (ha.trans hj), hzero⟩

theorem Carries.reached (h : π.Carries n) : π.Reached n := h.2.of_carriers

theorem not_carries_of_seed (hseed : π.arena.isZero π.seed = true) : ¬π.Carries n := by
  rintro ⟨hnot, -⟩
  rw [hseed] at hnot
  cases hnot

theorem Carries.of_carrier (h : π.Carries n) (hm : m ∈ π.arena.carriers n) : π.Carries m :=
  ⟨h.1, h.2.trans (.step hm (.refl m))⟩

/-- More than zero leaves has come to a node whose users have all been met. -/
theorem arrives_head (hready : π.Ready sh) (htodo : π.Remaining (i :: rest)) :
    π.Arrives (i :: rest) i ↔ π.Carries i := by
  constructor
  · rintro (⟨hseed, rfl⟩ | ⟨u, -, hu, hi⟩)
    · exact ⟨hseed, .refl _⟩
    · exact hu.of_carrier hi
  · rintro ⟨hseed, hreaches⟩
    rcases hreaches.exists_last with heq | ⟨u, hu, hi⟩
    · exact Or.inl ⟨hseed, heq⟩
    · refine Or.inr ⟨u, fun hmem => ?_, ⟨hseed, hu⟩, hi⟩
      have hlt := hready.operand_lt (Arena.carriers_subset hi)
      rcases List.mem_cons.mp hmem with rfl | hmem
      · exact Nat.lt_irrefl _ hlt
      · exact Nat.lt_asymm hlt (htodo.lt_head u hmem)

/-- Meeting a node brings more than zero leaves to its carriers. -/
theorem arrives_rest (htodo : π.Remaining (i :: rest)) :
    π.Arrives rest m ↔ π.Arrives (i :: rest) m ∨ (π.Carries i ∧ m ∈ π.arena.carriers i) := by
  have hi : i ∉ rest := fun hmem => Nat.lt_irrefl i (htodo.lt_head i hmem)
  constructor
  · rintro (hseed | ⟨u, hu, hcarries, hm⟩)
    · exact Or.inl (Or.inl hseed)
    · by_cases hui : u = i
      · exact Or.inr ⟨hui ▸ hcarries, hui ▸ hm⟩
      · exact Or.inl (Or.inr ⟨u, List.not_mem_cons_of_ne_of_not_mem hui hu, hcarries, hm⟩)
  · rintro ((hseed | ⟨u, hu, hcarries, hm⟩) | ⟨hcarries, hm⟩)
    · exact Or.inl hseed
    · exact Or.inr ⟨u, fun hmem => hu (List.mem_cons_of_mem i hmem), hcarries, hm⟩
    · exact Or.inr ⟨i, hi, hcarries, hm⟩

end Plan

/-- What a pass under way has built, and where more than zero leaves has come. -/
structure Tracing (π : Plan) (todo : List Nat) (s : Pass) : Prop where
  made : Arena.Making π.arena.size π.Given π.arena s.arena
  offered : ∀ m, ∀ g ∈ s.waiting m, ∃ zero, π.Offers zero s.arena g
  /-- From a zero seed nothing is built. -/
  still : π.arena.isZero π.seed = true → s.arena = π.arena
  arrived : ∀ m ∈ todo, π.Live m →
    ((∃ g ∈ s.waiting m, s.arena.isZero g = false) ↔ π.Arrives todo m)
  table : ∀ i g, s.grads.get? i = some g →
    π.grads.get? i = some g ∨ ∃ zero, π.Offers zero s.arena g
  /-- An entry is a zero leaf when the earlier one was and the pass adds no more. -/
  entries : ∀ n : Nat, π.Live n → n ∉ todo → ∃ g, s.grads.get? n = some g ∧
    (s.arena.isZero g = false ↔
      π.Carries n ∨ ∃ old, π.grads.get? n = some old ∧ π.arena.isZero old = false)

namespace Tracing

variable {R : Type} [CommRing R] {F : Functions R} {ρ : Nat → R} {π : Plan} {sh : Shape} {i : Nat}
  {rest : List Nat} {s t : Pass} {live : Std.HashSet Int}

/-- Before the first node is met, only the seed waits, at the output. -/
theorem opening (hready : π.Ready sh) {todo : List Nat} (hall : ∀ n, π.Reached n → n ∈ todo) :
    Tracing π todo (Differentiation.opening π) := by
  obtain ⟨j, node, hj, hnode, -⟩ := hready.seed
  have hseed : ∀ g, g ∈ [π.seed] → ∃ zero, π.Offers zero π.arena g := fun g hg =>
    ⟨π.arena.isZero j, j, (List.mem_singleton.mp hg).trans hj, Arena.lt_size_of_node? hnode,
      Or.inl (List.mem_singleton.mp hg), rfl⟩
  have hwait := Differentiation.waiting_opening π
  refine ⟨Std.Refl.refl _, fun m g hg => ?_, fun _ => rfl, fun m hm hlive => ?_,
    fun i g hg => Or.inl hg, fun n hn hnot => absurd (hall n hn.reached) hnot⟩
  · rw [hwait] at hg
    split at hg
    · exact hseed g hg
    · cases hg
  · rw [hwait]
    constructor
    · rintro ⟨g, hg, hzero⟩
      split at hg
      · rename_i heq
        exact Or.inl ⟨List.mem_singleton.mp hg ▸ hzero, heq⟩
      · cases hg
    · rintro (⟨hzero, rfl⟩ | ⟨u, hu, hcarries, -⟩)
      · exact ⟨π.seed, by simp, hzero⟩
      · exact absurd (hall u hcarries.reached) hu

/-- From a zero seed only zero leaves come down. -/
theorem zero_of_seed (h : Tracing π (i :: rest) s) (hseed : π.arena.isZero π.seed = true) {m : Nat}
    {g : Int} (hg : g ∈ s.waiting m) : s.arena.isZero g = true := by
  have hsame := h.still hseed
  obtain ⟨zero, j, rfl, hlt, hcase, -⟩ := h.offered m g hg
  rw [hsame] at hlt ⊢
  rcases hcase with heq | hnew
  · rw [heq, hseed]
  · exact absurd hlt (Nat.not_lt_of_le hnew)

/-- A node that is not live is passed over. -/
theorem skip (h : Tracing π (i :: rest) s) (htodo : π.Remaining (i :: rest)) (hi : ¬π.Live i) :
    Tracing π rest { s with pending := s.pending.erase (i : Int) } where
  made := h.made
  offered m g hg := by
    rw [Pass.waiting_take] at hg
    split at hg
    · cases hg
    · exact h.offered m g hg
  still := h.still
  arrived m hm hlive := by
    have hmi : m ≠ i := by
      rintro rfl
      exact hi hlive
    rw [Pass.waiting_take, if_neg hmi, h.arrived m (List.mem_cons_of_mem i hm) hlive,
      Plan.arrives_rest htodo]
    refine (or_iff_left ?_).symm
    rintro ⟨hcarries, hmem⟩
    exact hi (hlive.of_operand hcarries.reached (Arena.carriers_subset hmem))
  table := h.table
  entries n hn hnot := by
    refine h.entries n hn fun hmem => ?_
    rcases List.mem_cons.mp hmem with rfl | hmem
    · exact hi hn
    · exact hnot hmem

/-! ### A live node that is met -/

section Met

variable {g k : Int} {b d : Arena} {n : Node}

/-- The sum at a node is a zero leaf exactly when no more than that comes down to it. -/
theorem sum_head (h : Tracing π (i :: rest) s) (hready : π.Ready sh)
    (htodo : π.Remaining (i :: rest)) (hi : π.Live i)
    (hsum : Arena.sum (s.waiting i).reverse s.arena = .ok g b) :
    Arena.Making π.arena.size π.Given s.arena b ∧ (∃ zero, π.Offers zero b g) ∧
      (b.isZero g = false ↔ π.Carries i) ∧ (π.arena.isZero π.seed = true → b = s.arena) := by
  have hsize := Embedding.size_le_of_extends h.made.kept
  have husable : ∀ x ∈ (s.waiting i).reverse, s.arena.isZero x = false →
      s.arena.UsableAt π.arena.size π.Given x := by
    intro x hx hzero
    obtain ⟨zero, hoffers⟩ := h.offered i x (List.mem_reverse.mp hx)
    obtain rfl : zero = false := hoffers.isZero.symm.trans hzero
    exact hoffers.usable
  obtain ⟨hmaking, hcase, hzero, hsame⟩ := Arena.sum_ok hsize husable hsum
  refine ⟨hmaking, ?_, ?_, fun hseed => hsame ?_⟩
  · rcases hcase with hmem | hnew
    · obtain ⟨zero, hoffers⟩ := h.offered i g (List.mem_reverse.mp hmem)
      exact ⟨zero, hoffers.of_extends hmaking.kept⟩
    · exact ⟨false, .of_new hnew hsize⟩
  · rw [hzero, ← Plan.arrives_head hready htodo, ← h.arrived i (List.mem_cons_self ..) hi]
    simp only [List.mem_reverse]
  · rw [List.filter_eq_nil_iff.mpr fun x hx => ?_]
    · exact Nat.zero_le 1
    · simp [h.zero_of_seed hseed (List.mem_reverse.mp hx)]

/-- What a node had before and gets now add up to a zero leaf exactly when both are. -/
theorem total_head (hready : π.Ready sh) (hnode : π.arena.node? i = some n) {old : Option Int}
    (hold : old = π.grads.get? i) (hkept : π.arena.Extends b) (hg : ∃ zero, π.Offers zero b g)
    (hzero : b.isZero g = false ↔ π.Carries i) (htotal : Arena.addTo old g b = .ok k d) :
    Arena.Making π.arena.size π.Given b d ∧
      (π.grads.get? i = some k ∨ ∃ zero, π.Offers zero d k) ∧
      (d.isZero k = false ↔
        π.Carries i ∨ ∃ o, π.grads.get? i = some o ∧ π.arena.isZero o = false) ∧
      (π.arena.isZero π.seed = true → d = b) := by
  have hsize := Embedding.size_le_of_extends hkept
  have hentry : ∀ o, old = some o → ∃ j : Nat, o = j ∧ j < π.arena.size ∧ π.Given j := by
    intro o ho
    obtain ⟨j, m, rfl, hm, -⟩ := hready.entries i n o hnode (hold ▸ ho)
    exact ⟨j, rfl, Arena.lt_size_of_node? hm, Or.inr (Or.inr ⟨i, hold ▸ ho⟩)⟩
  have hsame : ∀ o, old = some o → b.isZero o = π.arena.isZero o := by
    intro o ho
    obtain ⟨j, rfl, hj, -⟩ := hentry o ho
    exact Arena.isZero_of_extends hkept hj
  have hcarriesNot : π.arena.isZero π.seed = true → b.isZero g = true := by
    intro hseed
    rw [← Bool.not_eq_false, hzero]
    exact Plan.not_carries_of_seed hseed
  obtain ⟨zero, hoffers⟩ := hg
  have husableOld : ∀ o, old = some o → b.isZero o = false →
      b.UsableAt π.arena.size π.Given o := by
    intro o ho _
    obtain ⟨j, rfl, hj, hgiven⟩ := hentry o ho
    exact ⟨j, rfl, Nat.lt_of_lt_of_le hj hsize, fun _ => hgiven, fun hle => by omega⟩
  have husable : b.isZero g = false → b.UsableAt π.arena.size π.Given g := by
    intro hgzero
    obtain rfl : zero = false := hoffers.isZero.symm.trans hgzero
    exact hoffers.usable
  obtain ⟨hmaking, hcase, hboth, hstill⟩ := Arena.addTo_ok hsize husableOld husable htotal
  refine ⟨hmaking, ?_, ?_, fun hseed => hstill (hcarriesNot hseed)⟩
  · rcases hcase with rfl | hk | hnew
    · exact Or.inr ⟨zero, hoffers.of_extends hmaking.kept⟩
    · exact Or.inl (hold ▸ hk)
    · exact Or.inr ⟨false, .of_new hnew hsize⟩
  · rw [hboth, hzero, ← hold]
    refine or_congr_right (exists_congr fun o => and_congr_right fun ho => ?_)
    rw [hsame o ho]

/-- Nodes below the output may be used. -/
theorem usable_of_reached (hready : π.Ready sh) (hkept : π.arena.Extends d) {x : Nat}
    (hx : π.Reached x) : d.Usable π.arena.size π.Given x := by
  have hlt := Nat.lt_of_le_of_lt (hready.le_output hx) hready.output_lt
  exact ⟨Nat.lt_of_lt_of_le hlt (Embedding.size_le_of_extends hkept), fun _ => Or.inl hx,
    fun hle => absurd hlt (Nat.not_lt_of_le hle)⟩

/-- A node sends on more than zero leaves when more has come to it, unless it is a step function. -/
def Sends (π : Plan) (i : Nat) (a : Arena) (g : Int) : Prop :=
  ∃ zero, π.Offers zero a g ∧ (zero = false ↔ π.Carries i ∧ π.arena.isStep i = false)

theorem Sends.of_extends {a : Arena} (hab : a.Extends b) (h : Sends π i a g) : Sends π i b g := by
  obtain ⟨zero, hoffers, hzero⟩ := h
  exact ⟨zero, hoffers.of_extends hab, hzero⟩

/-- A zero leaf is sent on as it is. -/
theorem spread_zero {s t : Pass} {xs : List Nat} (hoffers : ∃ zero, π.Offers zero s.arena g)
    (hzero : s.arena.isZero g = true) (hcarries : ¬π.Carries i)
    (h : Pass.sendUnchanged live g xs s = .ok () t) :
    Pass.Spread Eq (Sends π i) live xs s t := by
  have hsends : Sends π i s.arena g := by
    obtain ⟨zero, hoffers⟩ := hoffers
    obtain rfl : zero = true := hoffers.isZero.symm.trans hzero
    exact ⟨true, hoffers, iff_of_false (by simp) fun hboth => hcarries hboth.1⟩
  rw [Pass.sendUnchanged_eq] at h
  have hspread := Pass.spread_sendEach (R := Eq) (Q := Sends π i)
    (fun a b g hab hg => hab ▸ hg) (fun x _ a k b hab hk => ?_) h
  · rw [List.map_id] at hspread
    exact hspread
  · cases hk
    exact ⟨rfl, hab ▸ hsends⟩

/-- What is no zero leaf is sent on by the rules of the node. -/
theorem spread_rules (hready : π.Ready sh) (hi : π.Reached i) (hnode : π.arena.node? i = some n)
    {s t : Pass} (hkept : π.arena.Extends s.arena) (hoffers : π.Offers false s.arena g)
    (hcarries : π.Carries i) (h : Pass.sendByRules live i g n.form.rules s = .ok () t) :
    Pass.Spread (Arena.Making π.arena.size π.Given) (Sends π i) live n.operands s t := by
  have hstep : π.arena.isStep i = (n.form.kind == .unary .gtz) := by
    simp [Arena.isStep, hnode, Node.kind]
  rw [Pass.sendByRules_eq] at h
  rw [Node.operands, ← Form.rules_operands]
  refine Pass.spread_sendEach (fun a b g hab hg => hg.of_extends hab.kept)
    (fun rule hrule a k b hmade hk => ?_) h
  have hgrown := hkept.trans hmade.kept
  have hbase := Embedding.size_le_of_extends hgrown
  have hlater := hoffers.of_extends hmade.kept
  obtain ⟨hmaking, hcase, hzero⟩ := Arena.rule_ok hrule hbase hlater.usable hlater.isZero
    ⟨i, rfl, usable_of_reached hready hgrown hi⟩
    (fun x hx => usable_of_reached hready hgrown (hi.of_operand (by
      rw [Arena.operands_of_node? hnode]
      exact hx))) hk
  refine ⟨hmaking, ?_⟩
  obtain ⟨zero, hk⟩ : ∃ zero, π.Offers zero b k := by
    rcases hcase with rfl | ⟨zero, hnew⟩
    · exact ⟨false, hlater.of_extends hmaking.kept⟩
    · exact ⟨zero, .of_new hnew hbase⟩
  refine ⟨zero, hk, ?_⟩
  rw [← hk.isZero, hzero, ← hstep, and_iff_right hcarries]

/-- What is sent on from a live node. Of a zero leaf nothing is built. -/
theorem spread_forward (hready : π.Ready sh) (hi : π.Reached i) (hnode : π.arena.node? i = some n)
    {s t : Pass} {m : Node} (hkept : π.arena.Extends s.arena)
    (hoffers : ∃ zero, π.Offers zero s.arena g) (hm : s.arena.at? g = some m)
    (hzero : s.arena.isZero g = false ↔ π.Carries i)
    (h : Pass.forward live i g k n m.kind s = .ok () t) :
    Pass.Spread (Arena.Making π.arena.size π.Given) (Sends π i) live n.operands s t ∧
      (s.arena.isZero g = true → t.arena = s.arena) := by
  have hkind : s.arena.isZero g = (m.kind == .zero) := by
    simp [Arena.isZero, hm]
  simp only [Pass.forward] at h
  split at h
  · -- a parameter has no operands
    rename_i hparam
    have hnone : n.operands = [] := n.operands_of_param hparam
    cases h
    rw [hnone]
    exact ⟨⟨Std.Refl.refl _, rfl, fun _ _ hg => hg, fun _ _ hg => Or.inl hg, by simp⟩, fun _ => rfl⟩
  · split at h
    · rename_i hmkind
      have hgzero : s.arena.isZero g = true := by rw [hkind, hmkind, beq_self_eq_true]
      have hspread := spread_zero hoffers hgzero (fun hcarries => by
        rw [hzero.mpr hcarries] at hgzero
        cases hgzero) h
      exact ⟨⟨hspread.arena ▸ Std.Refl.refl _, hspread.grads, hspread.old, hspread.new,
        hspread.sent⟩, fun _ => hspread.arena.symm⟩
    · rename_i hmkind
      have hgzero : s.arena.isZero g = false := by rw [hkind, beq_eq_false_iff_ne.mpr hmkind]
      obtain ⟨zero, hoffers⟩ := hoffers
      obtain rfl : zero = false := hoffers.isZero.symm.trans hgzero
      exact ⟨spread_rules hready hi hnode hkept hoffers (hzero.mp hgzero) h, fun hgtrue => by
        rw [hgzero] at hgtrue
        cases hgtrue⟩

/-- An earlier entry or what is offered stays what it is. -/
theorem isZero_known (hready : π.Ready sh) {m : Nat} (hm : π.Reached m) {a : Arena}
    (hkept : π.arena.Extends a) (hgrown : a.Extends d)
    (hg : π.grads.get? m = some g ∨ ∃ zero, π.Offers zero a g) : d.isZero g = a.isZero g := by
  rcases hg with hearlier | ⟨zero, hoffers⟩
  · obtain ⟨node, hnode, -⟩ := hready.exists_node hm
    obtain ⟨j, o, rfl, ho, -⟩ := hready.entries m node g hnode hearlier
    exact Arena.isZero_of_extends hgrown (Arena.lt_size_of_node? (hkept j o ho))
  · exact hoffers.isZero_of_extends hgrown

/-- More than zero leaves has come to another live node if it had or if the node sends it. -/
theorem arrived_met (h : Tracing π (i :: rest) s) (htodo : π.Remaining (i :: rest))
    (hlive : ∀ j : Nat, (j : Int) ∈ live ↔ π.Live j) (hnode : π.arena.node? i = some n)
    (hgrown : s.arena.Extends t.arena) {u : Pass}
    (htaken : ∀ m, u.waiting m = if m = i then [] else s.waiting m)
    (hspread : Pass.Spread (Arena.Making π.arena.size π.Given) (Sends π i) live n.operands u t)
    {m : Nat} (hm : m ∈ rest) (hml : π.Live m) :
    (∃ g ∈ t.waiting m, t.arena.isZero g = false) ↔ π.Arrives rest m := by
  have hmi : m ≠ i := Nat.ne_of_lt (htodo.lt_head m hm)
  have hwait : u.waiting m = s.waiting m := (htaken m).trans (if_neg hmi)
  have hsame : ∀ g ∈ s.waiting m, t.arena.isZero g = s.arena.isZero g := by
    intro g hg
    obtain ⟨zero, hoffers⟩ := h.offered m g hg
    exact hoffers.isZero_of_extends hgrown
  have hcarriers : m ∈ π.arena.carriers i ↔ π.arena.isStep i = false ∧ m ∈ n.operands := by
    rw [Arena.mem_carriers, Arena.operands_of_node? hnode]
  rw [Plan.arrives_rest htodo, ← h.arrived m (List.mem_cons_of_mem i hm) hml, hcarriers]
  constructor
  · rintro ⟨g, hg, hzero⟩
    rcases hspread.new m g hg with hold | ⟨hmem, -, zero, hoffers, hsends⟩
    · rw [hwait] at hold
      exact Or.inl ⟨g, hold, (hsame g hold).symm.trans hzero⟩
    · obtain ⟨hcarries, hstep⟩ := hsends.mp (hoffers.isZero.symm.trans hzero)
      exact Or.inr ⟨hcarries, hstep, hmem⟩
  · rintro (⟨g, hg, hzero⟩ | ⟨hcarries, hstep, hmem⟩)
    · exact ⟨g, hspread.old m g (hwait ▸ hg), (hsame g hg).trans hzero⟩
    · obtain ⟨g, hg, zero, hoffers, hsends⟩ := hspread.sent m hmem ((hlive m).mpr hml)
      exact ⟨g, hg, hoffers.isZero.trans (hsends.mpr ⟨hcarries, hstep⟩)⟩

/-- A live node is met. -/
theorem met (h : Tracing π (i :: rest) s) (hready : π.Ready sh) (htodo : π.Remaining (i :: rest))
    (hlive : ∀ j : Nat, (j : Int) ∈ live ↔ π.Live j) (hi : π.Live i) (hwait : s.waiting i ≠ [])
    (hold : s.grads.get? i = π.grads.get? i) (hmeet : Pass.meet live i s = .ok () t) :
    Tracing π rest t := by
  obtain ⟨g, k, b, d, n, m, hsum, hadd, hn, hm, hforward⟩ :=
    Pass.exists_of_meet_ok ((hlive i).mpr hi) hwait hmeet
  obtain ⟨hsb, hg, hgzero, hstillb⟩ := h.sum_head hready htodo hi hsum
  obtain ⟨node, hnode, -⟩ := hready.exists_node hi.reached
  have hab := h.made.kept.trans hsb.kept
  obtain ⟨hbd, hk, hkzero, hstilld⟩ := total_head hready hnode hold hab hg hgzero hadd
  have had := hab.trans hbd.kept
  -- the node that is read is the one that was there from the start
  rw [Arena.at?_ofNat, had i node hnode] at hn
  obtain rfl := Option.some.inj hn
  have hgd : ∃ zero, π.Offers zero d g := hg.imp fun zero hoffers => hoffers.of_extends hbd.kept
  have hsame : d.isZero g = b.isZero g := by
    obtain ⟨zero, hoffers⟩ := hg
    exact hoffers.isZero_of_extends hbd.kept
  obtain ⟨hspread, hstillt⟩ := spread_forward hready hi.reached hnode had hgd hm
    (hsame ▸ hgzero) hforward
  have hst : Arena.Making π.arena.size π.Given s.arena t.arena :=
    IsTrans.trans _ _ _ (IsTrans.trans _ _ _ hsb hbd) hspread.arena
  have hentry : t.grads = s.grads.insert i k := hspread.grads
  have htaken : ∀ m, Pass.waiting ⟨d, s.grads.insert i k, s.pending.erase (i : Int), s.found⟩ m =
      if m = i then [] else s.waiting m := Pass.waiting_take s i
  have hkt := isZero_known hready hi.reached had hspread.arena.kept hk
  refine ⟨IsTrans.trans _ _ _ h.made hst, fun m g hgm => ?_, fun hseed => ?_, fun m hmem hml =>
    h.arrived_met htodo hlive hnode hst.kept htaken hspread hmem hml,
    fun j g hgj => ?_, fun m hml hnot => ?_⟩
  · rcases hspread.new m g hgm with hgm | ⟨-, -, zero, hoffers, -⟩
    · rw [htaken] at hgm
      split at hgm
      · cases hgm
      · exact (h.offered m g hgm).imp fun zero hoffers => hoffers.of_extends hst.kept
    · exact ⟨zero, hoffers⟩
  · have hb := hstillb hseed
    have hgtrue : d.isZero g = true := by
      rw [hsame, ← Bool.not_eq_false, hgzero]
      exact Plan.not_carries_of_seed hseed
    rw [hstillt hgtrue, hstilld hseed, hb, h.still hseed]
  · rw [hentry] at hgj
    by_cases hij : (i : Int) = j
    · subst hij
      rw [Sweeping.get?_insert_self] at hgj
      cases hgj
      exact hk.imp_right fun hoffers =>
        hoffers.imp fun zero hoffers => hoffers.of_extends hspread.arena.kept
    · rw [Sweeping.get?_insert_of_ne _ _ hij] at hgj
      exact (h.table j g hgj).imp_right fun hoffers =>
        hoffers.imp fun zero hoffers => hoffers.of_extends hst.kept
  · rw [hentry]
    by_cases hmi : m = i
    · subst hmi
      exact ⟨k, Sweeping.get?_insert_self _ _ _, hkt ▸ hkzero⟩
    · obtain ⟨g, hgm, hiff⟩ := h.entries m hml (List.not_mem_cons_of_ne_of_not_mem hmi hnot)
      refine ⟨g, ?_, (isZero_known hready hml.reached h.made.kept hst.kept
        (h.table m g hgm)) ▸ hiff⟩
      rw [Sweeping.get?_insert_of_ne _ _ (by simpa using Ne.symm hmi)]
      exact hgm

end Met

/-- Each step of the sweep goes on tracing. -/
theorem step (h : Tracing π (i :: rest) s) (hs : Sweeping F ρ π sh (i :: rest) s)
    (hready : π.Ready sh) (htodo : π.Remaining (i :: rest))
    (hlive : ∀ j : Nat, (j : Int) ∈ live ↔ π.Live j) (hmeet : Pass.meet live i s = .ok () t) :
    Tracing π rest t := by
  by_cases hi : π.Live i
  · exact h.met hready htodo hlive hi (hs.waiting_ne_nil hready htodo hi) hs.untouched_head hmeet
  · rw [Pass.meet_skip (Or.inr fun hmem => hi ((hlive i).mp hmem))] at hmeet
    cases hmeet
    exact h.skip htodo hi

/-- The whole sweep is traced. -/
theorem sweep {todo : List Nat} (h : Tracing π todo s) (hs : Sweeping F ρ π sh todo s)
    (hready : π.Ready sh) (htodo : π.Remaining todo)
    (hlive : ∀ j : Nat, (j : Int) ∈ live ↔ π.Live j) :
    ∃ t, (todo.map Int.ofNat).forM (Pass.meet live) s = .ok () t ∧ Tracing π [] t := by
  induction todo generalizing s with
  | nil => exact ⟨s, rfl, h⟩
  | cons i rest ih =>
    obtain ⟨t, hok, ht⟩ := hs.step hready htodo hlive
    obtain ⟨u, hrest, hu⟩ := ih (h.step hs hready htodo hlive hok) ht htodo.tail
    exact ⟨u, (forM_cons_of_ok (g := Pass.meet live) hok).trans hrest, hu⟩

theorem isZero_seed {todo : List Nat} (h : Tracing π todo s) (hready : π.Ready sh) :
    s.arena.isZero π.seed = π.arena.isZero π.seed := by
  obtain ⟨j, m, hj, hm, -⟩ := hready.seed
  rw [hj]
  exact Arena.isZero_of_extends h.made.kept (Arena.lt_size_of_node? hm)

/-- In an empty table, exactly the entries are zero leaves to which no more than that came down. -/
theorem isZero_entry_iff (h : Tracing π [] s) (hready : π.Ready sh)
    (hempty : ∀ i, π.grads.get? i = none) {n : Nat} (hn : π.Live n) :
    ∃ g, s.grads.get? n = some g ∧ (s.arena.isZero g = true ↔
      s.arena.isZero π.seed = true ∨ ¬Reaches π.arena.carriers π.output n) := by
  obtain ⟨g, hg, hzero⟩ := h.entries n hn (by simp)
  refine ⟨g, hg, ?_⟩
  simp only [hempty, reduceCtorEq, false_and, exists_false, or_false] at hzero
  rw [← Bool.not_eq_false, hzero, Plan.Carries, not_and_or, Bool.not_eq_false, h.isZero_seed hready]

/-- What has vanished is no operand of what is built. -/
theorem isZero_operand {todo : List Nat} (h : Tracing π todo s) (hready : π.Ready sh) {node : Node}
    (hi : π.arena.size ≤ i) (hnode : s.arena.node? i = some node) {x : Nat}
    (hx : x ∈ node.operands) (hcase : π.arena.size ≤ x ∨ (x : Int) = π.seed) :
    s.arena.isZero x = false := by
  rcases hcase with hnew | hseed
  · exact (h.made.operands i node hi hnode x hx).new hnew
  · rw [hseed, h.isZero_seed hready]
    by_contra htrue
    rw [Bool.not_eq_false] at htrue
    rw [h.still htrue] at hnode
    exact absurd (Arena.lt_size_of_node? hnode) (Nat.not_lt_of_le hi)

end Tracing

namespace Differentiation

variable {s : Differentiation} {output : Operand} {seed : Option Operand}
  {wrt : Option (List Operand)} {e : Expr} {node : Node} {y : Nat}

/-- An accepted pass is traced to its end. -/
theorem Accepts.backward_traced (h : Accepts s output seed wrt e node) (hy : e.index = y)
    (hready : (s.plan y node.shape seed wrt).Ready node.shape) :
    ∃ p count, backward output seed wrt s = .ok ⟨p.found.toList, count⟩
        ⟨p.arena, { s.context with arena := some e.arena, grads := p.grads }⟩ ∧
      Tracing (s.plan y node.shape seed wrt) [] p := by
  obtain ⟨targets, hasked, hrun⟩ := h.backward_eq_run hy
  obtain ⟨todo, live, hschedule, hlive, hsweep⟩ := run_of_sweep hready
    (c := { s.context with arena := some e.arena }) rfl hasked
  have hall := fun n => (hschedule.mem n).mpr
  -- that the sweep succeeds does not depend on the values
  have hsweeping : Sweeping (R := Int) ⟨id, id, id, id⟩ (fun _ => 0) _ _ todo _ :=
    sweeping_opening hready hall
  obtain ⟨p, hok, hp⟩ :=
    (Tracing.opening hready hall).sweep hsweeping hready hschedule.remaining hlive
  exact ⟨p, live.size, hrun.trans (hsweep p hok), hp⟩

end Differentiation

end TensorGraph
