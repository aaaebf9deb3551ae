import TensorGraph.Proofs.Gradient.Backward

/-!
# What passes add up to

A ledger keeps the passes that were carried out on a context. The entries of the context are those
of nodes that were live in one of them, and each is worth the sum of what the passes gave to it.
-/

namespace TensorGraph

/-- A pass that was carried out. -/
structure PassRecord where
  output : Nat
  seed : Nat
  /-- The parameters asked for. -/
  asked : Nat → Prop

section Gains

variable {R : Type} [CommRing R] (F : Functions R) (ρ : Nat → R)

open Classical in
/-- What a pass gives to a node: nothing unless the node is live. -/
noncomputable def PassRecord.gain (a : Arena) (n : Nat) (r : PassRecord) : R :=
  if a.Live r.asked r.output n then a.value F ρ r.seed * a.tangent F ρ n r.output else 0

/-- What passes give to a node. -/
noncomputable def Arena.gains (a : Arena) (n : Nat) (ledger : List PassRecord) : R :=
  (ledger.map (PassRecord.gain F ρ a n)).sum

end Gains

variable {R : Type} [CommRing R] {F : Functions R} {ρ : Nat → R}

namespace Arena

variable {a b : Arena} {grads : Table Int Int} {ledger : List PassRecord} {n : Nat}

/-- What a pass gave stays the same when the arena grows. -/
theorem gain_of_extends (ha : a.Regular) (hb : b.Regular) (hab : a.Extends b) {r : PassRecord}
    (hr : r.output < a.size ∧ r.seed < a.size) (n : Nat) : r.gain F ρ b n = r.gain F ρ a n := by
  obtain ⟨y, hy⟩ := exists_node? hr.1
  obtain ⟨g, hg⟩ := exists_node? hr.2
  have hlive : b.Live r.asked r.output n ↔ a.Live r.asked r.output n :=
    live_of_extends ha.wellFormed hab hr.1
  simp only [PassRecord.gain]
  by_cases hn : a.Live r.asked r.output n
  · rw [if_pos hn, if_pos (hlive.mpr hn), value_of_extends ha.wellFormed hb.wellFormed hab hg,
      tangent_of_extends ha.wellFormed hb.wellFormed hab hy]
  · rw [if_neg hn, if_neg fun hbn => hn (hlive.mp hbn)]

theorem lt_size_of_extends (hab : a.Extends b) (hn : n < a.size) : n < b.size := by
  obtain ⟨node, hnode⟩ := exists_node? hn
  exact lt_size_of_node? (hab n node hnode)

/-- Passes of nodes of an arena. -/
def Knows (a : Arena) (ledger : List PassRecord) : Prop :=
  ∀ r ∈ ledger, r.output < a.size ∧ r.seed < a.size

theorem Knows.of_extends (h : a.Knows ledger) (hab : a.Extends b) : b.Knows ledger := fun r hr =>
  ⟨lt_size_of_extends hab (h r hr).1, lt_size_of_extends hab (h r hr).2⟩

theorem Knows.gains_eq (h : a.Knows ledger) (ha : a.Regular) (hb : b.Regular)
    (hab : a.Extends b) (n : Nat) : b.gains F ρ n ledger = a.gains F ρ n ledger :=
  congrArg List.sum (List.map_congr_left fun r hr => gain_of_extends ha hb hab (h r hr) n)

theorem Knows.live_iff (h : a.Knows ledger) (ha : a.Regular) (hab : a.Extends b) (n : Nat) :
    (∃ r ∈ ledger, b.Live r.asked r.output n) ↔ ∃ r ∈ ledger, a.Live r.asked r.output n :=
  exists_congr fun r => and_congr_right fun hr => live_of_extends ha.wellFormed hab (h r hr).1

theorem Shaped.of_extends (h : a.Shaped grads) (hab : a.Extends b) : b.Shaped grads := by
  intro i g hg
  obtain ⟨n, node, hi, hn, hshape⟩ := h i g hg
  exact ⟨n, node, hi, hab n node hn, hshape.of_extends hab⟩

/-- The entries of a table are worth the same when the arena grows. -/
theorem Shaped.gradient_eq (h : a.Shaped grads) (ha : a.Regular) (hb : b.Regular)
    (hab : a.Extends b) (i : Int) : b.gradient F ρ grads i = a.gradient F ρ grads i := by
  refine gradient_of_extends ha hb hab fun g hg => ?_
  obtain ⟨n, node, -, -, hhas⟩ := h i g hg
  exact ⟨node.shape, hhas⟩

/-- A table has what the passes of a ledger gave. -/
structure Tally (F : Functions R) (ρ : Nat → R) (a : Arena) (grads : Table Int Int)
    (ledger : List PassRecord) : Prop where
  known : a.Knows ledger
  shaped : a.Shaped grads
  entry : ∀ n : Nat, (∃ g, grads.get? n = some g) ↔ ∃ r ∈ ledger, a.Live r.asked r.output n
  total : ∀ n : Nat, a.gradient F ρ grads n = a.gains F ρ n ledger

theorem Tally.of_extends (h : a.Tally F ρ grads ledger) (ha : a.Regular) (hb : b.Regular)
    (hab : a.Extends b) : b.Tally F ρ grads ledger where
  known := h.known.of_extends hab
  shaped := h.shaped.of_extends hab
  entry n := by rw [h.entry, h.known.live_iff ha hab]
  total n := by rw [h.shaped.gradient_eq ha hb hab, h.total, h.known.gains_eq ha hb hab]

/-- Nothing is kept before the first pass. -/
theorem tally_nil (h : ∀ i, grads.get? i = none) : a.Tally F ρ grads [] := by
  refine ⟨fun r hr => ?_, fun i g hg => ?_, fun n => ?_, fun n => ?_⟩
  · cases hr
  · rw [h] at hg
    cases hg
  · simp [h]
  · rw [gradient, h, gains]
    rfl

end Arena

namespace Sweeping

variable {π : Plan} {sh : Shape} {p : Pass} {n : Nat}

/-- Live nodes have entries after a pass. -/
theorem get?_live (h : Sweeping F ρ π sh [] p) (hn : π.Live n) :
    ∃ g, p.grads.get? n = some g ∧
      p.arena.Denotes F ρ sh g (π.arena.gradient F ρ π.grads n + π.gain F ρ n) :=
  h.settled n hn (by simp)

/-- Nodes that are not live keep their entries. -/
theorem get?_dead (h : Sweeping F ρ π sh [] p) {i : Int} (hi : ∀ n : Nat, i = n → ¬π.Live n) :
    p.grads.get? i = π.grads.get? i :=
  h.untouched i fun n hn => Or.inr (hi n hn)

theorem shaped (h : Sweeping F ρ π sh [] p) (hready : π.Ready sh)
    (hshaped : π.arena.Shaped π.grads) : p.arena.Shaped p.grads := by
  intro i g hg
  by_cases hi : ∃ n : Nat, i = n ∧ π.Live n
  · obtain ⟨n, rfl, hn⟩ := hi
    obtain ⟨node, hnode, hshape⟩ := hready.exists_node hn.reached
    obtain ⟨g', hg', hdenotes⟩ := h.get?_live hn
    have heq := Option.some.inj (hg'.symm.trans hg)
    subst heq
    exact ⟨n, node, rfl, h.kept n node hnode, hshape ▸ hdenotes.1⟩
  · rw [h.get?_dead fun n hn hlive => hi ⟨n, hn, hlive⟩] at hg
    obtain ⟨n, node, hn, hnode, hhas⟩ := hshaped i g hg
    exact ⟨n, node, hn, h.kept n node hnode, hhas.of_extends h.kept⟩

/-- A pass adds what it gives. -/
theorem gradient_add (h : Sweeping F ρ π sh [] p) (hready : π.Ready sh)
    (hshaped : π.arena.Shaped π.grads) (n : Nat) : p.arena.gradient F ρ p.grads n =
      PassRecord.gain F ρ π.arena n ⟨π.output, π.seed.toNat, π.asked⟩ +
        π.arena.gradient F ρ π.grads n := by
  simp only [PassRecord.gain]
  split
  · rename_i hn
    obtain ⟨g, hg, hdenotes⟩ := h.get?_live hn
    rw [Arena.gradient, hg, add_comm]
    exact hdenotes.2
  · rename_i hn
    rw [zero_add, ← hshaped.gradient_eq hready.regular h.valid.regular h.kept, Arena.gradient,
      Arena.gradient, h.get?_dead fun m hm => Int.natCast_inj.mp hm ▸ hn]

end Sweeping

/-- The record of a pass. -/
def Plan.record (π : Plan) : PassRecord := ⟨π.output, π.seed.toNat, π.asked⟩

theorem Plan.Ready.knows {π : Plan} {sh : Shape} (h : π.Ready sh) : π.arena.Knows [π.record] := by
  intro r hr
  rw [List.mem_singleton.mp hr]
  obtain ⟨k, m, hk, hm, -⟩ := h.seed
  refine ⟨h.output_lt, ?_⟩
  change π.seed.toNat < π.arena.size
  rw [hk]
  exact Arena.lt_size_of_node? hm

/-- After a pass the table has what the pass gave, too. -/
theorem Arena.Tally.pass {π : Plan} {sh : Shape} {p : Pass} {ledger : List PassRecord}
    (h : π.arena.Tally F ρ π.grads ledger) (hready : π.Ready sh) (hp : Sweeping F ρ π sh [] p) :
    p.arena.Tally F ρ p.grads (π.record :: ledger) := by
  have hknows : π.arena.Knows (π.record :: ledger) := by
    intro r hr
    rcases List.mem_cons.mp hr with rfl | hr
    · exact hready.knows _ (List.mem_singleton_self _)
    · exact h.known r hr
  refine ⟨hknows.of_extends hp.kept, hp.shaped hready h.shaped, fun n => ?_, fun n => ?_⟩
  · rw [hknows.live_iff hready.regular hp.kept]
    simp only [List.mem_cons, exists_eq_or_imp]
    rw [← h.entry]
    by_cases hn : π.Live n
    · obtain ⟨g, hg, -⟩ := hp.get?_live hn
      exact iff_of_true ⟨g, hg⟩ (Or.inl hn)
    · rw [hp.get?_dead fun m hm => Int.natCast_inj.mp hm ▸ hn]
      exact (or_iff_right hn).symm
  · rw [hp.gradient_add hready h.shaped, h.total, hknows.gains_eq hready.regular
      hp.valid.regular hp.kept]
    rfl

end TensorGraph
