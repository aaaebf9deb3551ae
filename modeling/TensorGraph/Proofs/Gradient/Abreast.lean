import TensorGraph.Proofs.Gradient.Backward
import TensorGraph.Proofs.Gradient.Shadow

/-!
# Passes abreast

Two passes go through corresponding nodes in the same order, the second one perhaps through more
live ones, and perhaps with entries that earlier passes left. They give corresponding gradients to
the live nodes of the first, and each adds them to what its own table had.
-/

namespace TensorGraph

/-- A plan in another one, whose output and seed have their places there. -/
structure Plan.Within (π : Plan) (E : Embedding) (sh : Shape) (π' : Plan) : Prop where
  inner : E.inner = π.arena
  outer : E.outer = π'.arena
  ready : π.Ready sh
  ready' : π'.Ready sh
  output : π'.output = E.place π.output
  seed : E.Matches π.seed π'.seed
  asked : ∀ p < E.inner.size, π.asked p → π'.asked (E.place p)
  entries : ∀ n, π.Live n → π.grads.get? n = none ∨
    Option.Rel E.Matches (π.grads.get? n) (π'.grads.get? (E.place n))

namespace Plan.Within

variable {E : Embedding} {sh : Shape} {π π' : Plan} {n : Nat} {todo todo' : List Nat}

theorem lt_size (h : π.Within E sh π') (hn : π.Reached n) : n < E.inner.size := by
  rw [h.inner]
  exact Nat.lt_of_le_of_lt (h.ready.le_output hn) h.ready.output_lt

theorem reached (h : π.Within E sh π') (m : Nat) :
    π'.Reached m ↔ ∃ n, π.Reached n ∧ E.place n = m := by
  have hplace := Embedding.reaches_place (m := m) (h.lt_size (.refl π.output))
  rw [← h.output, h.inner, h.outer] at hplace
  exact hplace

theorem live (h : π.Within E sh π') (hn : π.Live n) : π'.Live (E.place n) := by
  refine ⟨(h.reached _).mpr ⟨n, hn.reached, rfl⟩, ?_⟩
  rw [← h.outer]
  refine Embedding.leads_place h.asked (h.lt_size hn.reached) ?_
  rw [h.inner]
  exact hn.2

/-- When the second plan asks for no more, no more is live in it. -/
theorem live_of_place (h : π.Within E sh π')
    (hasked : ∀ p < E.inner.size, π'.asked (E.place p) → π.asked p) (hn : n < E.inner.size)
    (hlive : π'.Live (E.place n)) : π.Live n := by
  obtain ⟨hr, hleads⟩ := hlive
  constructor
  · obtain ⟨m, hm, heq⟩ := (h.reached _).mp hr
    exact Embedding.place_injective (h.lt_size hm) hn heq ▸ hm
  · rw [← h.outer] at hleads
    rw [← h.inner]
    exact (Embedding.leads_place_iff (fun p hp => ⟨h.asked p hp, hasked p hp⟩) hn).mp hleads

/-- Corresponding nodes are met in the same order. -/
theorem schedule (h : π.Within E sh π') (htodo : π.Schedule todo) (htodo' : π'.Schedule todo') :
    todo' = todo.map E.place := by
  rw [← List.reverse_inj, ← List.map_reverse]
  refine eq_map_of_mem_iff (List.pairwise_reverse.mpr htodo.descending)
    (List.pairwise_reverse.mpr htodo'.descending) (fun i _ j hj hij => ?_) fun m => ?_
  · exact E.ascending hij (h.lt_size ((htodo.mem j).mp (List.mem_reverse.mp hj)))
  · simp only [List.mem_reverse, htodo.mem, htodo'.mem, h.reached]

end Plan.Within

/-- Corresponding gradients were given to a node and its place, each added to what was there. -/
def Plan.Settled (π π' : Plan) (E₀ E : Embedding) (base n : Nat) (s t : Pass) : Prop :=
  ∃ g h k k' : Int, E.Matches g h ∧ s.grads.get? n = some k ∧
    t.grads.get? (E₀.place n : Nat) = some k' ∧
    E.inner.Adds base (π.grads.get? n) g k ∧
    E.outer.Adds base (π'.grads.get? (E₀.place n : Nat)) h k' ∧
    (Option.Rel E₀.Matches (π.grads.get? n) (π'.grads.get? (E₀.place n : Nat)) → E.Matches k k')

/-- Two passes under way, with nodes left to be met by both. -/
structure Abreast (E₀ : Embedding) (π π' : Plan) (base : Nat) (todo : List Nat) (E : Embedding)
    (s t : Pass) : Prop where
  grown : E₀.Extends E
  shadows : Pass.Shadows E π.Live s t
  settled : ∀ n, π.Live n → n ∉ todo → π.Settled π' E₀ E base n s t

namespace Abreast

variable {E₀ E F : Embedding} {sh : Shape} {π π' : Plan} {base i : Nat} {todo rest : List Nat}
  {s t s' t' : Pass}

theorem has_of_entry (hready : π.Ready sh) {n : Nat} (hn : π.Reached n) {a : Arena}
    (hkept : π.arena.Extends a) : ∀ o ∈ π.grads.get? n, ∃ i < a.size, o = (i : Nat) := by
  intro o ho
  obtain ⟨node, hnode, -⟩ := hready.exists_node hn
  obtain ⟨i, m, rfl, hm, -⟩ := (hready.entries n node o hnode ho).of_extends hkept
  exact ⟨i, Arena.lt_size_of_node? hm, rfl⟩

/-- What was settled stays so as long as the entries are not written. -/
theorem settled_mono (hw : π.Within E₀ sh π') (hEF : E.Extends F) (hgrown : E₀.Extends E) {n : Nat}
    (hn : π.Live n) (hs : s'.grads.get? n = s.grads.get? n)
    (ht : t'.grads.get? (E₀.place n : Nat) = t.grads.get? (E₀.place n : Nat))
    (h : π.Settled π' E₀ E base n s t) : π.Settled π' E₀ F base n s' t' := by
  obtain ⟨g, h, k, k', hgh, hk, hk', hadds, hadds', hmatches⟩ := h
  obtain ⟨i, hi, rfl, rfl⟩ := id hgh
  refine ⟨_, _, k, k', hgh.mono hEF, hs.trans hk, ht.trans hk', ?_, ?_, fun hold =>
    (hmatches hold).mono hEF⟩
  · refine hadds.of_extends hEF.inner (has_of_entry hw.ready hn.reached ?_) ⟨i, hi, rfl⟩
    exact hw.inner ▸ hgrown.inner
  · refine hadds'.of_extends hEF.outer (has_of_entry hw.ready' (hw.live hn).reached ?_)
      ⟨_, Embedding.place_lt hi, rfl⟩
    exact hw.outer ▸ hgrown.outer

section Step

variable {R : Type} [CommRing R] {Φ : Functions R} {ρ : Nat → R} {L L' : Std.HashSet Int}

/-- What was settled before a node is met stays so. -/
theorem settled_of_ne (h : Abreast E₀ π π' base (i :: rest) E s t) (hw : π.Within E₀ sh π')
    (hEF : E.Extends F) (hi : i < E₀.inner.size) (hs : Pass.meet L i s = .ok () s')
    (ht : Pass.meet L' (E₀.place i : Nat) t = .ok () t') {n : Nat} (hn : π.Live n) (hni : n ≠ i)
    (hnr : n ∉ rest) : π.Settled π' E₀ F base n s' t' := by
  have hmem : n ∉ i :: rest := by simp [hni, hnr]
  refine settled_mono hw hEF h.grown hn ?_ ?_ (h.settled n hn hmem)
  · exact Pass.get?_of_meet_ok hs fun heq => hni (Int.natCast_inj.mp heq).symm
  · refine Pass.get?_of_meet_ok ht fun heq => hni ?_
    exact (Embedding.place_injective hi (hw.lt_size hn.reached) (Int.natCast_inj.mp heq)).symm

/-- A node that is not live in the first pass may be in the second one. -/
theorem skip (h : Abreast E₀ π π' base (i :: rest) E s t) (hw : π.Within E₀ sh π')
    (hreached : π.Reached i) (hi : ¬π.Live i) (hL : ∀ j : Nat, (j : Int) ∈ L ↔ π.Live j)
    (hs : Pass.meet L i s = .ok () s') (ht : Pass.meet L' (E₀.place i : Nat) t = .ok () t') :
    ∃ F, Abreast E₀ π π' base rest F s' t' := by
  have hlt := hw.lt_size hreached
  have hplace := h.grown.place i hlt
  have hsize : i < E.inner.size :=
    Nat.lt_of_lt_of_le hlt (Embedding.size_le_of_extends h.grown.inner)
  obtain ⟨n, hn⟩ := Arena.exists_node? hsize
  have hne : ∀ {m}, π.Live m → m ≠ i := fun hm heq => hi (heq ▸ hm)
  have hskip := Pass.meet_skip (s := s) (Or.inr fun hmem => hi ((hL i).mp hmem))
  cases hs.symm.trans hskip
  -- operands of a node that is not live are not live
  have hoperand : ∀ m, π.Live m → m ∉ n.operands := by
    intro m hm hmem
    rw [← Arena.operands_of_node? hn, Arena.operands_of_extends h.grown.inner hlt, hw.inner] at hmem
    exact hi (hm.of_operand hreached hmem)
  have hwait : ∀ m, π.Live m → t'.waiting (E.place m) = t.waiting (E.place m) := by
    intro m hm
    have hmlt := h.shadows.lt m hm
    have hplaces : ∀ x < E.inner.size, E.place m = E.place x → m = x := fun x hx heq =>
      Embedding.place_injective hmlt hx heq
    refine Pass.waiting_of_meet_ok (i := E₀.place i) (n := n.rename E.place) ?_ ht ?_ ?_
    · rw [← hplace, ← h.shadows.outer]
      exact E.node hn
    · rw [← hplace]
      exact fun heq => hne hm (hplaces i hsize heq)
    · rw [Node.operands_rename, List.mem_map]
      rintro ⟨c, hc, heq⟩
      have hclt := Nat.lt_trans (E.wellFormed i n hn c hc) hsize
      exact hoperand m hm (hplaces c hclt heq.symm ▸ hc)
  obtain ⟨F, hEF, hshadows⟩ := h.shadows.alone ((Pass.meet_keeps L' _).of_ok ht).1.1 hwait
  refine ⟨F, h.grown.trans hEF, hshadows.mono (.refl F) hshadows.inner hshadows.outer ?_
    fun _ _ => rfl, fun m hm hmr => h.settled_of_ne hw hEF hlt hs ht hm (hne hm) hmr⟩
  exact fun m hm => (Pass.waiting_take s i m).trans (if_neg (hne hm))

/-- A live node is met in both passes. -/
theorem met (h : Abreast E₀ π π' base (i :: rest) E s t) (hw : π.Within E₀ sh π')
    (hi : π.Live i) (hbase : base ≤ E₀.inner.size) (hwait : s.waiting i ≠ [])
    (hold : s.grads.get? i = π.grads.get? i)
    (hold' : t.grads.get? (E₀.place i : Nat) = π'.grads.get? (E₀.place i : Nat))
    (hL : ∀ j : Nat, (j : Int) ∈ L ↔ π.Live j) (hL' : ∀ j : Nat, (j : Int) ∈ L' ↔ π'.Live j)
    (hs : Pass.meet L i s = .ok () s') (ht : Pass.meet L' (E₀.place i : Nat) t = .ok () t') :
    ∃ F, Abreast E₀ π π' base rest F s' t' := by
  have hlt := hw.lt_size hi.reached
  have hplace := h.grown.place i hlt
  have hbase' := hbase.trans (Embedding.size_le_of_extends h.grown.inner)
  have hplaces : ∀ x, π.Live x → (E.place x : Int) ∈ L' := by
    intro x hx
    rw [h.grown.place x (hw.lt_size hx.reached)]
    exact (hL' _).mpr (hw.live hx)
  have hentries := (hw.entries i hi).imp_right (Embedding.rel_mono h.grown)
  rw [← hold, ← hold', ← hplace] at hentries
  rw [← hplace] at ht
  obtain ⟨F, G, g, g', k, k', hEF, hFG, hshadows, hmet⟩ :=
    h.shadows.meet hL hplaces hi hwait hbase' hentries hs ht
  have hEG := hEF.trans hFG
  have hgrown := h.grown.trans hEF
  refine ⟨G, h.grown.trans hEG, hshadows, fun m hm hmr => ?_⟩
  rw [hplace] at ht
  by_cases hmi : m = i
  · subst hmi
    obtain ⟨y, hy, hgy, hgy'⟩ := id hmet.given
    have hadds := hmet.adds
    have hadds' := hmet.adds'
    have hgrads' := hmet.grads'
    have hmatches := hmet.entries
    rw [hold] at hadds hmatches
    rw [hplace, hold'] at hadds' hmatches
    rw [hplace] at hgrads'
    refine ⟨g, g', k, k', hmet.given.mono hFG, ?_, ?_, ?_, ?_, fun hrel =>
      (hmatches (Embedding.rel_mono h.grown hrel)).mono hFG⟩
    · rw [hmet.grads, Sweeping.get?_insert_self]
    · rw [hgrads', Sweeping.get?_insert_self]
    · refine hadds.of_extends hFG.inner (has_of_entry hw.ready hi.reached ?_) ⟨y, hy, hgy⟩
      exact hw.inner ▸ hgrown.inner
    · refine hadds'.of_extends hFG.outer (has_of_entry hw.ready' (hw.live hi).reached ?_)
        ⟨_, Embedding.place_lt hy, hgy'⟩
      exact hw.outer ▸ hgrown.outer
  · exact h.settled_of_ne hw hEG hlt hs ht hm hmi hmr

/-- The next node is met in both passes. -/
theorem step (h : Abreast E₀ π π' base (i :: rest) E s t) (hw : π.Within E₀ sh π')
    (hbase : base ≤ E₀.inner.size) (hsweep : Sweeping Φ ρ π sh (i :: rest) s)
    (hsweep' : Sweeping Φ ρ π' sh ((i :: rest).map E₀.place) t) (htodo : π.Remaining (i :: rest))
    (hL : ∀ j : Nat, (j : Int) ∈ L ↔ π.Live j) (hL' : ∀ j : Nat, (j : Int) ∈ L' ↔ π'.Live j)
    (hs : Pass.meet L i s = .ok () s') (ht : Pass.meet L' (E₀.place i : Nat) t = .ok () t') :
    ∃ F, Abreast E₀ π π' base rest F s' t' := by
  by_cases hi : π.Live i
  · exact h.met hw hi hbase (hsweep.waiting_ne_nil hw.ready htodo hi) hsweep.untouched_head
      hsweep'.untouched_head hL hL' hs ht
  · exact h.skip hw (htodo.reached i (List.mem_cons_self ..)) hi hL hs ht

/-- Both passes are carried out to their ends. -/
theorem sweep (h : Abreast E₀ π π' base todo E s t) (hw : π.Within E₀ sh π')
    (hbase : base ≤ E₀.inner.size) (hsweep : Sweeping Φ ρ π sh todo s)
    (hsweep' : Sweeping Φ ρ π' sh (todo.map E₀.place) t) (htodo : π.Remaining todo)
    (htodo' : π'.Remaining (todo.map E₀.place)) (hL : ∀ j : Nat, (j : Int) ∈ L ↔ π.Live j)
    (hL' : ∀ j : Nat, (j : Int) ∈ L' ↔ π'.Live j) :
    ∃ F s' t', (todo.map Int.ofNat).forM (Pass.meet L) s = .ok () s' ∧
      ((todo.map E₀.place).map Int.ofNat).forM (Pass.meet L') t = .ok () t' ∧
      Sweeping Φ ρ π sh [] s' ∧ Sweeping Φ ρ π' sh [] t' ∧ Abreast E₀ π π' base [] F s' t' := by
  induction todo generalizing E s t with
  | nil => exact ⟨E, s, t, rfl, rfl, hsweep, hsweep', h⟩
  | cons i rest ih =>
    obtain ⟨s₁, hs, hsweep₁⟩ := hsweep.step hw.ready htodo hL
    obtain ⟨t₁, ht, hsweep₁'⟩ := hsweep'.step hw.ready' htodo' hL'
    obtain ⟨F, h₁⟩ := h.step hw hbase hsweep hsweep' htodo hL hL' hs ht
    obtain ⟨G, s₂, t₂, hs₂, ht₂, h₂⟩ := ih h₁ hsweep₁ hsweep₁' htodo.tail htodo'.tail
    exact ⟨G, s₂, t₂, (forM_cons_of_ok (g := Pass.meet L) hs).trans hs₂,
      (forM_cons_of_ok (g := Pass.meet L') ht).trans ht₂, h₂⟩

end Step

/-- At the start only corresponding seeds wait, at corresponding outputs. -/
theorem opening (hw : π.Within E₀ sh π') (hall : ∀ n, π.Live n → n ∈ todo) :
    Abreast E₀ π π' base todo E₀ (Differentiation.opening π) (Differentiation.opening π') := by
  refine ⟨.refl E₀, ⟨hw.inner, hw.outer, fun m hm => hw.lt_size hm.reached, fun m hm => ?_⟩,
    fun n hn hnot => absurd (hall n hn) hnot⟩
  rw [Differentiation.waiting_opening, Differentiation.waiting_opening, hw.output]
  by_cases houtput : m = π.output
  · rw [if_pos houtput, if_pos (congrArg _ houtput)]
    exact .cons hw.seed .nil
  · rw [if_neg houtput, if_neg fun heq => houtput ?_]
    · exact .nil
    · exact Embedding.place_injective (hw.lt_size hm.reached) (hw.lt_size (.refl _)) heq

/-- Where nothing was before, the entries of a node and its place unfold to the same. -/
theorem unfold_eq (h : Abreast E₀ π π' base [] E s t) (hbase : base ≤ E₀.inner.size)
    (hplace : ∀ i < base, E₀.place i = i) {n : Nat} (hn : π.Live n)
    (hnone : π.grads.get? n = none) (hnone' : π'.grads.get? (E₀.place n : Nat) = none) :
    ∃ m m' : Nat, s.grads.get? n = some (m : Int) ∧
      t.grads.get? (E₀.place n : Nat) = some (m' : Int) ∧
      t.arena.unfold base m' = s.arena.unfold base m := by
  obtain ⟨g, g', k, k', -, hk, hk', -, -, hmatches⟩ := h.settled n hn (by simp)
  rw [hnone, hnone'] at hmatches
  obtain ⟨i, hi, rfl, rfl⟩ := hmatches .none
  refine ⟨i, E.place i, hk, hk', ?_⟩
  rw [← h.shadows.inner, ← h.shadows.outer]
  refine Embedding.unfold_place (fun x hx => ?_) hi
  rw [h.grown.place x (Nat.lt_of_lt_of_le hx hbase), hplace x hx]

end Abreast

/-- A plan and a plan that it is in are carried out to their ends. What the first gives to its live
nodes the second gives to their places. -/
theorem Plan.Within.run_ok {R : Type} [CommRing R] (Φ : Functions R) (ρ : Nat → R) {E : Embedding}
    {sh : Shape} {π π' : Plan} (hw : π.Within E sh π') {base : Nat} (hbase : base ≤ E.inner.size)
    {c d : Context} (hc : c.grads = π.grads) (hd : d.grads = π'.grads)
    {targets targets' : Option (Std.HashSet Int)}
    (hasked : ∀ p, π.asked p ↔ Arena.AskedIn targets p)
    (hasked' : ∀ p, π'.asked p ↔ Arena.AskedIn targets' p) :
    ∃ F s t count count', Differentiation.run π.output π.seed targets ⟨π.arena, c⟩ =
        .ok ⟨s.found.toList, count⟩ ⟨s.arena, { c with grads := s.grads }⟩ ∧
      Differentiation.run π'.output π'.seed targets' ⟨π'.arena, d⟩ =
        .ok ⟨t.found.toList, count'⟩ ⟨t.arena, { d with grads := t.grads }⟩ ∧
      Sweeping Φ ρ π sh [] s ∧ Sweeping Φ ρ π' sh [] t ∧ Abreast E π π' base [] F s t := by
  obtain ⟨todo, L, hschedule, hL, hrun⟩ :=
    Differentiation.run_of_sweep hw.ready hc hasked
  obtain ⟨todo', L', hschedule', hL', hrun'⟩ :=
    Differentiation.run_of_sweep hw.ready' hd hasked'
  obtain rfl := hw.schedule hschedule hschedule'
  have hopening : Sweeping Φ ρ π sh todo _ :=
    Differentiation.sweeping_opening hw.ready fun n => (hschedule.mem n).mpr
  have hopening' : Sweeping Φ ρ π' sh (todo.map E.place) _ :=
    Differentiation.sweeping_opening hw.ready' fun n => (hschedule'.mem n).mpr
  obtain ⟨F, s, t, hs, ht, habreast⟩ :=
    (Abreast.opening hw fun n hn => (hschedule.mem n).mpr hn.reached).sweep hw hbase hopening
      hopening' hschedule.remaining hschedule'.remaining hL hL'
  exact ⟨F, s, t, L.size, L'.size, hrun s hs, hrun' t ht, habreast⟩

/-- Accepted passes whose plans correspond are carried out abreast. -/
theorem Differentiation.Accepts.backward_abreast {R : Type} [CommRing R] (Φ : Functions R)
    (ρ : Nat → R) {s s' : Differentiation} {output output' : Operand} {seed seed' : Option Operand}
    {wrt wrt' : Option (List Operand)} {e e' : Expr} {n n' : Node} {y y' : Nat}
    (h : Accepts s output seed wrt e n) (h' : Accepts s' output' seed' wrt' e' n')
    (hy : e.index = y) (hy' : e'.index = y') {E : Embedding} {sh : Shape}
    (hw : (s.plan y n.shape seed wrt).Within E sh (s'.plan y' n'.shape seed' wrt')) {base : Nat}
    (hbase : base ≤ E.inner.size) :
    ∃ F p p' count count', backward output seed wrt s = .ok ⟨p.found.toList, count⟩
        ⟨p.arena, { s.context with arena := some e.arena, grads := p.grads }⟩ ∧
      backward output' seed' wrt' s' = .ok ⟨p'.found.toList, count'⟩
        ⟨p'.arena, { s'.context with arena := some e'.arena, grads := p'.grads }⟩ ∧
      Sweeping Φ ρ (s.plan y n.shape seed wrt) sh [] p ∧
      Sweeping Φ ρ (s'.plan y' n'.shape seed' wrt') sh [] p' ∧
      Abreast E (s.plan y n.shape seed wrt) (s'.plan y' n'.shape seed' wrt') base [] F p p' := by
  obtain ⟨targets, hasked, hrun⟩ := h.backward_eq_run hy
  obtain ⟨targets', hasked', hrun'⟩ := h'.backward_eq_run hy'
  rw [hrun, hrun']
  exact hw.run_ok Φ ρ hbase (c := { s.context with arena := some e.arena })
    (d := { s'.context with arena := some e'.arena }) rfl rfl hasked hasked'

end TensorGraph
