import TensorGraph.Proofs.Gradient.Acceptance
import TensorGraph.Proofs.Gradient.Sweep

/-!
# Backward passes

A pass whose arguments are accepted is carried out to its end, whatever earlier passes left: from an
arena that operators built, with entries that have the shapes of their nodes, no step fails.
-/

namespace TensorGraph

/-- Arenas give out natural indices only. -/
def Operand.Natural (o : Operand) : Prop := ∀ e, o = .expr e → 0 ≤ e.index

/-- The entries of a table are for nodes of the arena and have their shapes. -/
def Arena.Shaped (a : Arena) (grads : Table Int Int) : Prop :=
  ∀ i g : Int, grads.get? i = some g →
    ∃ (n : Nat) (node : Node), i = n ∧ a.node? n = some node ∧ a.Has node.shape g

namespace Differentiation

variable {R : Type} [CommRing R] {F : Functions R} {ρ : Nat → R}

/-- The state in which the sweep of a pass starts. -/
def opening (π : Plan) : Pass :=
  ⟨π.arena, π.grads, (∅ : Std.HashMap Int (List Int)).insert (π.output : Int) [π.seed], #[]⟩

theorem waiting_opening (π : Plan) (m : Nat) :
    (opening π).waiting m = if m = π.output then [π.seed] else [] := by
  simp only [opening, Pass.waiting, Std.HashMap.getD_insert]
  by_cases h : m = π.output
  · simp [h]
  · simp [h, Ne.symm h]

/-- Before the first node is met, only the seed waits, at the output. -/
theorem sweeping_opening {π : Plan} {sh : Shape} (hready : π.Ready sh) {todo : List Nat}
    (hall : ∀ n, π.Reached n → n ∈ todo) : Sweeping F ρ π sh todo (opening π) := by
  have hwait := waiting_opening π
  refine ⟨Arena.Extends.refl π.arena, ⟨hready.regular, ?_⟩, ?_, ?_, ?_, ?_, fun _ _ => rfl, ?_, ?_⟩
  · intro m g hg
    rw [hwait] at hg
    split at hg
    · rw [List.mem_singleton.mp hg]
      exact hready.seed
    · cases hg
  · intro m hm
    rw [hwait] at hm
    split at hm
    · rename_i heq
      exact ⟨hall m (heq ▸ .refl _), Or.inr heq⟩
    · exact absurd rfl hm
  · rintro m hm hlive (rfl | ⟨u, hu, hnot, -⟩)
    · rw [hwait, if_pos rfl]
      exact List.cons_ne_nil _ _
    · exact absurd (hall u hu) hnot
  · intro n hn hlive
    rw [Pass.flow, Finset.sum_eq_single π.output]
    · rw [Pass.weight, hwait, if_pos rfl, Arena.total, List.map_singleton, List.sum_singleton]
      rfl
    · intro m _ hm
      rw [Pass.weight, hwait, if_neg hm, Arena.total, List.map_nil, List.sum_nil, zero_mul]
    · intro hnot
      exact absurd (Finset.mem_range.mpr (Nat.lt_succ_self _)) hnot
  · exact fun n hlive hnot => absurd (hall n hlive.reached) hnot
  · intro i g
    constructor
    · intro hmem
      cases hmem
    · rintro ⟨n, -, hnot, hlive, -⟩
      exact absurd (hall n hlive.reached) hnot
  · exact List.Pairwise.nil

/-- The order of a pass has what the output reaches, and its marks are the live nodes. -/
theorem exists_schedule {π : Plan} {sh : Shape} (hready : π.Ready sh)
    {targets : Option (Std.HashSet Int)} (hasked : ∀ p, π.asked p ↔ Arena.AskedIn targets p) :
    ∃ order : List Nat, π.arena.toposort? π.output = some (order.map Int.ofNat) ∧
      π.Schedule order.reverse ∧
      ∀ j : Nat, (j : Int) ∈ π.arena.live targets (order.map Int.ofNat) ↔ π.Live j := by
  have hwell := hready.regular.wellFormed
  obtain ⟨node, hnode, -⟩ := hready.exists_node (.refl π.output)
  obtain ⟨order, horder, hasc, hmem⟩ := Arena.toposort?_spec hwell hnode
  refine ⟨order, horder, ⟨List.pairwise_reverse.mpr hasc, fun m =>
    List.mem_reverse.trans (hmem m)⟩, fun j => ?_⟩
  rw [Arena.mem_live_of_toposort? hwell targets hready.output_lt hasc hmem]
  refine and_congr_right fun _ => exists_congr fun p => ?_
  rw [← hasked]

/-- A pass meets all that its output reaches, from the top down. -/
theorem run_of_sweep {π : Plan} {sh : Shape} (hready : π.Ready sh) {c : Context}
    (hc : c.grads = π.grads) {targets : Option (Std.HashSet Int)}
    (hasked : ∀ p, π.asked p ↔ Arena.AskedIn targets p) :
    ∃ (todo : List Nat) (live : Std.HashSet Int), π.Schedule todo ∧
      (∀ j : Nat, (j : Int) ∈ live ↔ π.Live j) ∧
      ∀ s, (todo.map Int.ofNat).forM (Pass.meet live) (opening π) = .ok () s →
        run π.output π.seed targets ⟨π.arena, c⟩ =
          .ok ⟨s.found.toList, live.size⟩ ⟨s.arena, { c with grads := s.grads }⟩ := by
  obtain ⟨order, horder, hschedule, hlive⟩ := exists_schedule hready hasked
  refine ⟨order.reverse, _, hschedule, hlive, fun s hok => ?_⟩
  simp only [run]
  rw [horder]
  dsimp only
  rw [← List.map_reverse, hc]
  rw [opening] at hok
  rw [hok]

/-- A pass that is ready is carried out to its end. -/
theorem run_ok {π : Plan} {sh : Shape} (hready : π.Ready sh) {c : Context} (hc : c.grads = π.grads)
    {targets : Option (Std.HashSet Int)} (hasked : ∀ p, π.asked p ↔ Arena.AskedIn targets p) :
    ∃ s count, run π.output π.seed targets ⟨π.arena, c⟩ =
        .ok ⟨s.found.toList, count⟩ ⟨s.arena, { c with grads := s.grads }⟩ ∧
      Sweeping F ρ π sh [] s := by
  obtain ⟨todo, live, hschedule, hlive, hrun⟩ := run_of_sweep hready hc hasked
  have hopening : Sweeping F ρ π sh todo (opening π) :=
    sweeping_opening hready fun n => (hschedule.mem n).mpr
  obtain ⟨s, hok, hs⟩ := hopening.sweep hready hschedule.remaining hlive
  exact ⟨s, live.size, hrun s hok, hs⟩

/-! ### Accepted passes -/

/-- What an accepted pass is carried out on, for an output that is node `y` of shape `sh`. -/
def plan (s : Differentiation) (y : Nat) (sh : Shape) (seed : Option Operand)
    (wrt : Option (List Operand)) : Plan :=
  ⟨seeded s.arena sh seed, s.context.grads, y, seedIndex s.arena seed, AskedFor wrt⟩

theorem extends_seeded (a : Arena) (sh : Shape) (seed : Option Operand) :
    a.Extends (seeded a sh seed) := by
  cases seed with
  | none => exact Arena.extends_push a _
  | some o => exact Arena.Extends.refl a

theorem regular_seeded {a : Arena} (h : a.Regular) (sh : Shape) (seed : Option Operand) :
    (seeded a sh seed).Regular := by
  cases seed with
  | none =>
    apply Arena.regular_push h
    intro c hc
    cases hc
  | some o => exact h

/-- The seed of an accepted pass has the shape of the output. -/
theorem has_seed {a : Arena} {k : ArenaId} {sh : Shape} {seed : Option Operand}
    (h : SeedFits a k sh seed) (hnatural : ∀ o, seed = some o → o.Natural) :
    (seeded a sh seed).Has sh (seedIndex a seed) := by
  cases seed with
  | none => exact Arena.has_push
  | some o =>
    obtain ⟨g, m, rfl, hm, hshape⟩ := h o rfl
    obtain ⟨i, rfl⟩ := Int.eq_ofNat_of_zero_le (hnatural _ rfl _ rfl)
    rw [Arena.at?_ofNat] at hm
    exact ⟨i, m, rfl, hm, hshape⟩

variable {s : Differentiation} {output : Operand} {seed : Option Operand}
  {wrt : Option (List Operand)} {e : Expr} {node : Node} {y : Nat}

theorem Accepts.ready (h : Accepts s output seed wrt e node) (hy : e.index = y)
    (hnatural : ∀ o, seed = some o → o.Natural) (hregular : s.arena.Regular)
    (hshaped : s.arena.Shaped s.context.grads) :
    (s.plan y node.shape seed wrt).Ready node.shape := by
  have hkept := extends_seeded s.arena node.shape seed
  have hnode := h.node
  rw [hy, Arena.at?_ofNat] at hnode
  refine ⟨regular_seeded hregular _ _, ⟨y, node, rfl, hkept y node hnode, rfl⟩,
    has_seed h.fits hnatural, fun n m g hm hg => ?_⟩
  obtain ⟨n', m', hn, hm', hg'⟩ := hshaped n g hg
  rw [← Int.natCast_inj.mp hn] at hm'
  have heq := (hkept n m' hm').symm.trans hm
  cases heq
  exact hg'.of_extends hkept

/-- An accepted pass is run on its plan. -/
theorem Accepts.backward_eq_run (h : Accepts s output seed wrt e node) (hy : e.index = y) :
    ∃ targets, (∀ p, (s.plan y node.shape seed wrt).asked p ↔ Arena.AskedIn targets p) ∧
      backward output seed wrt s =
        run (s.plan y node.shape seed wrt).output (s.plan y node.shape seed wrt).seed targets
          ⟨(s.plan y node.shape seed wrt).arena, { s.context with arena := some e.arena }⟩ := by
  rcases backward_cases output seed wrt s with
    ⟨e', n, targets, haccepts, hasked, hrun⟩ | ⟨hno, -⟩
  · have he := Operand.expr.inj (h.admits.1.symm.trans haccepts.admits.1)
    subst he
    have hn := Option.some.inj (h.node.symm.trans haccepts.node)
    subst hn
    rw [hy] at hrun
    exact ⟨targets, hasked, hrun⟩
  · exact absurd h (hno e node)

/-- An accepted pass is carried out to its end. -/
theorem Accepts.backward_ok (F : Functions R) (ρ : Nat → R)
    (h : Accepts s output seed wrt e node) (hy : e.index = y)
    (hready : (s.plan y node.shape seed wrt).Ready node.shape) :
    ∃ p count, backward output seed wrt s = .ok ⟨p.found.toList, count⟩
        ⟨p.arena, { s.context with arena := some e.arena, grads := p.grads }⟩ ∧
      Sweeping F ρ (s.plan y node.shape seed wrt) node.shape [] p := by
  obtain ⟨targets, hasked, hrun⟩ := h.backward_eq_run hy
  rw [hrun]
  exact run_ok (F := F) (ρ := ρ) (c := { s.context with arena := some e.arena }) hready rfl hasked

end Differentiation

/-! ### What a pass reaches -/

theorem Arena.live_of_isParam {a : Arena} {asked : Nat → Prop} {y n : Nat} :
    a.Live asked y n ∧ a.isParam n = true ↔
      Reaches a.operands y n ∧ a.isParam n = true ∧ asked n := by
  constructor
  · rintro ⟨⟨hr, hleads⟩, hparam⟩
    refine ⟨hr, hparam, ?_⟩
    rcases leads_iff.mp hleads with ⟨-, hasked⟩ | ⟨c, hc, -⟩
    · exact hasked
    · -- a parameter has no operands
      obtain ⟨node, hn, hkind⟩ := exists_of_isParam hparam
      rw [operands_of_param hn hkind] at hc
      cases hc
  · rintro ⟨hr, hparam, hasked⟩
    exact ⟨⟨hr, n, .refl n, hparam, hasked⟩, hparam⟩

/-- A pass gives the parameters that its output reaches and that were asked for, each once and from
the top down, with their entries; it writes entries of live nodes only, and of all of them. -/
structure Outcome.Complete (o : Outcome) (a : Arena) (asked : Nat → Prop) (y : Nat)
    (before after : Table Int Int) : Prop where
  descending : o.gradients.Pairwise fun x z => z.1 < x.1
  keys : ∀ i : Int, (∃ g, (i, g) ∈ o.gradients) ↔
    ∃ n : Nat, i = n ∧ Reaches a.operands y n ∧ a.isParam n = true ∧ asked n
  entries : ∀ i g : Int, (i, g) ∈ o.gradients → after.get? i = some g
  live : ∀ n : Nat, a.Live asked y n → ∃ g, after.get? n = some g
  untouched : ∀ i : Int, (∀ n : Nat, i = n → ¬a.Live asked y n) → after.get? i = before.get? i

theorem Outcome.Complete.of_extends {o : Outcome} {a b : Arena} {asked : Nat → Prop} {y : Nat}
    {before after : Table Int Int} (h : o.Complete b asked y before after) (ha : a.WellFormed)
    (hab : a.Extends b) (hy : y < a.size) : o.Complete a asked y before after where
  descending := h.descending
  keys i := by
    rw [h.keys]
    refine exists_congr fun n => and_congr_right fun _ => ?_
    rw [Arena.reaches_of_extends ha hab hy]
    apply and_congr_right
    intro hr
    have hn : n < a.size := Nat.lt_of_le_of_lt (hr.le fun _ _ hc => ha.operand_lt hc) hy
    rw [Arena.isParam_of_extends hab hn]
  entries := h.entries
  live n hn := h.live n ((Arena.live_of_extends ha hab hy).mpr hn)
  untouched i hi := h.untouched i fun n hn hlive =>
    hi n hn ((Arena.live_of_extends ha hab hy).mp hlive)

theorem Sweeping.complete {R : Type} [CommRing R] {F : Functions R} {ρ : Nat → R} {π : Plan}
    {sh : Shape} {p : Pass} (h : Sweeping F ρ π sh [] p) (count : Nat) :
    Outcome.Complete ⟨p.found.toList, count⟩ π.arena π.asked π.output π.grads p.grads where
  descending := h.descending
  keys i := by
    simp only [h.found]
    constructor
    · rintro ⟨g, n, hi, -, hlive, hparam, -⟩
      exact ⟨n, hi, Arena.live_of_isParam.mp ⟨hlive, hparam⟩⟩
    · rintro ⟨n, rfl, hn⟩
      obtain ⟨hlive, hparam⟩ := Arena.live_of_isParam.mpr hn
      obtain ⟨g, hg, -⟩ := h.settled n hlive (by simp)
      exact ⟨g, n, rfl, by simp, hlive, hparam, hg⟩
  entries i g hmem := by
    obtain ⟨n, -, -, -, -, hg⟩ := (h.found i g).mp hmem
    exact hg
  live n hlive := by
    obtain ⟨g, hg, -⟩ := h.settled n hlive (by simp)
    exact ⟨g, hg⟩
  untouched i hi := h.untouched i fun n hn => Or.inr (hi n hn)

end TensorGraph
