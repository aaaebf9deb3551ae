import TensorGraph.Proofs.Gradient.Vanishing
import TensorGraph.Proofs.Workspace.Gradients

/-!
# Vanishing gradients in a workspace

Wherever an accepted pass starts from an empty table, the gradients that vanish are known from the
graph alone: those of nodes to which all ways down leave a step function. Nothing that has vanished
is computed with.
-/

namespace TensorGraph.Workspace

open Differentiation

section Traced

variable {R : Type} [CommRing R] {F : Functions R} {ρ : Nat → R} {k : ArenaId} {c : ContextId}
  {w : Workspace} {passes : List PassRecord} {seed : Option Operand} {wrt : Option (List Operand)}
  {node : Node} {y : Nat}

/-- An accepted pass is traced to its end. -/
theorem Tallied.traced (h : Tallied F ρ k c w passes) (hc : c < w.evaluators.size)
    (haccepts : (w.differentiation c k).Accepts (.expr ⟨k, y⟩) seed wrt ⟨k, y⟩ node)
    (hseed : ∀ o, seed = some o → o.Natural) :
    ∃ (π : Plan) (o : Outcome) (w' : Workspace) (p : Pass),
      π = (w.differentiation c k).plan y node.shape seed wrt ∧ π.Ready node.shape ∧
      Workspace.differentiate c (.expr ⟨k, y⟩) seed wrt w = .ok o w' ∧ w'.arena k = p.arena ∧
      (w'.evaluator c).context.grads = p.grads ∧ Tracing π [] p := by
  have hready := haccepts.ready rfl hseed h.regular (h.tally haccepts.admits.2).shaped
  obtain ⟨p, count, hok, htracing⟩ := haccepts.backward_traced rfl hready
  obtain ⟨w', hw', hafter⟩ :=
    differentiate_of_ok (e := ⟨k, y⟩) hc (lt_size_of_at? haccepts.node) hok
  obtain ⟨harena, hcontext⟩ := Differentiation.mk.inj hafter
  exact ⟨_, _, w', p, rfl, hready, hw', harena, congrArg Context.grads hcontext, htracing⟩

end Traced

/-- What a pass appends before its sweep is a parameter. -/
theorem seeded_new {a : Arena} {sh : Shape} {seed : Option Operand} {i : Nat} {node : Node}
    (hi : a.size ≤ i) (hnode : (seeded a sh seed).node? i = some node) :
    node = ⟨.leaf .param, sh, some "grad"⟩ := by
  cases seed with
  | some o => exact absurd (Arena.lt_size_of_node? hnode) (Nat.not_lt_of_le hi)
  | none =>
    rw [seeded, Arena.node?_push] at hnode
    split at hnode
    · cases hnode
      rfl
    · exact absurd (Arena.lt_size_of_node? hnode) (Nat.not_lt_of_le hi)

/-- After any calls that build an arena with its operators, an accepted pass of a context without
gradients gives a zero leaf to a live node exactly when the seed is one or all ways down to the node
leave a step function. Of the nodes that the pass appends none has a zero leaf for operand that it
appends, or the seed if that is one. -/
theorem zero_gradients_exact {k : ArenaId} {calls : List Call}
    (hcalls : ∀ call ∈ calls, call.RegularIn k) {c : ContextId}
    (hc : c < (afterAll calls).evaluators.size)
    (hempty : ∀ i, ((afterAll calls).evaluator c).context.grads.get? i = none) {y : Nat}
    {seed : Option Operand} (hseed : ∀ o, seed = some o → o.Natural) {wrt : Option (List Operand)}
    {node : Node} (haccepts : ((afterAll calls).differentiation c k).Accepts (.expr ⟨k, y⟩) seed wrt
      ⟨k, y⟩ node) :
    ∃ o w', differentiate c (.expr ⟨k, y⟩) seed wrt (afterAll calls) = .ok o w' ∧
      (∀ n, ((afterAll calls).arena k).Live (AskedFor wrt) y n →
        ∃ g, (w'.evaluator c).context.grads.get? n = some g ∧ ((w'.arena k).isZero g = true ↔
          (w'.arena k).isZero (seedIndex ((afterAll calls).arena k) seed) = true ∨
            ∀ left, Descent ((afterAll calls).arena k).operands y left n →
              ∃ u ∈ left, ((afterAll calls).arena k).isStep u = true)) ∧
      ∀ (i : Nat) (m : Node), ((afterAll calls).arena k).size ≤ i → (w'.arena k).node? i = some m →
        ∀ x ∈ m.operands, ((afterAll calls).arena k).size ≤ x ∨
            (x : Int) = seedIndex ((afterAll calls).arena k) seed →
          (w'.arena k).isZero x = false := by
  have htallied := afterAll_tallied (R := Int) ⟨id, id, id, id⟩ (fun _ => 0) hcalls c
  obtain ⟨π, o, w', p, rfl, hready, hok, harena, hgrads, htracing⟩ :=
    htallied.traced hc haccepts hseed
  have hwell := htallied.regular.wellFormed
  have hkept := extends_seeded ((afterAll calls).arena k) node.shape seed
  have hy : y < ((afterAll calls).arena k).size := by
    have hnode := haccepts.node
    rw [Arena.at?_ofNat] at hnode
    exact Arena.lt_size_of_node? hnode
  refine ⟨o, w', hok, fun n hn => ?_, fun i m hi hm x hx hcase => ?_⟩
  · obtain ⟨g, hg, hzero⟩ := htracing.isZero_entry_iff hready hempty
      ((Arena.live_of_extends hwell hkept hy).mpr hn)
    refine ⟨g, hgrads ▸ hg, ?_⟩
    rw [harena, hzero, ← Arena.not_reaches_carriers_iff,
      ← Arena.reaches_carriers_of_extends hwell hkept hy]
    rfl
  · rw [harena] at hm ⊢
    have hgrown : (seeded ((afterAll calls).arena k) node.shape seed).Extends p.arena :=
      htracing.made.kept
    by_cases hbase : i < (seeded ((afterAll calls).arena k) node.shape seed).size
    · -- a default seed has no operands
      obtain ⟨m', hm'⟩ := Arena.exists_node? hbase
      cases (hgrown i m' hm').symm.trans hm
      rw [seeded_new hi hm'] at hx
      cases hx
    · have hnew := htracing.isZero_operand hready (Nat.le_of_not_lt hbase) hm hx
      by_cases hxbase : x < (seeded ((afterAll calls).arena k) node.shape seed).size
      · rcases hcase with hsize | hxseed
        · -- nor is it a zero leaf
          obtain ⟨m', hm'⟩ := Arena.exists_node? hxbase
          rw [Arena.isZero, Arena.at?_ofNat, hgrown x m' hm', Option.map_some,
            seeded_new hsize hm']
          rfl
        · exact hnew (Or.inr hxseed)
      · exact hnew (Or.inl (Nat.le_of_not_lt hxbase))

/-- A parameter under a step function. -/
def stepped : List Call :=
  [.newContext none true, .param 0 (.shape ⟨[]⟩) none, .unary .gtz ⟨0, 0⟩]

/-- The gradient of a parameter vanishes under a step function. -/
theorem zero_gradients_exact_stepped :
    ∃ o w' g, differentiate 0 (.expr ⟨0, (1 : Nat)⟩) none none (afterAll stepped) = .ok o w' ∧
      (w'.evaluator 0).context.grads.get? (0 : Nat) = some g ∧ (w'.arena 0).isZero g = true := by
  have hcalls : ∀ call ∈ stepped, call.RegularIn 0 := by
    simp [stepped, Call.RegularIn]
  have haccepts : ((afterAll stepped).differentiation 0 0).Accepts (.expr ⟨0, (1 : Nat)⟩) none none
      ⟨0, (1 : Nat)⟩ ⟨.unary .gtz 0, ⟨[]⟩, none⟩ := by
    refine accepts_default rfl ⟨rfl, fun a ha => ?_⟩ rfl
    cases ha
  have hseed : ∀ o, (none : Option Operand) = some o → o.Natural := by simp
  obtain ⟨o, w', hok, hentries, -⟩ := zero_gradients_exact hcalls (c := 0) (by decide)
    (fun i => Table.get?_empty i) hseed haccepts
  have hlive : ((afterAll stepped).arena 0).Live (AskedFor none) 1 0 :=
    ⟨.step (List.mem_singleton_self 0) (.refl 0), 0, .refl 0, rfl, askedFor_none 0⟩
  obtain ⟨g, hg, hzero⟩ := hentries 0 hlive
  refine ⟨o, w', g, hok, hg, hzero.mpr (Or.inr fun left hdescent => ?_)⟩
  cases hdescent with
  | down hc hrest => exact ⟨1, List.mem_cons_self .., by decide⟩

end TensorGraph.Workspace
