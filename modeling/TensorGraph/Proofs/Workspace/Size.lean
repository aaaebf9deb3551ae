import TensorGraph.Proofs.Gradient.Deeds
import TensorGraph.Proofs.Workspace.Gradients

/-!
# The size of gradients in a workspace

Whatever a context was used for before, an accepted pass appends nodes in proportion to the live
nodes and edges below its output, and it does no work twice. The number of paths does not matter.
-/

namespace TensorGraph.Workspace

open Differentiation

/-- After any calls that build an arena with its operators, an accepted pass appends at most four
nodes for each pair of a live node and a live operand, one for each live node and a default seed;
when the output is not live, no more than that seed. Every live node has its contributions summed
once, its rules are applied at most once, and a gradient is built at most once for each of its
operand positions, and for live operands only, as the same pass with notes shows. -/
theorem gradient_graph_linear {k : ArenaId} {calls : List Call}
    (hcalls : ∀ call ∈ calls, call.RegularIn k) {c : ContextId}
    (hc : c < (afterAll calls).evaluators.size) {y : Nat} {seed : Option Operand}
    (hseed : ∀ o, seed = some o → o.Natural) {wrt : Option (List Operand)} {node : Node}
    (haccepts : ((afterAll calls).differentiation c k).Accepts (.expr ⟨k, y⟩) seed wrt ⟨k, y⟩ node) :
    ∃ o w' deeds, differentiate c (.expr ⟨k, y⟩) seed wrt (afterAll calls) = .ok o w' ∧
      o.liveCount = (((afterAll calls).arena k).liveNodes (AskedFor wrt) y).card ∧
      (w'.arena k).size ≤ ((afterAll calls).arena k).size +
        (1 + 4 * ((afterAll calls).arena k).liveEdges (AskedFor wrt) y + o.liveCount) ∧
      (¬((afterAll calls).arena k).Live (AskedFor wrt) y y →
        w'.arena k = seeded ((afterAll calls).arena k) node.shape seed) ∧
      backwardNoted (.expr ⟨k, y⟩) seed wrt ((afterAll calls).differentiation c k, []) =
        .ok o (w'.differentiation c k, deeds) ∧
      deeds.Nodup ∧
      (∀ n, ((afterAll calls).arena k).Live (AskedFor wrt) y n → Deed.sums n ∈ deeds) ∧
      ∀ d ∈ deeds, ((afterAll calls).arena k).Allows (AskedFor wrt) y d := by
  have htallied := afterAll_tallied (R := Int) ⟨id, id, id, id⟩ (fun _ => 0) hcalls c
  have hready := haccepts.ready rfl hseed htallied.regular (htallied.tally haccepts.admits.2).shaped
  obtain ⟨o, s', deeds, hnoted, hcount, hsize, hdead, hnodup, hsummed, hallowed⟩ :=
    haccepts.backwardNoted_accounts rfl hready htallied.regular
  obtain ⟨w', hok, rfl⟩ := differentiate_of_ok (e := ⟨k, y⟩) hc (lt_size_of_at? haccepts.node)
    ((erases_backwardNoted (.expr ⟨k, y⟩) seed wrt).of_ok hnoted)
  exact ⟨o, w', deeds, hok, hcount, hsize, hdead, hnoted, hnodup, hsummed, hallowed⟩

/-- A parameter that is doubled and doubled again: four ways lead down to it, along four edges. -/
def doubledTwice : List Call :=
  [.newContext none true, .param 0 (.shape ⟨[]⟩) none, .binary .add ⟨0, 0⟩ (.expr ⟨0, 0⟩),
    .binary .add ⟨0, 1⟩ (.expr ⟨0, 1⟩)]

/-- The contributions to a parameter that is doubled twice are summed once. -/
theorem gradient_graph_linear_doubledTwice :
    ∃ o w' deeds, differentiate 0 (.expr ⟨0, (2 : Nat)⟩) none none (afterAll doubledTwice) =
        .ok o w' ∧
      backwardNoted (.expr ⟨0, (2 : Nat)⟩) none none
          ((afterAll doubledTwice).differentiation 0 0, []) =
        .ok o (w'.differentiation 0 0, deeds) ∧
      deeds.count (.sums 0) = 1 := by
  have hcalls : ∀ call ∈ doubledTwice, call.RegularIn 0 := by
    simp [doubledTwice, Call.RegularIn]
  have haccepts : ((afterAll doubledTwice).differentiation 0 0).Accepts (.expr ⟨0, (2 : Nat)⟩) none
      none ⟨0, (2 : Nat)⟩ ⟨.binary .add 1 1, ⟨[]⟩, none⟩ := by
    refine accepts_default rfl ⟨rfl, fun a ha => ?_⟩ rfl
    cases ha
  have hseed : ∀ o, (none : Option Operand) = some o → o.Natural := by simp
  obtain ⟨o, w', deeds, hok, -, -, -, hnoted, hnodup, hsummed, -⟩ :=
    gradient_graph_linear hcalls (c := 0) (by decide) hseed haccepts
  have hlive : ((afterAll doubledTwice).arena 0).Live (AskedFor none) 2 0 :=
    ⟨.step (c := 1) (List.mem_cons_self ..) (.step (c := 0) (List.mem_cons_self ..) (.refl 0)), 0,
      .refl 0, rfl, askedFor_none 0⟩
  exact ⟨o, w', deeds, hok, hnoted, List.count_eq_one_of_mem hnodup (hsummed 0 hlive)⟩

end TensorGraph.Workspace
