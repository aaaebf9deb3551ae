import TensorGraph.Proofs.Gradient.Succession
import TensorGraph.Proofs.Workspace.Building
import TensorGraph.Proofs.Workspace.Gradients

/-!
# Passes of one context

Several passes on one context, each from nodes that were there before all of them: a node has in the
end what the gradients accumulate to that each pass gives to it on a fresh context.
-/

namespace TensorGraph

/-- A request as a call on a context. -/
def Request.call (c : ContextId) (k : ArenaId) (r : Request) : Workspace.Call :=
  .backward c (operand k r.output) (r.seedIn k) (r.wrtIn k)

namespace Workspace

open Differentiation

variable {w : Workspace} {c d : ContextId} {k : ArenaId} {r : Request} {rs : List Request}

theorem lt_arenas_of_over (hover : r.Over (w.arena k)) : k < w.arenas.size := by
  obtain ⟨m, hm, -⟩ := hover.output
  obtain ⟨n, hn⟩ := Arena.exists_node? hm
  exact arena_lt_of_node? hn

theorem stateAfter_request (hc : c < w.evaluators.size) :
    w.after (r.call c k) = stateAfter (differentiate c (Request.operand k r.output) (r.seedIn k)
      (r.wrtIn k) w) := by
  rw [after, if_pos (Call.named_of_lt rfl rfl hc)]
  exact stateAfter_discard

/-- A request changes its context and its arena as the pass does. -/
theorem differentiation_after (hc : c < w.evaluators.size) (hover : r.Over (w.arena k)) :
    (w.after (r.call c k)).differentiation c k =
      stateAfter (r.backward k (w.differentiation c k)) := by
  rw [stateAfter_request hc]
  exact differentiation_differentiate (e := ⟨k, r.output⟩) hc (lt_arenas_of_over hover) _ _

theorem differentiation_foldl_after (hc : c < w.evaluators.size)
    (hover : ∀ r ∈ rs, r.Over (w.arena k)) :
    ((rs.map (Request.call c k)).foldl after w).differentiation c k =
      succession k rs (w.differentiation c k) := by
  induction rs generalizing w with
  | nil => rfl
  | cons r rs ih =>
    have hr := hover r (List.mem_cons_self ..)
    have hafter := differentiation_after hc hr
    have hgrown : (w.arena k).Extends ((w.after (r.call c k)).arena k) := by
      rw [stateAfter_request hc]
      exact (differentiate_grows _ _ _ k).1.1
    have hsize : c < (w.after (r.call c k)).evaluators.size := by
      rw [stateAfter_request hc]
      exact Nat.lt_of_lt_of_le hc (differentiate_spares c _ _ _ w).size_le
    rw [List.map_cons, List.foldl_cons,
      ih hsize fun r' hr' => (hover r' (List.mem_cons_of_mem r hr')).of_extends hgrown, hafter]
    rfl

/-- After any calls that build an arena with its operators, and then requests for passes on a fresh
context, from nodes of the arena: what a node has unfolds to what the gradients accumulate to, in
order, that the requests give to it alone. A request gives one exactly to the nodes that are live in
it, if it is accepted. -/
theorem passes_accumulate {calls : List Call} (hcalls : ∀ call ∈ calls, call.RegularIn k)
    (hc : c < (afterAll calls).evaluators.size) (hd : d < (afterAll calls).evaluators.size)
    (hfresh : ((afterAll calls).evaluator c).context = .fresh true)
    (hfresh' : ((afterAll calls).evaluator d).context = .fresh true)
    (hover : ∀ r ∈ rs, r.Over ((afterAll calls).arena k)) (n : Nat) {sh : Shape}
    (hshape : ∀ node, ((afterAll calls).arena k).node? n = some node → node.shape = sh) :
    ((afterAll (calls ++ rs.map (Request.call c k))).differentiation c k).gradient?
        ((afterAll calls).arena k).size n =
      Unfolding.accumulated ((afterAll calls).arena k) sh (rs.filterMap fun r =>
        (((afterAll calls).after (r.call d k)).differentiation d k).gradient?
          ((afterAll calls).arena k).size n) ∧
    ∀ r ∈ rs, ((((afterAll calls).after (r.call d k)).differentiation d k).gradient?
        ((afterAll calls).arena k).size n).isSome = true ↔
      ∃ (node : Node) (y : Nat), r.Accepted ((afterAll calls).arena k) node ∧ r.output = y ∧
        ((afterAll calls).arena k).Live (AskedFor (r.wrtIn k)) y n := by
  have hregular := (afterAll_tallied (R := Int) ⟨id, id, id, id⟩ (fun _ => 0) hcalls c).regular
  have hstate : (afterAll calls).differentiation c k = ⟨(afterAll calls).arena k, .fresh true⟩ :=
    congrArg _ hfresh
  have halone : ∀ r ∈ rs, (((afterAll calls).after (r.call d k)).differentiation d k).gradient?
      ((afterAll calls).arena k).size n = alone ((afterAll calls).arena k) k n r := by
    intro r hr
    rw [differentiation_after hd (hover r hr), differentiation, hfresh']
    rfl
  constructor
  · have hfold := differentiation_foldl_after hc hover
    rw [hstate] at hfold
    rw [List.filterMap_congr halone, afterAll, List.foldl_append]
    exact (congrArg (gradient? · _ n) hfold).trans (gradient?_succession hregular hover hshape)
  · intro r hr
    rw [halone r hr]
    exact alone_isSome_iff hregular (hover r hr)

/-- Two passes from the exponential, and one in between that is refused. -/
def thrice : List Request := [⟨1, some 0, none⟩, ⟨1, some 0, some [1]⟩, ⟨1, some 1, none⟩]

theorem passes_accumulate_thrice :
    ((afterAll (exponential ++ thrice.map (Request.call 0 0))).differentiation 0 0).gradient? 2 0 =
      Unfolding.accumulated ((afterAll exponential).arena 0) ⟨[]⟩ (thrice.filterMap fun r =>
        (((afterAll exponential).after (r.call 0 0)).differentiation 0 0).gradient? 2 0) ∧
    ((((afterAll exponential).after (Request.call 0 0 ⟨1, some 0, none⟩)).differentiation 0
      0).gradient? 2 0).isSome = true := by
  have hover : ∀ r ∈ thrice, r.Over ((afterAll exponential).arena 0) := by
    have hsize : ((afterAll exponential).arena 0).size = 2 := by decide
    intro r hr i hi
    have hi : i = 0 ∨ i = 1 := by
      simp only [thrice, List.mem_cons, List.not_mem_nil, or_false] at hr
      rcases hr with rfl | rfl | rfl <;> simp [Request.named] at hi <;> omega
    rw [hsize]
    rcases hi with rfl | rfl
    · exact ⟨0, by decide, rfl⟩
    · exact ⟨1, by decide, rfl⟩
  have hshape : ∀ node, ((afterAll exponential).arena 0).node? 0 = some node →
      node.shape = ⟨[]⟩ := by
    rintro node ⟨⟩
    rfl
  obtain ⟨hsum, hlive⟩ := passes_accumulate (c := 0) (d := 0) exponential_regular (by decide)
    (by decide) rfl rfl hover 0 hshape
  refine ⟨hsum, (hlive _ (List.mem_cons_self ..)).mpr
    ⟨⟨.unary .exp 0, ⟨[]⟩, none⟩, 1, ⟨rfl, ?_, nofun⟩, rfl, ?_⟩⟩
  · rintro g ⟨⟩
    exact ⟨⟨.leaf .param, ⟨[]⟩, none⟩, rfl, rfl⟩
  · exact ⟨.step (List.mem_singleton_self 0) (.refl 0), 0, .refl 0, rfl, askedFor_none 0⟩

end Workspace

end TensorGraph
