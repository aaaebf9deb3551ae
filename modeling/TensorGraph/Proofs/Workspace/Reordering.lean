import TensorGraph.Proofs.Context.Renaming
import TensorGraph.Proofs.Workspace.Shaped
import TensorGraph.Proofs.Workspace.Turn

/-!
# Roots in any order

A fresh context over a program of its own evaluates nodes of a well-shaped arena, one after the
other. All of them are evaluated, and what the context and its program hold afterwards depends on
the order of the roots in the ids of buffers only.
-/

namespace TensorGraph.Workspace

/-- The buffers of nodes of an arena, which are evaluated one after the other. -/
def evaluateAll (c : ContextId) (k : ArenaId) (roots : List Nat) : Work (List Nat) :=
  roots.mapM fun root : Nat => evaluateOperand c (.expr ⟨k, root⟩)

theorem evaluateOperand_tended (c : ContextId) (o : Operand) :
    Keeps (Tended c) (evaluateOperand c o) := by
  refine Keeps.bind (inContext_tended c _) fun e w => ?_
  simp only [evaluateExpr]
  split
  · exact Std.Refl.refl w
  · exact lowering_tended c _ w

/-- A context that evaluates nodes of a well-shaped arena, alone with its program. -/
structure Evaluating (c : ContextId) (k : ArenaId) (before : List (String × Int)) (w : Workspace)
    (order : List Nat) : Prop where
  context : c < w.evaluators.size
  program : (w.evaluator c).program < w.programs.size
  wellFormed : (w.arena k).WellFormed
  uniform : (w.arena k).Uniform
  bound : ∀ k', (w.evaluator c).context.arena = some k' → k' = k
  settled : Lowering.Settled (w.arena k) before order (w.lowered c)

variable {c c' : ContextId} {k : ArenaId} {before : List (String × Int)} {order : List Nat}
  {w : Workspace} {roots roots' : List Nat}

/-- What an evaluation of nodes leads to. -/
structure Evaluating.Leads (c : ContextId) (k : ArenaId) (before : List (String × Int))
    (order : List Nat) (w : Workspace) (roots : List Nat) (w' : Workspace) (order' : List Nat) :
    Prop where
  evaluating : Evaluating c k before w' order'
  tended : w.Tended c w'
  arena : w'.arena k = w.arena k
  kept : ∀ j u, (w.evaluator c).context.buffer? j = some u →
    (w'.evaluator c).context.buffer? j = some u
  mem_iff : ∀ i, i ∈ order' ↔ i ∈ order ∨ ∃ r ∈ roots, Reaches (w.arena k).operands r i

namespace Evaluating

/-- A node is evaluated. -/
theorem evaluateOperand (h : Evaluating c k before w order) {root : Nat}
    (hroot : root < (w.arena k).size) :
    ∃ b w' order', Workspace.evaluateOperand c (.expr ⟨k, root⟩) w = .ok b w' ∧
      (w'.evaluator c).context.buffer? root = some b ∧
      Leads c k before order w [root] w' order' := by
  obtain ⟨n, hn⟩ := Arena.exists_node? hroot
  obtain ⟨b, s, order', hrun, hs, hb, hkept, hmem⟩ :=
    (h.settled.bind h.bound).evaluate w.strict h.wellFormed h.uniform hroot
  have hadmits : (w.evaluator c).context.Admits (.expr ⟨k, root⟩) ⟨k, root⟩ := ⟨rfl, h.bound⟩
  have heq := evaluateOperand_eq h.context hadmits (arena_lt_of_node? hn)
  have hrun' : Lowering.evaluate w.strict (w.arena k) root
      { w.lowered c with context := { (w.evaluator c).context with arena := some k } } = .ok b s :=
    hrun
  dsimp only at heq hrun'
  rw [hrun'] at heq
  have htended : w.Tended c (w.setLowered c s) := (evaluateOperand_tended c _).of_ok heq
  have hevaluator : (w.setLowered c s).evaluator c =
      { w.evaluator c with context := s.context } := by
    rw [evaluator_setLowered h.context, if_pos rfl]
  have hlowered := lowered_setLowered h.context h.program s
  have hlowers := (Lowering.evaluate_lowers w.strict (w.arena k) root).of_ok hrun
  refine ⟨b, _, order', heq, by rw [hevaluator, hb], ⟨?_, ?_, h.wellFormed, h.uniform, ?_, ?_⟩,
    htended, rfl, ?_, ?_⟩
  · rw [htended.evaluators]
    exact h.context
  · rw [htended.placed, htended.programs]
    exact h.program
  · rw [hevaluator, hlowers.bound]
    exact fun k' hk' => (Option.some.inj hk').symm
  · rw [hlowered]
    exact hs
  · rw [hevaluator]
    exact hkept
  · simpa using hmem

/-- All nodes are evaluated. -/
theorem evaluateAll (h : Evaluating c k before w order)
    (hroots : ∀ r ∈ roots, r < (w.arena k).size) :
    ∃ bs w' order', Workspace.evaluateAll c k roots w = .ok bs w' ∧
      bs.map some = roots.map (w'.evaluator c).context.buffer? ∧
      Leads c k before order w roots w' order' := by
  induction roots generalizing w order with
  | nil => exact ⟨[], w, order, rfl, rfl, h, Std.Refl.refl w, rfl, fun _ _ hu => hu, by simp⟩
  | cons root roots ih =>
    obtain ⟨b, v, order₁, hrun, hb, hfirst⟩ :=
      h.evaluateOperand (hroots root (List.mem_cons_self ..))
    have harena := hfirst.arena
    obtain ⟨bs, w', order', hrest, hbs, hleads⟩ := ih hfirst.evaluating fun r hr => by
      rw [harena]
      exact hroots r (List.mem_cons_of_mem root hr)
    refine ⟨b :: bs, w', order', ?_, ?_, hleads.evaluating,
      IsTrans.trans _ _ _ hfirst.tended hleads.tended, hleads.arena.trans harena,
      fun j u hu => hleads.kept j u (hfirst.kept j u hu), fun i => ?_⟩
    · rw [Workspace.evaluateAll, List.mapM_cons, bind_of_ok hrun]
      exact bind_of_ok hrest
    · rw [List.map_cons, List.map_cons, hbs, hleads.kept root b hb]
    · rw [hleads.mem_iff, hfirst.mem_iff, harena]
      simp only [List.mem_cons, List.not_mem_nil, or_false, exists_eq_left, exists_eq_or_imp,
        or_assoc]

end Evaluating

/-- A context that did nothing yet, over a program without anything. -/
structure Unused (c : ContextId) (w : Workspace) : Prop where
  context : c < w.evaluators.size
  program : (w.evaluator c).program < w.programs.size
  fresh : ∃ requiresGrad, (w.evaluator c).context = .fresh requiresGrad
  empty : w.programOf c = {}

theorem Unused.evaluating (h : Unused c w) (hwell : (w.arena k).WellFormed)
    (huniform : (w.arena k).Uniform) :
    Evaluating c k (Lowering.observed w.history) w [] := by
  obtain ⟨requiresGrad, hfresh⟩ := h.fresh
  have hlowered : w.lowered c = ⟨.fresh requiresGrad, {}, w.history⟩ := by
    have hempty := h.empty
    simp only [programOf] at hempty
    simp only [lowered, hfresh, hempty]
  refine ⟨h.context, h.program, hwell, huniform, ?_, ?_⟩
  · intro k' hk'
    rw [hfresh] at hk'
    cases hk'
  · rw [hlowered]
    exact .fresh _ requiresGrad w.history

/-- What another context does with another program does not matter. -/
theorem Unused.of_tended {w' : Workspace} (h : Unused c w) (htended : w.Tended c' w') (hne : c ≠ c')
    (hprogram : (w.evaluator c).program ≠ (w.evaluator c').program) : Unused c w' where
  context := htended.evaluators ▸ h.context
  program := by
    rw [htended.placed, htended.programs]
    exact h.program
  fresh := by
    rw [htended.others c hne]
    exact h.fresh
  empty := by
    rw [programOf, htended.placed, htended.untouched _ hprogram]
    exact h.empty

/-- Two unused contexts evaluate the same nodes in any two orders. -/
theorem Unused.renames (h : Unused c w) (h' : Unused c' w) (hne : c ≠ c')
    (hprogram : (w.evaluator c).program ≠ (w.evaluator c').program)
    (hwell : (w.arena k).WellFormed) (huniform : (w.arena k).Uniform)
    (hroots : ∀ r ∈ roots, r < (w.arena k).size) (hperm : roots.Perm roots') :
    ∃ bs bs' u v ρ, evaluateAll c k roots w = .ok bs u ∧ evaluateAll c' k roots' u = .ok bs' v ∧
      bs.map some = roots.map (v.evaluator c).context.buffer? ∧
      bs'.map some = roots'.map (v.evaluator c').context.buffer? ∧
      Lowering.Renames ρ (v.lowered c) (v.lowered c') := by
  obtain ⟨bs, u, order, hrun, hbs, hu⟩ := (h.evaluating hwell huniform).evaluateAll hroots
  have harena := hu.arena
  have hfresh := h'.of_tended hu.tended hne.symm hprogram.symm
  have hroots' : ∀ r ∈ roots', r < (u.arena k).size :=
    fun r hr => harena ▸ hroots r (hperm.mem_iff.mpr hr)
  obtain ⟨bs', v, order', hrun', hbs', hv⟩ :=
    (hfresh.evaluating (harena ▸ hwell) (harena ▸ huniform)).evaluateAll hroots'
  have hcontext : (v.lowered c).context = (u.lowered c).context :=
    congrArg Evaluator.context (hv.tended.others c hne)
  have hplaced := hu.tended.placed
  have hprogram' : (v.lowered c).program = (u.lowered c).program := by
    simp only [lowered]
    rw [hv.tended.placed, hv.tended.untouched _ (by rw [hplaced, hplaced]; exact hprogram)]
  have hsame : ∀ i, i ∈ order ↔ i ∈ order' := by
    intro i
    rw [hu.mem_iff, hv.mem_iff, harena]
    simp only [hperm.mem_iff]
  have hsettled := hv.evaluating.settled
  rw [hv.arena, harena] at hsettled
  have hrenames := (harena ▸ hu.evaluating.settled).renames hsettled hwell hsame
  refine ⟨bs, bs', u, v, _, hrun, hrun', ?_, hbs', hrenames.congr hcontext hprogram'⟩
  rw [hbs]
  exact congrArg (fun context => roots.map context.buffer?) hcontext.symm

section NewContext

variable (w : Workspace) (requiresGrad : Bool)

theorem evaluator_after_newContext (d : ContextId) :
    (w.after (.newContext none requiresGrad)).evaluator d =
      if d = w.evaluators.size then ⟨.fresh requiresGrad, w.programs.size, {}⟩
      else w.evaluator d := getD_push ..

theorem program_after_newContext (p : ProgramId) :
    (w.after (.newContext none requiresGrad)).program p = w.program p := getD_push_default ..

theorem size_programs_after_newContext :
    (w.after (.newContext none requiresGrad)).programs.size = w.programs.size + 1 :=
  Array.size_push ..

theorem size_evaluators_after_newContext :
    (w.after (.newContext none requiresGrad)).evaluators.size = w.evaluators.size + 1 :=
  Array.size_push ..

theorem unused_after_newContext :
    Unused w.evaluators.size (w.after (.newContext none requiresGrad)) := by
  have hevaluator := evaluator_after_newContext w requiresGrad w.evaluators.size
  rw [if_pos rfl] at hevaluator
  refine ⟨?_, ?_, ⟨requiresGrad, congrArg Evaluator.context hevaluator⟩, ?_⟩
  · rw [size_evaluators_after_newContext]
    exact Nat.lt_succ_self _
  · rw [hevaluator, size_programs_after_newContext]
    exact Nat.lt_succ_self _
  · rw [programOf, hevaluator, program_after_newContext]
    exact getD_of_size_le (Nat.le_refl _) _

variable {w}

theorem Unused.newContext (h : Unused c w) :
    Unused c (w.after (.newContext none requiresGrad)) := by
  have hevaluator := evaluator_after_newContext w requiresGrad c
  rw [if_neg (Nat.ne_of_lt h.context)] at hevaluator
  refine ⟨?_, ?_, ?_, ?_⟩
  · rw [size_evaluators_after_newContext]
    exact Nat.lt_succ_of_lt h.context
  · rw [hevaluator, size_programs_after_newContext]
    exact Nat.lt_succ_of_lt h.program
  · rw [hevaluator]
    exact h.fresh
  · rw [programOf, hevaluator, program_after_newContext]
    exact h.empty

end NewContext

/-- After any calls that build an arena with its operators, the order in which nodes of it are
evaluated shows in the ids of buffers only: two new contexts over programs of their own, of which
one evaluates nodes and the other the same nodes in another order, remember the same nodes, in
buffers that one renaming takes to each other; it takes the one program to the other, with the
readers of buffers, and both count the same leaves, instructions and hits. -/
theorem root_order_renames {calls : List Call}
    (hcalls : Orderly (fun j => j = k) (fun _ => False) start calls)
    (hroots : ∀ r ∈ roots, r < ((afterAll calls).arena k).size) (hperm : roots.Perm roots')
    (requiresGrad requiresGrad' : Bool) :
    let c := (afterAll calls).evaluators.size
    let w := ((afterAll calls).after (.newContext none requiresGrad)).after
      (.newContext none requiresGrad')
    ∃ bs bs' u v ρ,
      evaluateAll c k roots w = .ok bs u ∧ evaluateAll (c + 1) k roots' u = .ok bs' v ∧
      bs.map some = roots.map (v.evaluator c).context.buffer? ∧
      bs'.map some = roots'.map (v.evaluator (c + 1)).context.buffer? ∧
      Lowering.Renames ρ (v.lowered c) (v.lowered (c + 1)) := by
  intro c w
  have hshaped : (afterAll calls).WellShaped (fun j => j = k) fun _ => False :=
    wellShaped_start.run hcalls
  have hfirst := unused_after_newContext (afterAll calls) requiresGrad
  have hsecond := unused_after_newContext ((afterAll calls).after (.newContext none requiresGrad))
    requiresGrad'
  rw [size_evaluators_after_newContext] at hsecond
  have hprogram : (w.evaluator c).program < (w.evaluator (c + 1)).program := by
    simp only [w, c, evaluator_after_newContext, size_evaluators_after_newContext,
      size_programs_after_newContext]
    simp
  exact (hfirst.newContext requiresGrad').renames hsecond (Nat.ne_of_lt (Nat.lt_succ_self c))
    (Nat.ne_of_lt hprogram) (hshaped.coherent.arenas k) (hshaped.arenas k rfl) hroots hperm

/-- The exponential and the logarithm of a parameter, in both orders. -/
theorem root_order_renames_functions :
    let calls : List Call :=
      [.param 0 (.shape ⟨[2]⟩) none, .unary .exp ⟨0, 0⟩, .unary .log ⟨0, 0⟩]
    let w := ((afterAll calls).after (.newContext none true)).after (.newContext none false)
    ∃ bs bs' u v ρ,
      evaluateAll 0 0 [1, 2] w = .ok bs u ∧ evaluateAll 1 0 [2, 1] u = .ok bs' v ∧
      bs.map some = [1, 2].map (v.evaluator 0).context.buffer? ∧
      bs'.map some = [2, 1].map (v.evaluator 1).context.buffer? ∧
      Lowering.Renames ρ (v.lowered 0) (v.lowered 1) := by
  intro calls
  have hcalls : Orderly (fun j => j = 0) (fun _ => False) start calls :=
    ⟨trivial, trivial, trivial, trivial⟩
  have hroots : ∀ r ∈ [1, 2], r < ((afterAll calls).arena 0).size := by decide
  exact root_order_renames hcalls hroots (.swap 2 1 []) true false

end TensorGraph.Workspace
