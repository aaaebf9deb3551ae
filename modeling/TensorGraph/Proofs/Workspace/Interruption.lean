import TensorGraph.Proofs.Context.Interruption
import TensorGraph.Proofs.Workspace.Plain
import TensorGraph.Proofs.Workspace.Shaped

/-!
# Contexts under any calls

Contexts are asked for anything in any order, by calls that succeed or fail: arenas may hold nodes
of any shapes, ids may be entered from outside, programs may be shared. After all that each context
remembers nodes with their operands, each under an id of its own, and an evaluation ends with
everything evaluated, or at a node whose id is in use or which conflicts with the program. What the
evaluation did until then is not done again.
-/

namespace TensorGraph.Workspace

/-! ### Asking for ids -/

/-- The id under which an operand was evaluated, 0 when it was not. -/
def evalIdOperand (c : ContextId) (o : Operand) : Work Nat := do
  let e ← inContext c (Context.bind o)
  contextOf c fun s => s.context.evalId e.index

/-- Asking for the id of an object that is an expression is asking for that of the expression. -/
theorem evalId_plain {w : Workspace} {c : ContextId} {a : Address} {e : Expr} (h : w.Plain c)
    (ha : w.heap.handle? a = some (.ofExpr e)) : evalId c a w = evalIdOperand c (.expr e) w := by
  have hbind := bind_plain h ha
  have hplain := inContext_plain h (Context.bind (.expr e))
  simp only [evalId, evalIdOperand]
  cases hx : inContext c (Context.bind (.expr e)) w with
  | error err w' =>
    rw [bind_of_error hx] at hbind
    rw [bind_of_error hx]
    exact bind_of_error hbind
  | ok e' w' =>
    rw [bind_of_ok hx] at hbind
    rw [hx] at hplain
    change w'.Plain c at hplain
    obtain ⟨context, hcontext⟩ := exists_of_inContext_ok hx
    obtain rfl := Operand.expr.inj (Context.bind_ok hcontext).1
    rw [bind_of_ok hx]
    have htables : contextOf c (fun s => (s.context, s.ties.codes)) w' =
        .ok ((w'.evaluator c).context, []) w' := by
      rw [contextOf, hplain.codes]
    -- without other keys an integer is found exactly where it has an id
    have hfind : findKey c hasId (.int e.index) w' =
        .ok (if hasId (w'.evaluator c).context e.index then some e.index else none) w' := by
      simp only [findKey]
      refine (bind_of_ok htables).trans ?_
      simp only [findNumber]
      split
      · rfl
      · rfl
    refine (bind_of_ok hbind).trans ((bind_of_ok hfind).trans ?_)
    cases hid : hasId (w'.evaluator c).context e.index with
    | true => rfl
    | false =>
      have hnone : (w'.evaluator c).context.evalId e.index = 0 :=
        Std.HashMap.getD_eq_fallback_of_contains_eq_false hid
      rw [contextOf, hnone]
      rfl

theorem stateAfter_evalIdOperand (c : ContextId) (o : Operand) (w : Workspace) :
    stateAfter (evalIdOperand c o w) = stateAfter (inContext c (Context.bind o) w) := by
  simp only [evalIdOperand]
  cases hx : inContext c (Context.bind o) w with
  | ok e w' =>
    rw [bind_of_ok hx]
    rfl
  | error err w' =>
    rw [bind_of_error hx]
    rfl

/-! ### Runs -/

/-- A call, or the question for the id of an operand. -/
inductive Ask where
  | call (call : Call)
  | evalId (c : ContextId) (o : Operand)

/-- The workspace after it is asked, whatever the outcome. -/
def afterAsk (w : Workspace) : Ask → Workspace
  | .call call => w.after call
  | .evalId c o => if c < w.evaluators.size then stateAfter (evalIdOperand c o w) else w

/-- The workspace after it is asked one thing after the other, from a new one. -/
def afterAsks (asks : List Ask) : Workspace := asks.foldl afterAsk start

/-- What is evaluated is given by an index. -/
def Ask.Natural : Ask → Prop
  | .call (.evaluate _ (.expr e)) => 0 ≤ e.index
  | _ => True

variable {w : Workspace} {c : ContextId} {k : ArenaId} {ask : Ask}

theorem Coherent.afterAsk (h : w.Coherent) (ask : Ask) : (w.afterAsk ask).Coherent := by
  cases ask with
  | call call => exact h.after call
  | evalId c o =>
    simp only [Workspace.afterAsk]
    split
    · rw [stateAfter_evalIdOperand]
      exact h.bind c o
    · exact h

section Contexts

/-- What holds of two contexts whose tables are the same, but for ids that were handed out. -/
def Overlooks (R : Context → Context → Prop) : Prop :=
  ∀ {c d : Context}, d.values = c.values → d.ids = c.ids → c.counter ≤ d.counter → R c d

variable {R : Context → Context → Prop} [IsPreorder Context R] (hR : Overlooks R)

include hR

theorem Overlooks.bind (c : ContextId) (o : Operand) (w : Workspace) :
    w.ContextsBy R (stateAfter (inContext c (Context.bind o) w)) := by
  refine inContext_contexts (fun context => ?_) c w
  have hkeeps := Context.bind_evaluations o context
  exact hR hkeeps.values hkeeps.ids (Nat.le_of_eq hkeeps.counter.symm)

/-- Evaluating an operand relates contexts as evaluating its node does. -/
theorem Overlooks.evaluateOperand (h : w.Coherent) {o : Operand}
    (hevaluate : ∀ e, o = .expr e → ∀ strict {a : Arena}, a.WellFormed →
      Keeps (Lowering.ContextBy R) (Lowering.evaluate strict a e.index)) :
    w.ContextsBy R (stateAfter (Workspace.evaluateOperand c o w)) := by
  have hbind := hR.bind c o w
  have hcoherent := h.bind c o
  simp only [Workspace.evaluateOperand]
  cases hx : inContext c (Context.bind o) w with
  | error err w' =>
    rw [hx] at hbind
    rw [bind_of_error hx]
    exact hbind
  | ok e w' =>
    rw [hx] at hbind hcoherent
    rw [bind_of_ok hx]
    obtain ⟨context, hcontext⟩ := exists_of_inContext_ok hx
    refine IsTrans.trans _ _ _ hbind ?_
    simp only [evaluateExpr]
    split
    · exact Std.Refl.refl _
    · rename_i a ha
      have hwell : a.WellFormed := arena_of_of? ha ▸ hcoherent.arenas e.arena
      exact lowering_contexts (hevaluate e (Context.bind_ok hcontext).1 _ hwell) c w'

/-- A call relates contexts as evaluating does, unless it makes them start over. -/
theorem Overlooks.carryOut (h : w.Coherent) {call : Call} (hreset : call ≠ .reset c)
    (hevaluate : ∀ d e, call = .evaluate d (.expr e) → ∀ strict {a : Arena}, a.WellFormed →
      Keeps (Lowering.ContextBy R) (Lowering.evaluate strict a e.index)) :
    w.evaluators.size ≤ (stateAfter (call.carryOut w)).evaluators.size ∧
      R (w.evaluator c).context ((stateAfter (call.carryOut w)).evaluator c).context := by
  have hcontext : ∀ {w' : Workspace}, w.ContextsBy R w' →
      w.evaluators.size ≤ w'.evaluators.size ∧
        R (w.evaluator c).context (w'.evaluator c).context :=
    fun h => ⟨Nat.le_of_eq h.1.symm, (h.2 c).2⟩
  by_cases hbuilds : call.Builds
  · have hspares := carryOut_spares hbuilds w
    have hkeeps := hspares.context c
    exact ⟨hspares.size_le, hR hkeeps.values hkeeps.ids (Nat.le_of_eq hkeeps.counter.symm)⟩
  cases call with
  | alloc p shape zero =>
    exact hcontext (Keeps.discard (emitting_frame (fun w _ _ => contextsBy_of_eq rfl) p _) w)
  | emit p op shape source1 source2 =>
    exact hcontext (Keeps.discard (fun w => emitting_frame (R := ContextsBy R)
      (fun w _ _ => contextsBy_of_eq rfl) p _ w) w)
  | evaluate d o =>
    rw [Call.carryOut, stateAfter_discard]
    refine hcontext (hR.evaluateOperand h ?_)
    rintro e rfl
    exact hevaluate d e rfl
  | enter d id =>
    refine hcontext (lowering_contexts (R := R) (fun s => ?_) d w)
    simp only [Lowering.enter]
    split
    · exact Std.Refl.refl s.context
    · exact hR rfl rfl (Nat.le_refl _)
  | exit d id =>
    exact hcontext (lowering_contexts (R := R) (x := fun s => .ok () (s.exit id))
      (fun s => hR rfl rfl (Nat.le_refl _)) d w)
  | makeId d =>
    exact hcontext (Keeps.discard (inContext_contexts (R := R)
      (fun context => hR rfl rfl (Nat.le_succ _)) d) w)
  | reset d =>
    have hne : c ≠ d := fun heq => hreset (congrArg Call.reset heq.symm)
    rw [Call.carryOut, evaluator_reset, if_neg fun h => hne h.1]
    exact ⟨Nat.le_of_eq (Array.size_modify ..).symm, Std.Refl.refl _⟩
  | _ => exact absurd trivial hbuilds

/-- What is asked relates contexts as evaluating does, unless it makes them start over. -/
theorem Overlooks.afterAsk (h : w.Coherent) (hreset : ask ≠ .call (.reset c))
    (hevaluate : ∀ d e, ask = .call (.evaluate d (.expr e)) → ∀ strict {a : Arena}, a.WellFormed →
      Keeps (Lowering.ContextBy R) (Lowering.evaluate strict a e.index)) :
    w.evaluators.size ≤ (w.afterAsk ask).evaluators.size ∧
      R (w.evaluator c).context ((w.afterAsk ask).evaluator c).context := by
  cases ask with
  | call call =>
    simp only [Workspace.afterAsk, after]
    split
    · refine hR.carryOut h (fun heq => hreset (congrArg Ask.call heq)) fun d e hcall => ?_
      exact hevaluate d e (congrArg Ask.call hcall)
    · exact ⟨Nat.le_refl _, Std.Refl.refl _⟩
  | evalId d o =>
    simp only [Workspace.afterAsk]
    split
    · rw [stateAfter_evalIdOperand]
      have hbind := hR.bind d o w
      exact ⟨Nat.le_of_eq hbind.1.symm, (hbind.2 c).2⟩
    · exact ⟨Nat.le_refl _, Std.Refl.refl _⟩

end Contexts

/-- A context that starts over is fresh. -/
theorem context_afterAsk_reset (c : ContextId) (w : Workspace) :
    w.afterAsk (.call (.reset c)) = w ∨ ∃ requiresGrad,
      ((w.afterAsk (.call (.reset c))).evaluator c).context = .fresh requiresGrad := by
  simp only [afterAsk, after]
  split
  · rename_i hnamed
    have hc : c < w.evaluators.size := Call.lt_of_named rfl hnamed
    refine .inr ⟨(w.evaluator c).context.requiresGrad, ?_⟩
    rw [Call.carryOut, evaluator_reset, if_pos ⟨rfl, hc⟩]
    rfl
  · exact .inl rfl

/-- A property that fresh contexts have, and that what is asked keeps as long as nothing starts
over. -/
theorem property_afterAsk {P : Context → Prop} (hfresh : ∀ requiresGrad, P (.fresh requiresGrad))
    (hw : P (w.evaluator c).context)
    (hkeep : ask ≠ .call (.reset c) → P (w.evaluator c).context →
      P ((w.afterAsk ask).evaluator c).context) : P ((w.afterAsk ask).evaluator c).context := by
  by_cases hreset : ask = .call (.reset c)
  · subst hreset
    rcases context_afterAsk_reset c w with hsame | ⟨requiresGrad, hcontext⟩
    · rw [hsame]
      exact hw
    · rw [hcontext]
      exact hfresh requiresGrad
  · exact hkeep hreset hw

/-- A coherent workspace whose contexts number nodes in order. -/
structure Tidy (w : Workspace) : Prop where
  coherent : w.Coherent
  numbered : ∀ c, (w.evaluator c).context.WellNumbered

theorem tidy_start : start.Tidy := ⟨coherent_start, fun _ => Context.wellNumbered_fresh true⟩

/-- Nothing is forgotten until a context starts over. -/
theorem Tidy.proceeds (h : w.Tidy) (hreset : ask ≠ .call (.reset c)) :
    w.evaluators.size ≤ (w.afterAsk ask).evaluators.size ∧
      (w.evaluator c).context.Proceeds ((w.afterAsk ask).evaluator c).context :=
  Overlooks.afterAsk (R := Context.Proceeds) Context.proceeds_of_same h.coherent hreset
    fun _ e _ strict _ ha => Lowering.evaluate_proceeds strict ha e.index

theorem Tidy.afterAsk (h : w.Tidy) (ask : Ask) : (w.afterAsk ask).Tidy where
  coherent := h.coherent.afterAsk ask
  numbered c := property_afterAsk Context.wellNumbered_fresh (h.numbered c)
    fun hreset => (h.proceeds hreset).2.wellNumbered

theorem Coherent.naturalKeys (h : w.Coherent) (hask : ask.Natural)
    (hw : (w.evaluator c).context.NaturalKeys) :
    ((w.afterAsk ask).evaluator c).context.NaturalKeys := by
  refine property_afterAsk Context.naturalKeys_fresh hw fun hreset => ?_
  refine (Overlooks.afterAsk (R := Context.StaysNatural) ?_ h hreset ?_).2
  · intro c d hvalues _ _ hc
    rw [Context.NaturalKeys, hvalues]
    exact hc
  · rintro d e rfl strict a ha
    exact Lowering.evaluate_staysNatural strict ha hask

theorem Tidy.lasts (h : w.Tidy) {asks : List Ask} (hasks : ∀ ask ∈ asks, ask ≠ .call (.reset c)) :
    w.evaluators.size ≤ (asks.foldl Workspace.afterAsk w).evaluators.size ∧
      (w.evaluator c).context.Lasts ((asks.foldl Workspace.afterAsk w).evaluator c).context := by
  induction asks generalizing w with
  | nil => exact ⟨Nat.le_refl _, Std.Refl.refl _⟩
  | cons ask asks ih =>
    obtain ⟨hsize, hstep⟩ := h.proceeds (hasks ask (List.mem_cons_self ..))
    obtain ⟨hsize', hrest⟩ := ih (h.afterAsk ask)
      fun ask' hask' => hasks ask' (List.mem_cons_of_mem ask hask')
    exact ⟨Nat.le_trans hsize hsize', IsTrans.trans _ _ _ hstep.toLasts hrest⟩

/-! ### Evaluating -/

/-- A context is ready to evaluate in the arena of what it admits. -/
theorem Coherent.ready (h : w.Coherent) (hc : c < w.evaluators.size) {e : Expr}
    (hadmits : (w.evaluator c).context.Admits (.expr e) e) :
    Lowering.Ready (w.arena e.arena)
      { w.lowered c with context := { (w.evaluator c).context with arena := some e.arena } } := by
  have hbind := h.bind c (.expr e)
  rw [inContext_bind hadmits] at hbind
  change (w.setContext c _).Coherent at hbind
  have hfaithful := hbind.contexts c
  rw [arenaOf, programOf, evaluator_setContext_self hc] at hfaithful
  exact ⟨h.programs _, hfaithful⟩

/-- An evaluation of an operand ends as the evaluation of its node does. -/
theorem Coherent.evaluateOperand_ends (h : w.Coherent) (hc : c < w.evaluators.size) {root : Nat}
    (hroot : root < (w.arena k).size) (hnear : ¬w.Foreign c k) :
    Lowering.Ends (fun w => w.lowered c) w.strict (w.arena k) root (w.lowered c)
      (Workspace.evaluateOperand c (.expr ⟨k, root⟩) w) := by
  have hadmits : (w.evaluator c).context.Admits (.expr ⟨k, root⟩) ⟨k, root⟩ :=
    ⟨rfl, fun k' hk' => Decidable.byContradiction fun hne => hnear ⟨k', hk', hne⟩⟩
  obtain ⟨n, hn⟩ := Arena.exists_node? hroot
  have hends := Lowering.evaluate_ends w.strict (h.ready hc hadmits) (h.arenas k) hroot
  rw [evaluateOperand_eq hc hadmits (arena_lt_of_node? hn)]
  exact Lowering.Ends.rebind (s := w.lowered c) (fun w => w.lowered c) (w.setLowered c)
    (lowered_setLowered hc (h.program_lt c hc)) hends

/-- What can be relied on of a context. -/
structure Survives (c : ContextId) (w : Workspace) : Prop where
  /-- A remembered node is there with its buffer, and its operands are remembered. -/
  closed : ∀ i b, (w.evaluator c).context.buffer? i = some b →
    (∃ cell, (w.programOf c).cell? b = some cell) ∧
    ∃ n, (w.arenaOf c).node? i = some n ∧
      ∀ x ∈ n.operands, ((w.evaluator c).context.buffer? x).isSome
  numbered : (w.evaluator c).context.WellNumbered
  evaluates : ∀ k root, root < (w.arena k).size → ¬w.Foreign c k →
    Lowering.Ends (fun w => w.lowered c) w.strict (w.arena k) root (w.lowered c)
      (evaluateOperand c (.expr ⟨k, root⟩) w)
  foreign : ∀ k root, w.Foreign c k →
    evaluateOperand c (.expr ⟨k, root⟩) w = .error .foreignContext w

theorem Tidy.survives (h : w.Tidy) (hc : c < w.evaluators.size) : Survives c w where
  closed i b hb :=
    ⟨(h.coherent.contexts c).exists_cell hb, (h.coherent.contexts c).operands_remembered hb⟩
  numbered := h.numbered c
  evaluates _ _ hroot hnear := h.coherent.evaluateOperand_ends hc hroot hnear
  foreign _ _ := by
    rintro ⟨k', hbound, hk'⟩
    exact evaluateOperand_foreign hbound hk'

theorem Tidy.afterAll (h : w.Tidy) (asks : List Ask) :
    (asks.foldl Workspace.afterAsk w).Tidy := by
  induction asks generalizing w with
  | nil => exact h
  | cons ask asks ih => exact ih (h.afterAsk ask)

theorem naturalKeys_afterAsks {asks : List Ask} (hasks : ∀ ask ∈ asks, ask.Natural)
    (c : ContextId) : ((afterAsks asks).evaluator c).context.NaturalKeys := by
  have hall : ∀ {w : Workspace}, w.Coherent → (w.evaluator c).context.NaturalKeys →
      ((asks.foldl afterAsk w).evaluator c).context.NaturalKeys := by
    induction asks with
    | nil => exact fun _ hw => hw
    | cons ask asks ih =>
      intro w h hw
      exact ih (fun ask' hask' => hasks ask' (List.mem_cons_of_mem ask hask')) (h.afterAsk ask)
        (h.naturalKeys (hasks ask (List.mem_cons_self ..)) hw)
  exact hall coherent_start (Context.naturalKeys_fresh true)

/-- Whatever a workspace is asked, with success or not, its contexts survive: they remember nodes
with their operands and their buffers, each under an id of its own. An evaluation of a node is
refused if the context is bound to another arena; it ends with all nodes evaluated that were not
remembered, or it stops at a node whose id is in use or that conflicts with the program, having
evaluated those below that node. Either way ids are in use as before, and what is remembered stays,
under its id and in its buffer, until the context starts over; so a later evaluation, for which the
same holds, does not evaluate it again. -/
theorem contexts_survive (asks : List Ask) {c : ContextId}
    (hc : c < (afterAsks asks).evaluators.size) :
    Survives c (afterAsks asks) ∧
    ((∀ ask ∈ asks, ask.Natural) → ((afterAsks asks).evaluator c).context.NaturalKeys) ∧
    ∀ later : List Ask, (∀ ask ∈ later, ask ≠ .call (.reset c)) →
      Survives c (afterAsks (asks ++ later)) ∧
      ((afterAsks asks).evaluator c).context.Lasts
        ((afterAsks (asks ++ later)).evaluator c).context := by
  have htidy : (afterAsks asks).Tidy := tidy_start.afterAll asks
  refine ⟨htidy.survives hc, fun hasks => naturalKeys_afterAsks hasks c, fun later hlater => ?_⟩
  obtain ⟨hsize, hlasts⟩ := htidy.lasts hlater
  simp only [afterAsks, List.foldl_append] at hc hsize hlasts ⊢
  exact ⟨(htidy.afterAll later).survives (Nat.lt_of_lt_of_le hc hsize), hlasts⟩

/-- The second id is entered, where the exponential of a parameter is to be evaluated. -/
def interrupted : List Ask :=
  [.call (.newContext none true), .call (.param 0 (.shape ⟨[2]⟩) none),
    .call (.unary .exp ⟨0, 0⟩), .call (.enter 0 2), .evalId 0 (.expr ⟨0, 1⟩)]

theorem contexts_survive_interrupted :
    Survives 0 (afterAsks interrupted) ∧
    ((afterAsks interrupted).evaluator 0).context.NaturalKeys ∧
    Survives 0 (afterAsks (interrupted ++ [.call (.exit 0 2)])) := by
  have hmade : (start.afterAsk (.call (.newContext none true))).Tidy := tidy_start.afterAsk _
  have hsize : 0 < (start.afterAsk (.call (.newContext none true))).evaluators.size := by decide
  have htail : ∀ ask ∈ interrupted.tail, ask ≠ .call (.reset 0) := by simp [interrupted]
  have hlasts := hmade.lasts htail
  obtain ⟨hsurvives, hnatural, hlater⟩ := contexts_survive interrupted (c := 0)
    (Nat.lt_of_lt_of_le hsize hlasts.1)
  exact ⟨hsurvives, hnatural (by simp [interrupted, Ask.Natural]), (hlater _ (by simp)).1⟩

end TensorGraph.Workspace
