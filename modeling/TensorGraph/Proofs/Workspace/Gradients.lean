import TensorGraph.Proofs.Workspace.Passes

/-!
# Gradients in any order of calls

Whatever is called in between, also where calls fail: in an arena that operators build, the
gradients that a context keeps add up what the passes since its last reset gave, and a pass gives
the parameters that its output reaches.
-/

namespace TensorGraph.Workspace

open Differentiation

/-- An arena that operators build grows as they make it grow. -/
theorem carryOut_grows {k : ArenaId} {call : Call} (h : call.RegularIn k) (w : Workspace) :
    (w.arena k).GrowsUniformly ((stateAfter (call.carryOut w)).arena k) := by
  by_cases hadd : ∃ id kind operands shape name, call = .addNode id kind operands shape name
  · obtain ⟨id, kind, operands, shape, name, rfl⟩ := hadd
    have hid : id ≠ k := h
    rw [Call.carryOut, stateAfter_discard, Workspace.addNode, building_elsewhere hid]
    exact Std.Refl.refl _
  · refine carryOut_arenas (R := Arena.GrowsUniformly) id call ?_ w k
    exact fun id kind operands shape name hcall =>
      absurd ⟨id, kind, operands, shape, name, hcall⟩ hadd

/-- Evaluating leaves gradients alone. -/
theorem evaluateOperand_keepsGradients (c : ContextId) (o : Operand) :
    Keeps (ContextsBy Context.KeepsGradients) (evaluateOperand c o) := by
  refine Keeps.bind (inContext_contexts (Context.bind_gradients o) c) fun e w => ?_
  simp only [evaluateExpr]
  split
  · exact Std.Refl.refl w
  · rename_i a _
    refine lowering_contexts (fun s => ?_) c w
    have hlowers := Lowering.evaluate_lowers w.strict a e.index s
    exact ⟨hlowers.grads, fun k hk => hlowers.bound.trans hk⟩

theorem evaluator_newContext (program : Option ProgramId) (requiresGrad : Bool) (w : Workspace)
    (c : ContextId) : ∃ p, (stateAfter (newContext program requiresGrad w)).evaluator c =
      if c = w.evaluators.size then { context := .fresh requiresGrad, program := p }
      else w.evaluator c := by
  cases program with
  | some p => exact ⟨p, getD_push ..⟩
  | none => exact ⟨w.programs.size, getD_push ..⟩

/-- A new context has no gradients. -/
theorem newContext_keepsGradients (program : Option ProgramId) (requiresGrad : Bool)
    (w : Workspace) (c : ContextId) : (w.evaluator c).context.KeepsGradients
      ((stateAfter (newContext program requiresGrad w)).evaluator c).context := by
  obtain ⟨p, hafter⟩ := evaluator_newContext program requiresGrad w c
  rw [hafter]
  split
  · rename_i hc
    rw [evaluator_of_size_le (Nat.le_of_eq hc.symm)]
    refine ⟨rfl, fun a ha => ?_⟩
    cases ha
  · exact Std.Refl.refl _

/-- A call that neither resets nor differentiates leaves the gradients of a context alone. -/
theorem carryOut_keepsGradients {call : Call} (hreset : ∀ c, call ≠ .reset c)
    (hbackward : ∀ c output seed wrt, call ≠ .backward c output seed wrt) (w : Workspace)
    (c : ContextId) : (w.evaluator c).context.KeepsGradients
      ((stateAfter (call.carryOut w)).evaluator c).context := by
  by_cases hnew : ∃ p requiresGrad, call = .newContext p requiresGrad
  · obtain ⟨p, requiresGrad, rfl⟩ := hnew
    rw [Call.carryOut, stateAfter_discard]
    exact newContext_keepsGradients p requiresGrad w c
  · refine (carryOut_contexts (R := Context.KeepsGradients) ?_ call ?_ hreset ?_ ?_ w).2 c |>.2
    · exact fun _ hbound hgrads => ⟨hgrads, fun k hk => hbound.trans hk⟩
    · exact fun p requiresGrad hcall => hnew ⟨p, requiresGrad, hcall⟩
    · exact fun d o _ => evaluateOperand_keepsGradients d o
    · exact fun d output seed wrt hcall => absurd hcall (hbackward d output seed wrt)

/-- A reset forgets what passes gave. -/
theorem ledgerStep_reset {k : ArenaId} {c : ContextId} {w : Workspace} (passes : List PassRecord)
    (d : ContextId) (hd : d < w.evaluators.size) :
    LedgerStep k c w passes (stateAfter (Workspace.reset d w)) (if d = c then [] else passes) := by
  have hafter := evaluator_reset d c w
  by_cases hdc : d = c
  · subst hdc
    rw [if_pos ⟨rfl, hd⟩] at hafter
    rw [if_pos rfl]
    exact .forgets (w.evaluator d).context.requiresGrad (congrArg Evaluator.context hafter)
  · rw [if_neg fun hcd => hdc hcd.1.symm] at hafter
    rw [if_neg hdc]
    refine .quiet ?_
    rw [hafter]
    exact Std.Refl.refl _

/-- What a call does to the gradients that a context has in an arena, and to its passes. -/
theorem ledgerStep_after {k : ArenaId} {call : Call} (hregular : call.RegularIn k) (w : Workspace)
    (c : ContextId) (passes : List PassRecord) :
    LedgerStep k c w passes (w.after call) (w.passesAfter c passes call) := by
  have hquiet : (∀ d, call ≠ .reset d) → (∀ d output seed wrt, call ≠ .backward d output seed wrt) →
      LedgerStep k c w passes (w.after call) passes := by
    intro hreset hbackward
    simp only [Workspace.after]
    split
    · exact .quiet (carryOut_keepsGradients hreset hbackward w c)
    · exact .quiet (Std.Refl.refl _)
  cases call with
  | reset d =>
    simp only [Workspace.after]
    split
    · rename_i hnamed
      exact ledgerStep_reset passes d (Call.lt_of_named rfl hnamed)
    · rename_i hnamed
      simp only [passesAfter]
      split
      · -- a context that is not there is like a fresh one
        rename_i hd
        subst hd
        have hsize : ¬d < w.evaluators.size := fun hd => hnamed (Call.named_of_lt rfl rfl hd)
        exact .forgets true (by rw [evaluator_of_size_le (Nat.le_of_not_lt hsize)]; rfl)
      · exact .quiet (Std.Refl.refl _)
  | backward d output seed wrt =>
    simp only [Workspace.after, passesAfter]
    split
    · rename_i hnamed
      rw [Call.carryOut, stateAfter_discard]
      by_cases hd : d = c
      · subst hd
        exact ledgerStep_differentiate (Call.lt_of_named rfl hnamed) hregular
      · rw [passOf_of_not fun hdc => hd hdc.1]
        exact ledgerStep_other hd output seed wrt
    · rename_i hnamed
      have hc : ¬(d = c ∧ c < w.evaluators.size) := by
        rintro ⟨rfl, hd⟩
        exact hnamed (Call.named_of_lt rfl rfl hd)
      rw [passOf_of_not hc]
      exact .quiet (Std.Refl.refl _)
  | _ => exact hquiet (by simp) (by simp)

theorem after_growsUniformly {k : ArenaId} {call : Call} (h : call.RegularIn k) (w : Workspace) :
    (w.arena k).GrowsUniformly ((w.after call).arena k) := by
  simp only [Workspace.after]
  split
  · exact carryOut_grows h w
  · exact Std.Refl.refl _

namespace Tallied

variable {R : Type} [CommRing R] {F : Functions R} {ρ : Nat → R} {k : ArenaId} {c : ContextId}
  {w : Workspace} {passes : List PassRecord}

/-- A call adds the record of the pass that it carries out. -/
theorem after (h : Tallied F ρ k c w passes) {call : Call} (hregular : call.RegularIn k) :
    Tallied F ρ k c (w.after call) (w.passesAfter c passes call) := by
  have hgrows := after_growsUniformly hregular w
  have hstep := ledgerStep_after hregular w c passes
  generalize w.after call = w', w.passesAfter c passes call = passes' at hgrows hstep ⊢
  cases hstep with
  | quiet hkeeps => exact h.grow hgrows hkeeps
  | forgets requiresGrad hcontext =>
    refine ⟨hgrows.regular h.regular, fun _ => ⟨rfl, fun i => ?_⟩, fun hsome => ?_⟩
    · rw [hcontext]
      exact Table.get?_empty i
    · rw [hcontext] at hsome
      cases hsome
  | pass hc haccepts hnatural hstate =>
    subst hstate
    exact h.differentiate_accepted hc haccepts hnatural
  | elsewhere hne hbound =>
    refine ⟨hgrows.regular h.regular, fun hnone => ?_, fun hsome => ?_⟩
    · rw [hbound] at hnone
      cases hnone
    · rw [hbound] at hsome
      exact absurd (Option.some.inj hsome) hne

/-- Calls add the records of the passes that they carry out. -/
theorem ledgerFrom (h : Tallied F ρ k c w passes) {calls : List Call}
    (hcalls : ∀ call ∈ calls, call.RegularIn k) :
    Tallied F ρ k c (calls.foldl Workspace.after w) (w.ledgerFrom c passes calls) := by
  induction calls generalizing w passes with
  | nil => exact h
  | cons call calls ih =>
    apply ih (h.after (hcalls call (List.mem_cons_self ..)))
    intro call' hcall'
    exact hcalls call' (List.mem_cons_of_mem call hcall')

end Tallied

theorem tallied_start {R : Type} [CommRing R] (F : Functions R) (ρ : Nat → R) (k : ArenaId)
    (c : ContextId) : Tallied F ρ k c start [] := by
  refine ⟨arena_start k ▸ Arena.regular_empty, fun _ => ⟨rfl, fun i => ?_⟩, fun hsome => ?_⟩
  · exact Table.get?_empty i
  · cases hsome

/-- After any calls that build an arena with its operators, what a context keeps there is what the
passes of its ledger gave. -/
theorem afterAll_tallied {R : Type} [CommRing R] (F : Functions R) (ρ : Nat → R) {k : ArenaId}
    {calls : List Call} (hcalls : ∀ call ∈ calls, call.RegularIn k) (c : ContextId) :
    Tallied F ρ k c (afterAll calls) (ledger calls c) :=
  (tallied_start F ρ k c).ledgerFrom hcalls

/-- Every entry of a context, whatever the passes and whatever was called in between, is worth the
sum of what the passes in which its node was live gave: the value of the seed times the tangent of
the output along the node. -/
theorem gradients_add_up {k : ArenaId} {calls : List Call}
    (hcalls : ∀ call ∈ calls, call.RegularIn k) {c : ContextId}
    (hbound : ((afterAll calls).evaluator c).context.arena = some k) {R : Type} [CommRing R]
    (F : Functions R) (ρ : Nat → R) {i g : Int}
    (hg : ((afterAll calls).evaluator c).context.grads.get? i = some g) :
    ∃ n m : Nat, i = n ∧ g = m ∧ m < ((afterAll calls).arena k).size ∧
      ((afterAll calls).arena k).value F ρ m =
        ((afterAll calls).arena k).gains F ρ n (ledger calls c) := by
  have htally := (afterAll_tallied F ρ hcalls c).bound hbound
  obtain ⟨n, node, rfl, -, m, seed, rfl, hm, -⟩ := htally.shaped i g hg
  refine ⟨n, m, rfl, rfl, Arena.lt_size_of_node? hm, ?_⟩
  rw [← htally.total, Arena.gradient, hg]
  rfl

/-- A parameter and its exponential, and a context that was asked about neither. -/
def exponential : List Call :=
  [.newContext none true, .param 0 (.shape ⟨[]⟩) none, .unary .exp ⟨0, 0⟩]

theorem exponential_regular : ∀ call ∈ exponential, call.RegularIn 0 := by
  simp [exponential, Call.RegularIn]

theorem exponential_accepts : ((afterAll exponential).differentiation 0 0).Accepts
    (.expr ⟨0, 1⟩) none none ⟨0, 1⟩ ⟨.unary .exp 0, ⟨[]⟩, none⟩ := by
  refine accepts_default rfl ⟨rfl, fun a ha => ?_⟩ rfl
  cases ha

/-- A run that differentiates. -/
def exponentialPass : List Call := exponential ++ [.backward 0 (.expr ⟨0, (1 : Nat)⟩) none none]

theorem gradients_add_up_exponential :
    ∃ (g : Int) (m : Nat), ((afterAll exponentialPass).evaluator 0).context.grads.get? 0 = some g ∧
      g = m ∧
      ((afterAll exponentialPass).arena 0).value (R := Int) ⟨id, id, id, id⟩ (fun _ => 1) m =
        ((afterAll exponentialPass).arena 0).gains ⟨id, id, id, id⟩ (fun _ => 1) 0
          (ledger exponentialPass 0) := by
  have hc : 0 < (afterAll exponential).evaluators.size := by decide
  have htallied := afterAll_tallied (R := Int) ⟨id, id, id, id⟩ (fun _ => 1) exponential_regular 0
  obtain ⟨o, w', hok, hcomplete⟩ := htallied.complete hc exponential_accepts nofun
  have hw' : afterAll exponentialPass = w' := by
    rw [afterAll, exponentialPass, List.foldl_append]
    change (afterAll exponential).after (.backward 0 (.expr ⟨0, (1 : Nat)⟩) none none) = w'
    rw [Workspace.after, if_pos (by decide), Call.carryOut, stateAfter_discard, hok]
    rfl
  have hbound := differentiate_bound (e := ⟨0, (1 : Nat)⟩) hc exponential_accepts
  have hlive : ((afterAll exponential).arena 0).Live (AskedFor none) 1 0 := by
    have hr : Reaches ((afterAll exponential).arena 0).operands 1 0 :=
      .step (List.mem_singleton_self 0) (.refl 0)
    exact ⟨hr, 0, .refl 0, rfl, askedFor_none 0⟩
  obtain ⟨g, hg⟩ := hcomplete.live 0 hlive
  rw [hok] at hbound
  rw [← hw'] at hg hbound
  have hregular : ∀ call ∈ exponentialPass, call.RegularIn 0 := by
    simp [exponentialPass, exponential, Call.RegularIn, Operand.Natural]
  obtain ⟨n, m, hn, hm, -, hvalue⟩ :=
    gradients_add_up hregular hbound ⟨id, id, id, id⟩ (fun _ => (1 : Int)) hg
  obtain rfl := Int.natCast_inj.mp hn
  exact ⟨g, m, hg, hm, hvalue⟩

/-- A pass is carried out exactly when its arguments are accepted. It gives the parameters that the
output reaches and that were asked for, and no others, and writes entries of live nodes only. -/
theorem backward_reaches_parameters {k : ArenaId} {calls : List Call}
    (hcalls : ∀ call ∈ calls, call.RegularIn k) {c : ContextId}
    (hc : c < (afterAll calls).evaluators.size) (y : Nat) {seed : Option Operand}
    (hseed : ∀ o, seed = some o → o.Natural) (wrt : Option (List Operand)) :
    ((∃ o w', differentiate c (.expr ⟨k, y⟩) seed wrt (afterAll calls) = .ok o w') ↔
      ∃ node, ((afterAll calls).differentiation c k).Accepts (.expr ⟨k, y⟩) seed wrt ⟨k, y⟩
        node) ∧
      ∀ o w', differentiate c (.expr ⟨k, y⟩) seed wrt (afterAll calls) = .ok o w' →
        o.Complete ((afterAll calls).arena k) (AskedFor wrt) y
          ((afterAll calls).evaluator c).context.grads (w'.evaluator c).context.grads := by
  have htallied := afterAll_tallied (R := Int) ⟨id, id, id, id⟩ (fun _ => 0) hcalls c
  refine ⟨⟨?_, ?_⟩, ?_⟩
  · rintro ⟨o, w', hok⟩
    exact accepts_of_ok hok
  · rintro ⟨node, haccepts⟩
    obtain ⟨o, w', hok, -⟩ := htallied.complete hc haccepts hseed
    exact ⟨o, w', hok⟩
  · intro o w' hok
    obtain ⟨node, haccepts⟩ := accepts_of_ok hok
    obtain ⟨o', v, hok', hcomplete⟩ := htallied.complete hc haccepts hseed
    cases hok.symm.trans hok'
    exact hcomplete

theorem backward_reaches_parameters_exponential :
    ∃ o w', differentiate 0 (.expr ⟨0, (1 : Nat)⟩) none none (afterAll exponential) = .ok o w' ∧
      o.Complete ((afterAll exponential).arena 0) (AskedFor none) 1
        ((afterAll exponential).evaluator 0).context.grads (w'.evaluator 0).context.grads := by
  have hc : 0 < (afterAll exponential).evaluators.size := by decide
  have hseed : ∀ o, (none : Option Operand) = some o → o.Natural := nofun
  obtain ⟨haccepted, hcomplete⟩ := backward_reaches_parameters exponential_regular hc 1 hseed none
  obtain ⟨o, w', hok⟩ := haccepted.mpr ⟨_, exponential_accepts⟩
  exact ⟨o, w', hok, hcomplete o w' hok⟩

end TensorGraph.Workspace
