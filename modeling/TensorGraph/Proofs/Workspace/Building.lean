import TensorGraph.Proofs.Workspace.Call

/-!
# Calls that build

Making arenas, programs and contexts, building nodes and differentiating: such calls may fail
half-way, but they lower nothing. Whatever a context evaluated is as it was, and so are all programs
and the history.
-/

namespace TensorGraph.Workspace

/-- A call that lowers nothing: it makes something, or builds in an arena. -/
def Call.Builds : Call → Prop
  | .newArena | .newProgram | .newContext .. | .setStrict _ => True
  | .param .. | .zero .. | .addNode .. | .unary .. | .binary .. | .backward .. => True
  | _ => False

/-- What contexts evaluated stays, in programs that stay. -/
structure Spares (w w' : Workspace) : Prop where
  size_le : w.evaluators.size ≤ w'.evaluators.size
  programs_le : w.programs.size ≤ w'.programs.size
  program : ∀ p, w'.program p = w.program p
  history : w'.history = w.history
  place : ∀ c < w.evaluators.size, (w'.evaluator c).program = (w.evaluator c).program
  /-- A context that is made has evaluated nothing, like one that is not there. -/
  context : ∀ c, (w.evaluator c).context.KeepsEvaluations (w'.evaluator c).context

instance : IsPreorder Workspace Spares where
  refl w := ⟨Nat.le_refl _, Nat.le_refl _, fun _ => rfl, rfl, fun _ _ => rfl,
    fun c => Std.Refl.refl (w.evaluator c).context⟩
  trans _ _ _ huv hvw :=
    ⟨Nat.le_trans huv.size_le hvw.size_le, Nat.le_trans huv.programs_le hvw.programs_le,
      fun p => (hvw.program p).trans (huv.program p), hvw.history.trans huv.history,
      fun c hc => (hvw.place c (Nat.lt_of_lt_of_le hc huv.size_le)).trans (huv.place c hc),
      fun c => IsTrans.trans _ _ _ (huv.context c) (hvw.context c)⟩

theorem spares_of_same {w w' : Workspace} (hevaluators : w'.evaluators = w.evaluators)
    (hprograms : w'.programs = w.programs) (hhistory : w'.history = w.history) : w.Spares w' := by
  have hevaluator : ∀ c, w'.evaluator c = w.evaluator c := fun c => by
    rw [evaluator, evaluator, hevaluators]
  refine ⟨?_, ?_, fun p => ?_, hhistory, fun c _ => ?_, fun c => ?_⟩
  · exact Nat.le_of_eq (congrArg Array.size hevaluators.symm)
  · exact Nat.le_of_eq (congrArg Array.size hprograms.symm)
  · rw [program, program, hprograms]
  · rw [hevaluator]
  · rw [hevaluator]
    exact Std.Refl.refl _

theorem newProgram_spares : Keeps Spares newProgram := by
  intro w
  have hprogram : ∀ p, (stateAfter (newProgram w)).program p = w.program p := fun p =>
    getD_push_default ..
  have hsize : (stateAfter (newProgram w)).programs.size = w.programs.size + 1 :=
    Array.size_push ..
  exact ⟨Nat.le_refl _, by omega, hprogram, rfl, fun _ _ => rfl,
    fun c => Std.Refl.refl (w.evaluator c).context⟩

theorem pushContext_spares (requiresGrad : Bool) (p : ProgramId) (w : Workspace) :
    w.Spares { w with
      evaluators := w.evaluators.push { context := .fresh requiresGrad, program := p } } := by
  have hevaluator : ∀ c, (w.evaluators.push
      { context := .fresh requiresGrad, program := p }).getD c {} =
        if c = w.evaluators.size then { context := .fresh requiresGrad, program := p }
        else w.evaluator c := fun c => getD_push ..
  refine ⟨by simp, Nat.le_refl _, fun _ => rfl, rfl, fun c hc => ?_, fun c => ?_⟩
  · simp only [evaluator] at hevaluator ⊢
    rw [hevaluator, if_neg (Nat.ne_of_lt hc)]
  · simp only [evaluator] at hevaluator ⊢
    rw [hevaluator]
    split
    · rename_i hc
      rw [getD_of_size_le (Nat.le_of_eq hc.symm)]
      exact ⟨rfl, rfl, rfl, rfl, fun a ha => by cases ha⟩
    · exact Std.Refl.refl _

theorem newContext_spares (program : Option ProgramId) (requiresGrad : Bool) :
    Keeps Spares (newContext program requiresGrad) := by
  cases program with
  | some p => exact pushContext_spares requiresGrad p
  | none => exact Keeps.bind newProgram_spares fun p => pushContext_spares requiresGrad p

/-- Differentiating writes gradients only. -/
theorem differentiate_spares (c : ContextId) (output : Operand) (seed : Option Operand)
    (wrt : Option (List Operand)) : Keeps Spares (differentiate c output seed wrt) := by
  intro w
  have hcontexts := differentiating_contexts (R := Context.KeepsEvaluations)
    (Differentiation.backward_context (R := Context.KeepsEvaluations) Context.bind_evaluations
      (fun _ _ => ⟨rfl, rfl, rfl, rfl, fun _ h => h⟩) output seed wrt) c output.arena w
  obtain ⟨evaluators, arenas, hafter, -⟩ :=
    differentiating_after c output.arena (Differentiation.backward output seed wrt) w
  rw [hafter] at hcontexts
  rw [differentiate, hafter]
  exact ⟨Nat.le_of_eq hcontexts.1.symm, Nat.le_refl _, fun _ => rfl, rfl,
    fun d _ => (hcontexts.2 d).1, fun d => (hcontexts.2 d).2⟩

theorem carryOut_spares {call : Call} (h : call.Builds) : Keeps Spares call.carryOut := by
  have harenas : ∀ (w : Workspace) (arenas : Arenas), w.Spares { w with arenas } := fun _ _ =>
    spares_of_same rfl rfl rfl
  have hbuild : ∀ (k : ArenaId) (x : Build Nat), Keeps Spares (Workspace.building k x) :=
    building_frame harenas
  cases call with
  | newArena => exact Keeps.discard fun w => harenas w _
  | newProgram => exact Keeps.discard newProgram_spares
  | newContext program requiresGrad => exact Keeps.discard (newContext_spares program requiresGrad)
  | setStrict strict => exact fun w => spares_of_same rfl rfl rfl
  | param k shape name => exact Keeps.discard fun w => hbuild k _ w
  | zero k shape => exact Keeps.discard fun w => hbuild k _ w
  | addNode k kind operands shape name => exact Keeps.discard (hbuild k _)
  | unary k e => exact Keeps.discard (hbuild e.arena _)
  | binary op l r =>
    exact Keeps.discard (Keeps.bind (rightOperand_keeps l r) fun e => hbuild l.arena _)
  | backward c output seed wrt => exact Keeps.discard (differentiate_spares c output seed wrt)
  | _ => exact absurd h (by simp [Call.Builds])

theorem after_spares {call : Call} (h : call.Builds) (w : Workspace) : w.Spares (w.after call) := by
  simp only [after]
  split
  · exact carryOut_spares h w
  · exact Std.Refl.refl w

end TensorGraph.Workspace
