import TensorGraph.Proofs.Gradient.Counterpart
import TensorGraph.Proofs.Workspace.Evaluation

/-!
# Turns of contexts

A turn of a context evaluates, differentiates or looks a gradient up, from nodes of one arena. It
leaves other contexts and the programs of others alone, and the arena grows. When a context has a
counterpart in another workspace, both are told the same in corresponding turns, and are
counterparts afterwards.
-/

namespace TensorGraph

/-- What a context does in a turn, with what it names. -/
inductive Move (ν : Type) where
  | evaluate (x : ν)
  | backward (output : ν) (seed : Option ν) (wrt : Option (List ν))
  | gradientOf (x : ν)
deriving DecidableEq, Repr

/-- What a context is told in a turn. -/
inductive Reply where
  /-- The buffer and the evaluation id of a node. -/
  | evaluated (buffer id : Nat)
  | differentiated (gradients : List (Int × Int))
  | gradient (g : Option Int)
  | refused (e : Error)
  /-- Something was named that the context did not know. -/
  | unnamed

/-- Moves of one kind that name corresponding nodes. -/
inductive Move.Rel {μ ν : Type} (R : μ → ν → Prop) : Move μ → Move ν → Prop
  | evaluate {x : μ} {y : ν} (h : R x y) : Rel R (.evaluate x) (.evaluate y)
  | backward {o : μ} {o' : ν} {s : Option μ} {s' : Option ν} {w : Option (List μ)}
    {w' : Option (List ν)} (output : R o o') (seed : Option.Rel R s s')
    (wrt : Option.Rel (List.Forall₂ R) w w') : Rel R (.backward o s w) (.backward o' s' w')
  | gradientOf {x : μ} {y : ν} (h : R x y) : Rel R (.gradientOf x) (.gradientOf y)

/-- Replies that tell the same, about corresponding nodes. -/
inductive Reply.Matches (E : Embedding) : Reply → Reply → Prop
  | evaluated (buffer id : Nat) : Matches E (.evaluated buffer id) (.evaluated buffer id)
  | differentiated {gs hs : List (Int × Int)} (h : List.Forall₂ E.PairsMatch gs hs) :
    Matches E (.differentiated gs) (.differentiated hs)
  | gradient {g h : Option Int} (hgh : Option.Rel E.Matches g h) :
    Matches E (.gradient g) (.gradient h)
  | refused (e : Error) : Matches E (.refused e) (.refused e)
  | unnamed : Matches E .unnamed .unnamed

theorem Reply.Matches.mono {E F : Embedding} {r r' : Reply} (h : Matches E r r')
    (hEF : E.Extends F) : Matches F r r' := by
  cases h with
  | evaluated buffer id => exact .evaluated buffer id
  | differentiated h =>
    exact .differentiated (h.imp fun _ _ hxy => ⟨hxy.1.mono hEF, hxy.2.mono hEF⟩)
  | gradient hgh => exact .gradient (Embedding.rel_mono hEF hgh)
  | refused e => exact .refused e
  | unnamed => exact .unnamed

namespace Workspace

/-- A turn of a context, from nodes of an arena. -/
def turn (k : ArenaId) (c : ContextId) : Move Int → Work Reply
  | .evaluate i => do
    let buffer ← evaluateOperand c (Request.operand k i)
    contextOf c fun s => .evaluated buffer (s.context.evalId i)
  | .backward output seed wrt => do
    let r : Request := ⟨output, seed, wrt⟩
    let o ← differentiate c (Request.operand k output) (r.seedIn k) (r.wrtIn k)
    return .differentiated o.gradients
  | .gradientOf i => do
    let e ← inContext c (Context.bind (Request.operand k i))
    contextOf c fun s => .gradient (s.context.grads.get? e.index)

/-! ### What a turn leaves alone -/

/-- A turn of a context leaves other contexts and other programs alone, and arenas grow. -/
structure Tended (d : ContextId) (w w' : Workspace) : Prop where
  evaluators : w'.evaluators.size = w.evaluators.size
  programs : w'.programs.size = w.programs.size
  strict : w'.strict = w.strict
  placed : ∀ c, (w'.evaluator c).program = (w.evaluator c).program
  others : ∀ c, c ≠ d → w'.evaluator c = w.evaluator c
  untouched : ∀ p, p ≠ (w.evaluator d).program → w'.program p = w.program p
  grown : ∀ j, (w.arena j).GrowsUniformly (w'.arena j)

instance (d : ContextId) : IsPreorder Workspace (Tended d) where
  refl w := ⟨rfl, rfl, rfl, fun _ => rfl, fun _ _ => rfl, fun _ _ => rfl,
    fun j => Std.Refl.refl (w.arena j)⟩
  trans u v w huv hvw := by
    refine ⟨hvw.evaluators.trans huv.evaluators, hvw.programs.trans huv.programs,
      hvw.strict.trans huv.strict, fun c => (hvw.placed c).trans (huv.placed c),
      fun c hc => (hvw.others c hc).trans (huv.others c hc), fun p hp => ?_,
      fun j => IsTrans.trans _ _ _ (huv.grown j) (hvw.grown j)⟩
    rw [hvw.untouched p (huv.placed d ▸ hp), huv.untouched p hp]

section Frames

variable {α : Type} (c : ContextId)

theorem contextOf_tended (f : Evaluator → α) : Keeps (Tended c) (contextOf c f) := fun w =>
  Std.Refl.refl w

theorem inContext_tended (x : EStateM Error Context α) : Keeps (Tended c) (inContext c x) := by
  intro w
  obtain ⟨evaluators, hafter, hsize, hevaluators⟩ := inContext_after c x w
  rw [hafter]
  refine ⟨hsize, rfl, rfl, fun d => ?_, fun d hd => ?_, fun _ _ => rfl, fun j => Std.Refl.refl _⟩
  · rw [evaluator, hevaluators]
    split
    · rename_i hd
      rw [hd.1]
    · rfl
  · rw [evaluator, hevaluators, if_neg fun h => hd h.1]

theorem lowering_tended (x : Lower α) : Keeps (Tended c) (lowering c x) := by
  intro w
  obtain ⟨evaluators, programs, history, hafter, hsize, hsize', hevaluators, hprograms⟩ :=
    lowering_after c x w
  rw [hafter]
  refine ⟨hsize, hsize', rfl, fun d => ?_, fun d hd => ?_, fun p hp => ?_, fun j => Std.Refl.refl _⟩
  · rw [evaluator, hevaluators]
    split
    · rename_i hd
      rw [hd.1]
    · rfl
  · rw [evaluator, hevaluators, if_neg fun h => hd h.1]
  · rw [program, hprograms, if_neg fun h => hp h.1]

theorem differentiate_tended (output : Operand) (seed : Option Operand)
    (wrt : Option (List Operand)) : Keeps (Tended c) (differentiate c output seed wrt) := by
  intro w
  have hgrown := differentiating_arenas (R := Arena.GrowsUniformly)
    (fun s => (Differentiation.backward_keeps output seed wrt s).1) c output.arena w
  obtain ⟨evaluators, arenas, hafter, hsize, hevaluators, -⟩ :=
    differentiating_after c output.arena (Differentiation.backward output seed wrt) w
  rw [differentiate]
  rw [hafter] at hgrown ⊢
  refine ⟨hsize, rfl, rfl, fun d => ?_, fun d hd => ?_, fun _ _ => rfl, hgrown⟩
  · rw [evaluator, hevaluators]
    split
    · rename_i hd
      rw [hd.1]
    · rfl
  · rw [evaluator, hevaluators, if_neg fun h => hd h.1]

theorem turn_tended (k : ArenaId) (m : Move Int) : Keeps (Tended c) (turn k c m) := by
  cases m with
  | evaluate i =>
    refine Keeps.bind (Keeps.bind (inContext_tended c _) fun e w => ?_) fun b =>
      contextOf_tended c _
    simp only [evaluateExpr]
    split
    · exact Std.Refl.refl w
    · exact lowering_tended c _ w
  | backward output seed wrt =>
    exact Keeps.bind (differentiate_tended c _ _ _) fun o => Keeps.pure _
  | gradientOf i => exact Keeps.bind (inContext_tended c _) fun e => contextOf_tended c _

end Frames

/-! ### Counterparts -/

/-- A context and its program are where they should be, and the arena was built by operators. -/
structure Seated (k : ArenaId) (c : ContextId) (w : Workspace) : Prop where
  context : c < w.evaluators.size
  program : (w.evaluator c).program < w.programs.size
  regular : (w.arena k).Regular

/-- A context in one workspace has its counterpart in the other one, and both have one program. -/
structure Counterpart (E : Embedding) (k : ArenaId) (c : ContextId) (w w' : Workspace) : Prop where
  inner : E.inner = w.arena k
  outer : E.outer = w'.arena k
  context : (w.evaluator c).context.Counterpart E k (w'.evaluator c).context
  program : w'.programOf c = w.programOf c

section Turns

variable {E F : Embedding} {k : ArenaId} {c d : ContextId} {w w' v : Workspace} {i j : Int}

theorem Seated.of_tended (h : Seated k c w) (hv : w.Tended d v) : Seated k c v where
  context := hv.evaluators ▸ h.context
  program := by
    rw [hv.placed, hv.programs]
    exact h.program
  regular := (hv.grown k).regular h.regular

namespace Counterpart

/-- A context may be asked about nodes of the arena. -/
theorem admits (h : Counterpart E k c w w') (i : Int) :
    (w.evaluator c).context.Admits (.expr ⟨k, i⟩) ⟨k, i⟩ :=
  ⟨rfl, h.context.bound⟩

theorem admits' (h : Counterpart E k c w w') (i : Int) :
    (w'.evaluator c).context.Admits (.expr ⟨k, i⟩) ⟨k, i⟩ :=
  ⟨rfl, h.context.arena ▸ h.context.bound⟩

theorem lt_arenas (h : Counterpart E k c w w') (hij : E.Matches i j) : k < w.arenas.size := by
  obtain ⟨m, n, -, -, hn, -⟩ := hij.exists_node
  exact arena_lt_of_node? (h.inner ▸ hn)

theorem lt_arenas' (h : Counterpart E k c w w') (hij : E.Matches i j) : k < w'.arenas.size := by
  obtain ⟨m, n, -, -, -, hn⟩ := hij.exists_node
  exact arena_lt_of_node? (h.outer ▸ hn)

/-- Where other contexts take turns, only the arena changes. -/
theorem of_elsewhere (h : Counterpart E k c w w') (hv : w'.Tended d v) (hcd : c ≠ d)
    (hprogram : (w'.evaluator c).program ≠ (w'.evaluator d).program) :
    ∃ F, E.Extends F ∧ Counterpart F k c w v := by
  have hgrown : E.outer.Extends (v.arena k) := h.outer ▸ (hv.grown k).1.1
  have hevaluator := hv.others c hcd
  refine ⟨E.widen hgrown, E.extends_widen hgrown, h.inner, rfl, ?_, ?_⟩
  · rw [hevaluator]
    exact h.context.mono (E.extends_widen hgrown)
  · rw [programOf, hevaluator, hv.untouched _ hprogram]
    exact h.program

section Own

variable (h : Counterpart E k c w w') (hw : Seated k c w) (hw' : Seated k c w')

include h hw hw'

theorem setLowered {s t : Lowering} (hst : Lowering.Counterpart E k s t) :
    Counterpart E k c (w.setLowered c s) (w'.setLowered c t) where
  inner := h.inner
  outer := h.outer
  context := by
    rw [evaluator_setLowered hw.context, evaluator_setLowered hw'.context, if_pos rfl, if_pos rfl]
    exact hst.context
  program := by
    rw [programOf, programOf, evaluator_setLowered hw.context, evaluator_setLowered hw'.context,
      if_pos rfl, if_pos rfl, program_setLowered hw.program, program_setLowered hw'.program,
      if_pos rfl, if_pos rfl]
    exact hst.program

/-- Corresponding nodes are evaluated alike. -/
theorem evaluateOperand (hstrict : w'.strict = w.strict) (hij : E.Matches i j) :
    Agree Eq (Counterpart E k c) (Workspace.evaluateOperand c (Request.operand k i) w)
      (Workspace.evaluateOperand c (Request.operand k j) w') := by
  have hlt := h.lt_arenas hij
  have hlt' := h.lt_arenas' hij
  obtain ⟨m, hm, rfl, rfl⟩ := hij
  have hbound : Lowering.Counterpart E k
      { w.lowered c with context := { (w.evaluator c).context with arena := some k } }
      { w'.lowered c with context := { (w'.evaluator c).context with arena := some k } } :=
    ⟨h.context.bind, h.program⟩
  have hagree := hbound.evaluate w.strict (by rw [h.outer]; exact hw'.regular.wellFormed) hm
  rw [h.inner, h.outer, ← hstrict] at hagree
  rw [Request.operand, Request.operand, evaluateOperand_eq hw.context (h.admits _) hlt,
    evaluateOperand_eq hw'.context (h.admits' _) hlt', ← hstrict]
  generalize Lowering.evaluate w'.strict (w.arena k) (m : Int) _ = x at hagree ⊢
  generalize Lowering.evaluate w'.strict (w'.arena k) (E.place m : Int) _ = y at hagree ⊢
  cases hagree with
  | ok hb hst => exact .ok hb (h.setLowered hw hw' hst)
  | error e hst => exact .error e (h.setLowered hw hw' hst)

theorem setDifferentiated {s t : Differentiation} (hst : Differentiation.Counterpart F k s t)
    (hk : k < w.arenas.size) (hk' : k < w'.arenas.size) :
    Counterpart F k c (w.setDifferentiated c k s) (w'.setDifferentiated c k t) where
  inner := by
    rw [arena_setDifferentiated c hk, if_pos rfl]
    exact hst.inner
  outer := by
    rw [arena_setDifferentiated c hk', if_pos rfl]
    exact hst.outer
  context := by
    rw [evaluator_setDifferentiated hw.context, evaluator_setDifferentiated hw'.context,
      if_pos rfl, if_pos rfl]
    exact hst.context
  program := by
    rw [programOf, programOf, evaluator_setDifferentiated hw.context,
      evaluator_setDifferentiated hw'.context, if_pos rfl, if_pos rfl]
    exact h.program

/-- Corresponding requests have one outcome. -/
theorem differentiate {r r' : Request} (hmatches : r.Matches E r') :
    ∃ F, E.Extends F ∧ Agree (fun o o' => List.Forall₂ F.PairsMatch o.gradients o'.gradients)
      (Counterpart F k c)
      (Workspace.differentiate c (Request.operand k r.output) (r.seedIn k) (r.wrtIn k) w)
      (Workspace.differentiate c (Request.operand k r'.output) (r'.seedIn k) (r'.wrtIn k) w') := by
  have hk := h.lt_arenas hmatches.output
  have hk' := h.lt_arenas' hmatches.output
  obtain ⟨F, hEF, hagree⟩ := Request.backward_agree (h.inner ▸ hw.regular) (h.outer ▸ hw'.regular)
    h.context hmatches
  refine ⟨F, hEF, ?_⟩
  rw [h.inner, h.outer] at hagree
  change Agree _ _ (r.backward k (w.differentiation c k)) (r'.backward k (w'.differentiation c k))
    at hagree
  change Agree _ _ (differentiating c k (r.backward k) w) (differentiating c k (r'.backward k) w')
  rw [differentiating_eq, differentiating_eq]
  generalize r.backward k (w.differentiation c k) = x at hagree ⊢
  generalize r'.backward k (w'.differentiation c k) = y at hagree ⊢
  cases hagree with
  | ok ho hst => exact .ok ho (h.setDifferentiated hw hw' hst hk hk')
  | error e hst => exact .error e (h.setDifferentiated hw hw' hst hk hk')

/-- Both contexts are bound to the arena by being asked about it. -/
theorem bind (i j : Int) : Agree (fun e e' => e = ⟨k, i⟩ ∧ e' = ⟨k, j⟩) (Counterpart E k c)
    (inContext c (Context.bind (Request.operand k i)) w)
    (inContext c (Context.bind (Request.operand k j)) w') := by
  rw [Request.operand, Request.operand, inContext_bind (h.admits i), inContext_bind (h.admits' j)]
  refine .ok ⟨rfl, rfl⟩ ⟨h.inner, h.outer, ?_, ?_⟩
  · rw [evaluator_setContext_self hw.context, evaluator_setContext_self hw'.context]
    exact h.context.bind
  · rw [programOf, programOf, evaluator_setContext_self hw.context,
      evaluator_setContext_self hw'.context]
    exact h.program

/-- Both contexts are told the same in corresponding turns. -/
theorem turn (hstrict : w'.strict = w.strict) {m m' : Move Int} (hm : m.Rel E.Matches m') :
    ∃ F, E.Extends F ∧ Agree (Reply.Matches F) (Counterpart F k c) (turn k c m w)
      (turn k c m' w') := by
  cases hm with
  | evaluate hij =>
    refine ⟨E, .refl E, (h.evaluateOperand hw hw' hstrict hij).bind ?_⟩
    rintro b _ v v' rfl hv
    refine .ok ?_ hv
    dsimp only
    rw [hv.context.evalId_eq hij]
    exact .evaluated _ _
  | backward output seed wrt =>
    have hmatches : Request.Matches E ⟨_, _, _⟩ ⟨_, _, _⟩ := ⟨output, seed, wrt⟩
    obtain ⟨F, hEF, hagree⟩ := h.differentiate hw hw' hmatches
    refine ⟨F, hEF, hagree.bind fun o o' v v' ho hv => ?_⟩
    exact .ok (.differentiated ho) hv
  | gradientOf hij =>
    refine ⟨E, .refl E, (h.bind hw hw' _ _).bind ?_⟩
    rintro _ _ v v' ⟨rfl, rfl⟩ hv
    exact .ok (.gradient (hv.context.grads.rel hij)) hv

end Own

end Counterpart

end Turns

end Workspace

end TensorGraph
