import TensorGraph.Proofs.Gradient.Acceptance
import TensorGraph.Proofs.Workspace.Call

/-!
# Plain objects

Contexts are asked about objects. Where these are expressions and nothing was put in the place of
an index, evaluating an object is evaluating its expression, and differentiating objects does to
arenas and contexts what differentiating their expressions does.
-/

namespace TensorGraph.Workspace

/-- Nothing that a context works on stands in the place of an arena or of an index. -/
structure Plain (w : Workspace) (c : ContextId) : Prop where
  operands : w.operandForms.isEmpty = true
  store : (w.evaluator c).ties.store = none
  codes : (w.evaluator c).ties.codes = []
  owners : (exprs? w.heap ((w.evaluator c).ties.owners.toList.map Prod.snd)).isSome = true

variable {w : Workspace} {c : ContextId} {a : Address} {e : Expr}

/-- Binding depends on the arena only. -/
theorem bind_index (e : Expr) (i : Int) (context : Context) :
    Context.bind (.expr ⟨e.arena, i⟩) context =
      match Context.bind (.expr e) context with
      | .ok _ context => .ok ⟨e.arena, i⟩ context
      | .error err context => .error err context := by
  simp only [Context.bind]
  cases context.arena with
  | none => rfl
  | some k =>
    dsimp only
    by_cases hk : k = e.arena
    · rw [if_pos hk, if_pos hk]
    · rw [if_neg hk, if_neg hk]

theorem inContext_bind_index (e : Expr) (i : Int) (w : Workspace) :
    inContext c (Context.bind (.expr ⟨e.arena, i⟩)) w =
      match inContext c (Context.bind (.expr e)) w with
      | .ok _ w => .ok ⟨e.arena, i⟩ w
      | .error err w => .error err w := by
  simp only [inContext]
  rw [bind_index]
  cases Context.bind (.expr e) (w.evaluator c).context with
  | ok _ context => rfl
  | error err context => rfl

/-- A context is bound to the arena of an object that is an expression. -/
theorem bind_plain (h : w.Plain c) (ha : w.heap.handle? a = some (.ofExpr e)) :
    Workspace.bind c a w =
      (do
        let _ ← inContext c (Context.bind (.expr e))
        return Handle.ofExpr e : Work Handle) w := by
  have hasking : asking (fun h => h.handle? a) w = .ok (some (.ofExpr e)) w := by
    rw [asking, ha]
  have hstore : contextOf c (fun s => s.ties.store) w = .ok none w := by
    rw [contextOf, h.store]
  have hbound := inContext_bind_index (c := c) e 0 w
  simp only [Workspace.bind]
  refine (bind_of_ok hasking).trans ?_
  cases hx : inContext c (Context.bind (.expr e)) w with
  | ok e' w' =>
    rw [hx] at hbound
    rw [bind_of_ok hx]
    exact bind_of_ok (u := ()) ((bind_of_ok hstore).trans (bind_of_ok hbound))
  | error err w' =>
    rw [hx] at hbound
    rw [bind_of_error hx]
    exact bind_of_error ((bind_of_ok hstore).trans (bind_of_error hbound))

/-- Asking about a context leaves the objects that it holds on to. -/
theorem inContext_plain (h : w.Plain c) {α : Type} (x : EStateM Error Context α) :
    (stateAfter (inContext c x w)).Plain c := by
  obtain ⟨evaluators, hafter, -, hevaluators⟩ := inContext_after c x w
  have hties : ((stateAfter (inContext c x w)).evaluator c).ties = (w.evaluator c).ties := by
    rw [hafter, evaluator, hevaluators]
    split
    · rfl
    · rfl
  have hheap : (stateAfter (inContext c x w)).heap = w.heap := by rw [hafter]
  refine ⟨?_, ?_, ?_, ?_⟩
  · rw [hafter]
    exact h.operands
  · rw [hties, h.store]
  · rw [hties, h.codes]
  · rw [hties, hheap]
    exact h.owners

/-- Evaluating an object that is an expression is evaluating the expression. -/
theorem evaluate_plain (h : w.Plain c) (ha : w.heap.handle? a = some (.ofExpr e)) :
    evaluate c a w = evaluateOperand c (.expr e) w := by
  have hbind := bind_plain h ha
  have hplain := inContext_plain h (Context.bind (.expr e))
  simp only [evaluate, evaluateOperand]
  cases hx : inContext c (Context.bind (.expr e)) w with
  | error err w' =>
    rw [bind_of_error hx] at hbind
    rw [bind_of_error hx]
    exact bind_of_error hbind
  | ok e' w' =>
    rw [bind_of_ok hx] at hbind
    rw [hx] at hplain
    change w'.Plain c at hplain
    obtain ⟨context, hcontext⟩ := exists_of_inContext_ok hx
    obtain rfl := Operand.expr.inj (Context.bind_ok hcontext).1
    rw [bind_of_ok hx]
    have hoperands : hasPlainOperands w' = .ok true w' := by
      rw [hasPlainOperands, hplain.operands]
    have hcodes : contextOf c (fun s => s.ties.codes.isEmpty) w' = .ok true w' := by
      rw [contextOf, hplain.codes]
      rfl
    refine (bind_of_ok hbind).trans ((bind_of_ok hoperands).trans ((bind_of_ok hcodes).trans ?_))
    rfl

/-! ### Differentiating -/

/-- Two workspaces with the same arenas and contexts. -/
def Agrees (w w' : Workspace) : Prop :=
  (∀ k, w'.arena k = w.arena k) ∧ ∀ d, (w'.evaluator d).context = (w.evaluator d).context

/-- What objects a context keeps does not change arenas and contexts. -/
theorem keepingOwners_agrees {α : Type} (c : ContextId) (k : ArenaId) (seed : Option Address)
    (x : Work α) (w : Workspace) :
    match x w with
    | .ok v w' => ∃ w'', keepingOwners c k seed x w = .ok v w'' ∧ w'.Agrees w''
    | .error err w' => ∃ w'', keepingOwners c k seed x w = .error err w'' ∧ w'.Agrees w'' := by
  simp only [keepingOwners]
  cases x w with
  | ok v w' =>
    refine ⟨_, rfl, fun _ => rfl, fun d => ?_⟩
    rw [evaluator, getD_modify]
    split
    · rename_i hd
      rw [hd.1]
      rfl
    · rfl
  | error err w' =>
    refine ⟨_, rfl, fun _ => rfl, fun d => ?_⟩
    rw [evaluator, getD_modify]
    split
    · rename_i hd
      rw [hd.1]
      rfl
    · rfl

theorem exprs?_map {h : Heap} {ps : List (Address × Expr)}
    (hps : ∀ p ∈ ps, h.handle? p.1 = some (.ofExpr p.2)) :
    exprs? h (ps.map Prod.fst) = some (ps.map Prod.snd) := by
  simp only [exprs?]
  induction ps with
  | nil => rfl
  | cons p ps ih =>
    have hp := hps p (List.mem_cons_self ..)
    have htail := ih fun q hq => hps q (List.mem_cons_of_mem p hq)
    simp only [List.map_cons, List.mapM_cons, hp, htail, Option.bind_some, Handle.expr?_ofExpr]
    rfl

/-- Objects that are expressions are given as such. -/
theorem given_exprs {h : Heap} (ha : h.handle? a = some (.ofExpr e))
    {seed : Option (Address × Expr)}
    (hseed : ∀ p, seed = some p → h.handle? p.1 = some (.ofExpr p.2))
    {wrt : Option (List (Address × Expr))}
    (hwrt : ∀ ps, wrt = some ps → ∀ p ∈ ps, h.handle? p.1 = some (.ofExpr p.2)) :
    (exprs? h [a], (seed.map Prod.fst).mapM fun a => (exprs? h [a]).map fun es => (a, es),
      (wrt.map fun ps => ps.map Prod.fst).mapM (exprs? h)) =
      (some [e], some (seed.map fun p => (p.1, [p.2])),
        some (wrt.map fun ps => ps.map Prod.snd)) := by
  have hone : ∀ p : Address × Expr, h.handle? p.1 = some (.ofExpr p.2) →
      exprs? h [p.1] = some [p.2] := by
    intro p hp
    refine @exprs?_map h [p] fun q hq => ?_
    rw [List.mem_singleton.mp hq]
    exact hp
  refine Prod.ext (hone (a, e) ha) (Prod.ext ?_ ?_)
  · cases seed with
    | none => rfl
    | some p =>
      have hp := hone p (hseed p rfl)
      change some <$> (exprs? h [p.1]).map (fun es => (p.1, es)) = _
      rw [hp]
      rfl
  · cases wrt with
    | none => rfl
    | some ps =>
      have hps := exprs?_map (hwrt ps rfl)
      change some <$> exprs? h (ps.map Prod.fst) = _
      rw [hps]
      rfl

/-- An outcome on objects is that on expressions: it leaves the same arenas and contexts, and gives
handles of the same nodes. -/
def Mirrors (k : ArenaId) (x : EStateM.Result Error Workspace Outcome)
    (y : EStateM.Result Error Workspace Gradients) : Prop :=
  match x, y with
  | .ok o w, .ok gradients w' => w.Agrees w' ∧
      gradients.map Prod.fst = o.gradients.map fun entry => ⟨.arena k, .int entry.1⟩
  | .error err w, .error err' w' => err' = err ∧ w.Agrees w'
  | _, _ => False

theorem backwardExpr_mirrors (c : ContextId) (e : Expr) (seed : Option (Address × Expr))
    (wrt : Option (List Expr)) (w : Workspace) :
    Mirrors e.arena
      (differentiate c (.expr e) (seed.map fun s => .expr s.2)
        (wrt.map fun ps => ps.map Operand.expr) w)
      (backwardExpr c e seed wrt w) := by
  have hkeeping := keepingOwners_agrees c e.arena (seed.map Prod.fst)
    (differentiate c (.expr e) (seed.map fun s => .expr s.2)
      (wrt.map fun ps => ps.map Operand.expr)) w
  cases hx : differentiate c (.expr e) (seed.map fun s => .expr s.2)
    (wrt.map fun ps => ps.map Operand.expr) w with
  | ok o w' =>
    rw [hx] at hkeeping
    obtain ⟨w'', hkept, hagrees⟩ := hkeeping
    have hrun : ∃ history, backwardExpr c e seed wrt w =
        .ok (o.gradients.map fun entry => (⟨.arena e.arena, .int entry.1⟩,
          gradientHandle? w''.heap (w''.evaluator c) (.arena e.arena) entry))
          { w'' with history } := ⟨_, bind_of_ok hkept⟩
    obtain ⟨history, hrun⟩ := hrun
    rw [hrun]
    exact ⟨hagrees, by rw [List.map_map]; rfl⟩
  | error err w' =>
    rw [hx] at hkeeping
    obtain ⟨w'', hkept, hagrees⟩ := hkeeping
    have hrun : backwardExpr c e seed wrt w = .error err w'' := bind_of_error hkept
    rw [hrun]
    exact ⟨rfl, hagrees⟩

theorem Plain.isPlain_ok (h : w.Plain c) : isPlain c w = .ok true w := by
  have hties : contextOf c Evaluator.ties w = .ok (w.evaluator c).ties w := rfl
  have howners : asking (fun heap => (exprs? heap
      ((w.evaluator c).ties.owners.toList.map Prod.snd)).isSome) w = .ok true w := by
    rw [asking, h.owners]
  have hforms : hasPlainOperands w = .ok true w := by rw [hasPlainOperands, h.operands]
  simp only [isPlain]
  refine (bind_of_ok hties).trans ((bind_of_ok howners).trans ((bind_of_ok hforms).trans ?_))
  rw [h.store, h.codes]
  rfl

/-- A context that tracks no gradients refuses to differentiate. -/
theorem differentiate_disabled (hgrad : (w.evaluator c).context.requiresGrad = false)
    (output : Operand) (seed : Option Operand) (wrt : Option (List Operand)) :
    ∃ w', differentiate c output seed wrt w = .error .gradientDisabled w' ∧ w'.Agrees w := by
  have hrefused := Differentiation.backward_disabled (s := w.differentiation c output.arena) output
    seed wrt hgrad
  obtain ⟨w', hw'⟩ := differentiating_of_error hrefused
  obtain ⟨evaluators, arenas, hafter, -, hevaluators, harenas⟩ :=
    differentiating_after c output.arena (Differentiation.backward output seed wrt) w
  rw [hw'] at hafter
  rw [hrefused] at hevaluators harenas
  change w' = _ at hafter
  refine ⟨w', hw', fun k => ?_, fun d => ?_⟩
  · rw [hafter]
    change w.arena k = arenas.getD k .empty
    rw [harenas]
    split
    · rename_i hk
      rw [hk.1]
      rfl
    · rfl
  · rw [hafter]
    change _ = (evaluators.getD d {}).context
    rw [hevaluators]
    split
    · rename_i hd
      rw [hd.1]
      rfl
    · rfl

/-- Differentiating objects that are expressions is differentiating the expressions. -/
theorem backward_mirrors (h : w.Plain c) (ha : w.heap.handle? a = some (.ofExpr e))
    {seed : Option (Address × Expr)}
    (hseed : ∀ p, seed = some p → w.heap.handle? p.1 = some (.ofExpr p.2))
    {wrt : Option (List (Address × Expr))}
    (hwrt : ∀ ps, wrt = some ps → ∀ p ∈ ps, w.heap.handle? p.1 = some (.ofExpr p.2)) :
    Mirrors e.arena
      (differentiate c (.expr e) (seed.map fun s => .expr s.2)
        (wrt.map fun ps => ps.map fun p => .expr p.2) w)
      (backward c a (seed.map Prod.fst) (wrt.map fun ps => ps.map Prod.fst) w) := by
  have hasking : contextOf c (fun s => s.context.requiresGrad) w =
      .ok (w.evaluator c).context.requiresGrad w := rfl
  cases hgrad : (w.evaluator c).context.requiresGrad with
  | false =>
    rw [hgrad] at hasking
    obtain ⟨w', hrefused, hagrees⟩ := differentiate_disabled hgrad (.expr e)
      (seed.map fun s => .expr s.2) (wrt.map fun ps => ps.map fun p => .expr p.2)
    have hrun : backward c a (seed.map Prod.fst) (wrt.map fun ps => ps.map Prod.fst) w =
        .error .gradientDisabled w := by
      simp only [backward]
      exact (bind_of_ok hasking).trans rfl
    rw [hrefused, hrun]
    exact ⟨rfl, hagrees⟩
  | true =>
    rw [hgrad] at hasking
    have hrun : backward c a (seed.map Prod.fst) (wrt.map fun ps => ps.map Prod.fst) w =
        backwardExpr c e seed (wrt.map fun ps => ps.map Prod.snd) w := by
      have hgiven : asking (fun h => (exprs? h [a],
          (seed.map Prod.fst).mapM fun a => (exprs? h [a]).map fun es => (a, es),
          (wrt.map fun ps => ps.map Prod.fst).mapM (exprs? h))) w =
          .ok (some [e], some (seed.map fun p => (p.1, [p.2])),
            some (wrt.map fun ps => ps.map Prod.snd)) w := by
        rw [asking, given_exprs ha hseed hwrt]
      simp only [backward]
      refine (bind_of_ok hasking).trans ((bind_of_ok hgiven).trans ?_)
      refine (bind_of_ok h.isPlain_ok).trans ?_
      cases seed with
      | none => rfl
      | some p => rfl
    rw [hrun]
    have hmirrors := backwardExpr_mirrors c e seed (wrt.map fun ps => ps.map Prod.snd) w
    rw [Option.map_map] at hmirrors
    simpa only [Function.comp_def, List.map_map] using hmirrors

end TensorGraph.Workspace
