import TensorGraph.Proofs.Gradient.Ledger
import TensorGraph.Proofs.Workspace.Call

/-!
# Passes of a context

The passes that a context carried out, and what it keeps of them. In an arena that operators build,
an accepted pass is carried out to its end and adds its record; a pass that is refused, or one in
another arena, adds nothing here.
-/

namespace TensorGraph.Workspace

open Differentiation

/-- Calls that build an arena with its operators and differentiate what it has given out. -/
def Call.RegularIn (k : ArenaId) : Call → Prop
  | .addNode arena _ _ _ _ => arena ≠ k
  | .backward _ output seed _ =>
    output.arena = k → output.Natural ∧ ∀ o, seed = some o → o.Natural
  | _ => True

/-- The pass that a call carries out on a context. -/
def passOf (w : Workspace) (c : ContextId) : Call → Option PassRecord
  | .backward d output seed wrt =>
    if d = c ∧ c < w.evaluators.size then
      match output, differentiate c output seed wrt w with
      | .expr e, .ok _ _ =>
        some ⟨e.index.toNat, (seedIndex (w.arena e.arena) seed).toNat, AskedFor wrt⟩
      | _, _ => none
    else none
  | _ => none

/-- The passes that were carried out on a context since its last reset, after a call. -/
def passesAfter (w : Workspace) (c : ContextId) (passes : List PassRecord) (call : Call) :
    List PassRecord :=
  match call with
  | .reset d => if d = c then [] else passes
  | _ => (w.passOf c call).toList ++ passes

/-- The passes that calls carry out on a context and that no reset forgets, the latest first. -/
def ledgerFrom (w : Workspace) (c : ContextId) (passes : List PassRecord) :
    List Call → List PassRecord
  | [] => passes
  | call :: calls => ledgerFrom (w.after call) c (w.passesAfter c passes call) calls

def ledger (calls : List Call) (c : ContextId) : List PassRecord := ledgerFrom start c [] calls

/-- A context that is bound to an arena has there what its passes gave. -/
structure Tallied {R : Type} [CommRing R] (F : Functions R) (ρ : Nat → R) (k : ArenaId)
    (c : ContextId) (w : Workspace) (passes : List PassRecord) : Prop where
  regular : (w.arena k).Regular
  unbound : (w.evaluator c).context.arena = none →
    passes = [] ∧ ∀ i, (w.evaluator c).context.grads.get? i = none
  bound : (w.evaluator c).context.arena = some k →
    (w.arena k).Tally F ρ (w.evaluator c).context.grads passes

section Passes

variable {c : ContextId} {w : Workspace}

/-- Differentiating changes the context as the pass does. -/
theorem differentiate_context (hc : c < w.evaluators.size) (output : Operand)
    (seed : Option Operand) (wrt : Option (List Operand)) :
    ((stateAfter (differentiate c output seed wrt w)).evaluator c).context =
      (stateAfter (Differentiation.backward output seed wrt
        (w.differentiation c output.arena))).context := by
  obtain ⟨evaluators, arenas, hafter, -, hevaluators, -⟩ :=
    differentiating_after c output.arena (Differentiation.backward output seed wrt) w
  rw [differentiate, hafter, evaluator, hevaluators, if_pos ⟨rfl, hc⟩]

/-- Differentiating changes the arena of the output as the pass does. -/
theorem differentiate_arena (output : Operand) (hk : output.arena < w.arenas.size)
    (seed : Option Operand) (wrt : Option (List Operand)) :
    (stateAfter (differentiate c output seed wrt w)).arena output.arena =
      (stateAfter (Differentiation.backward output seed wrt
        (w.differentiation c output.arena))).arena := by
  obtain ⟨evaluators, arenas, hafter, -, -, harenas⟩ :=
    differentiating_after c output.arena (Differentiation.backward output seed wrt) w
  rw [differentiate, hafter, arena, harenas, if_pos ⟨rfl, hk⟩]

theorem differentiate_grows (output : Operand) (seed : Option Operand)
    (wrt : Option (List Operand)) (k : ArenaId) :
    (w.arena k).GrowsUniformly ((stateAfter (differentiate c output seed wrt w)).arena k) :=
  differentiating_arenas (R := Arena.GrowsUniformly) (fun s => (backward_keeps output seed wrt s).1)
    c output.arena w k

theorem lt_size_of_at? {k : ArenaId} {i : Int} {node : Node} (h : (w.arena k).at? i = some node) :
    k < w.arenas.size := by
  by_contra hk
  have hempty : w.arena k = .empty := getD_of_size_le (Nat.le_of_not_lt hk) _
  rw [hempty] at h
  simp [Arena.at?, Arena.empty, Arena.node?, Arena.size] at h

/-- A context and the arena of the output are after differentiating as they are after the pass. -/
theorem differentiation_differentiate (hc : c < w.evaluators.size) {e : Expr}
    (hk : e.arena < w.arenas.size) (seed : Option Operand) (wrt : Option (List Operand)) :
    (stateAfter (differentiate c (.expr e) seed wrt w)).differentiation c e.arena =
      stateAfter (Differentiation.backward (.expr e) seed wrt (w.differentiation c e.arena)) := by
  rw [differentiation, differentiate_context hc]
  exact congrArg (Differentiation.mk · _) (differentiate_arena (.expr e) hk seed wrt)

theorem differentiate_of_ok (hc : c < w.evaluators.size) {e : Expr} (hk : e.arena < w.arenas.size)
    {seed : Option Operand} {wrt : Option (List Operand)} {o : Outcome} {s : Differentiation}
    (h : Differentiation.backward (.expr e) seed wrt (w.differentiation c e.arena) = .ok o s) :
    ∃ w', differentiate c (.expr e) seed wrt w = .ok o w' ∧ w'.differentiation c e.arena = s := by
  obtain ⟨w', hw'⟩ := differentiating_of_ok h
  have hafter := differentiation_differentiate hc hk seed wrt
  rw [h] at hafter
  change (stateAfter (differentiating c e.arena _ w)).differentiation c e.arena = s at hafter
  rw [hw'] at hafter
  exact ⟨w', hw', hafter⟩

/-- An accepted pass binds the context to the arena of the output. -/
theorem differentiate_bound (hc : c < w.evaluators.size) {e : Expr} {seed : Option Operand}
    {wrt : Option (List Operand)} {node : Node}
    (haccepts : (w.differentiation c e.arena).Accepts (.expr e) seed wrt e node) :
    ((stateAfter (differentiate c (.expr e) seed wrt w)).evaluator c).context.arena =
      some e.arena := by
  rw [differentiate_context hc]
  exact backward_bound haccepts.enabled haccepts.admits seed wrt

/-- Only accepted passes are carried out. -/
theorem accepts_of_ok {e : Expr} {seed : Option Operand} {wrt : Option (List Operand)}
    {o : Outcome} {w' : Workspace} (h : differentiate c (.expr e) seed wrt w = .ok o w') :
    ∃ node, (w.differentiation c e.arena).Accepts (.expr e) seed wrt e node := by
  rcases backward_cases (.expr e) seed wrt (w.differentiation c e.arena) with
    ⟨e', node, -, haccepts, -⟩ | ⟨-, err, t, herror, -⟩
  · obtain rfl := Operand.expr.inj haccepts.admits.1
    exact ⟨node, haccepts⟩
  · obtain ⟨v, hv⟩ := differentiating_of_error herror
    exact nomatch h.symm.trans hv

theorem passOf_of_ok (hc : c < w.evaluators.size) {e : Expr} {seed : Option Operand}
    {wrt : Option (List Operand)} {o : Outcome} {w' : Workspace}
    (h : differentiate c (.expr e) seed wrt w = .ok o w') :
    w.passOf c (.backward c (.expr e) seed wrt) =
      some ⟨e.index.toNat, (seedIndex (w.arena e.arena) seed).toNat, AskedFor wrt⟩ := by
  simp only [passOf, hc, and_self, if_true, h]

theorem passOf_of_error (hc : c < w.evaluators.size) {output : Operand} {seed : Option Operand}
    {wrt : Option (List Operand)} {err : Error} {w' : Workspace}
    (h : differentiate c output seed wrt w = .error err w') :
    w.passOf c (.backward c output seed wrt) = none := by
  simp only [passOf, hc, and_self, if_true, h]

theorem passOf_of_not {d : ContextId} (h : ¬(d = c ∧ c < w.evaluators.size)) {output : Operand}
    {seed : Option Operand} {wrt : Option (List Operand)} :
    w.passOf c (.backward d output seed wrt) = none := by
  simp only [passOf, if_neg h]

end Passes

namespace Tallied

variable {R : Type} [CommRing R] {F : Functions R} {ρ : Nat → R} {k : ArenaId} {c : ContextId}
  {w w' : Workspace} {passes : List PassRecord}

/-- Growth of the arena leaves the tally as long as the context keeps its gradients. -/
theorem grow (h : Tallied F ρ k c w passes) (harena : (w.arena k).GrowsUniformly (w'.arena k))
    (hcontext : (w.evaluator c).context.KeepsGradients (w'.evaluator c).context) :
    Tallied F ρ k c w' passes := by
  obtain ⟨hgrads, hbound⟩ := hcontext
  have hregular := harena.regular h.regular
  refine ⟨hregular, fun hnone => ?_, fun hsome => ?_⟩
  · rw [hgrads]
    refine h.unbound ?_
    cases ha : (w.evaluator c).context.arena with
    | none => rfl
    | some k' =>
      rw [hbound k' ha] at hnone
      cases hnone
  · rw [hgrads]
    cases ha : (w.evaluator c).context.arena with
    | none =>
      obtain ⟨rfl, hempty⟩ := h.unbound ha
      exact Arena.tally_nil hempty
    | some k' =>
      have hk := Option.some.inj ((hbound k' ha).symm.trans hsome)
      subst hk
      exact (h.bound ha).of_extends h.regular hregular harena.1.1

/-- A context that may ask about an arena has a tally there. -/
theorem tally (h : Tallied F ρ k c w passes)
    (hbound : ∀ a, (w.evaluator c).context.arena = some a → a = k) :
    (w.arena k).Tally F ρ (w.evaluator c).context.grads passes := by
  cases ha : (w.evaluator c).context.arena with
  | none =>
    obtain ⟨rfl, hempty⟩ := h.unbound ha
    exact Arena.tally_nil hempty
  | some a =>
    have hk := hbound a ha
    subst hk
    exact h.bound ha

variable {output : Operand} {seed : Option Operand} {wrt : Option (List Operand)} {e : Expr}
  {node : Node} {y : Nat}

/-- An accepted pass is carried out to its end. -/
theorem pass_ok (h : Tallied F ρ k c w passes)
    (haccepts : (w.differentiation c k).Accepts output seed wrt e node) (hy : e = ⟨k, y⟩)
    (hseed : ∀ o, seed = some o → o.Natural) :
    ∃ π p count, π = (w.differentiation c k).plan y node.shape seed wrt ∧
      π.arena.Tally F ρ π.grads passes ∧ π.Ready node.shape ∧
      Differentiation.backward output seed wrt (w.differentiation c k) = .ok ⟨p.found.toList, count⟩
        ⟨p.arena, { (w.evaluator c).context with arena := some k, grads := p.grads }⟩ ∧
      Sweeping F ρ π node.shape [] p := by
  subst hy
  have htally := h.tally haccepts.admits.2
  have hready := haccepts.ready rfl hseed h.regular htally.shaped
  obtain ⟨p, count, hok, hsweep⟩ := haccepts.backward_ok F ρ rfl hready
  refine ⟨_, p, count, rfl, ?_, hready, hok, hsweep⟩
  exact htally.of_extends h.regular hready.regular (extends_seeded _ _ _)

/-- An accepted pass gives and leaves what it should. -/
theorem complete (h : Tallied F ρ k c w passes) (hc : c < w.evaluators.size)
    (haccepts : (w.differentiation c k).Accepts (.expr ⟨k, y⟩) seed wrt ⟨k, y⟩ node)
    (hseed : ∀ o, seed = some o → o.Natural) :
    ∃ o w', differentiate c (.expr ⟨k, y⟩) seed wrt w = .ok o w' ∧
      o.Complete (w.arena k) (AskedFor wrt) y (w.evaluator c).context.grads
        (w'.evaluator c).context.grads := by
  obtain ⟨π, p, count, rfl, -, hready, hok, hsweep⟩ := h.pass_ok haccepts rfl hseed
  obtain ⟨w', hw', hafter⟩ :=
    differentiate_of_ok (e := ⟨k, y⟩) hc (lt_size_of_at? haccepts.node) hok
  refine ⟨_, w', hw', ?_⟩
  have hlt : y < (w.arena k).size := by
    have hnode := haccepts.node
    rw [Arena.at?_ofNat] at hnode
    exact Arena.lt_size_of_node? hnode
  obtain ⟨-, hcontext⟩ := Differentiation.mk.inj hafter
  rw [hcontext]
  exact (hsweep.complete count).of_extends h.regular.wellFormed (extends_seeded _ _ _) hlt

/-- An accepted pass in the arena adds its record. -/
theorem differentiate_accepted (h : Tallied F ρ k c w passes) (hc : c < w.evaluators.size)
    (haccepts : (w.differentiation c k).Accepts (.expr ⟨k, y⟩) seed wrt ⟨k, y⟩ node)
    (hseed : ∀ o, seed = some o → o.Natural) :
    Tallied F ρ k c (stateAfter (differentiate c (.expr ⟨k, y⟩) seed wrt w))
      ((w.passOf c (.backward c (.expr ⟨k, y⟩) seed wrt)).toList ++ passes) := by
  obtain ⟨π, p, count, hπ, htally, hready, hok, hsweep⟩ := h.pass_ok haccepts rfl hseed
  obtain ⟨w', hw', hafter⟩ :=
    differentiate_of_ok (e := ⟨k, y⟩) hc (lt_size_of_at? haccepts.node) hok
  obtain ⟨harena, hcontext⟩ := Differentiation.mk.inj hafter
  have hpass : w.passOf c (.backward c (.expr ⟨k, y⟩) seed wrt) = some π.record := by
    rw [passOf_of_ok hc hw', hπ]
    rfl
  rw [hpass, hw']
  change Tallied F ρ k c w' _
  refine ⟨?_, fun hnone => ?_, fun _ => ?_⟩
  · rw [harena]
    exact hsweep.valid.regular
  · rw [hcontext] at hnone
    cases hnone
  · rw [hcontext, harena]
    exact htally.pass hready hsweep

end Tallied

/-! ### What a call may do -/

/-- What a call may do to the gradients that a context has in an arena, and to its passes. -/
inductive LedgerStep (k : ArenaId) (c : ContextId) (w : Workspace) (passes : List PassRecord)
    (w' : Workspace) : List PassRecord → Prop
  | quiet (keeps : (w.evaluator c).context.KeepsGradients (w'.evaluator c).context) :
      LedgerStep k c w passes w' passes
  | forgets (requiresGrad : Bool) (context : (w'.evaluator c).context = .fresh requiresGrad) :
      LedgerStep k c w passes w' []
  | pass {y : Nat} {seed : Option Operand} {wrt : Option (List Operand)} {node : Node}
      (exists_context : c < w.evaluators.size)
      (accepts : (w.differentiation c k).Accepts (.expr ⟨k, y⟩) seed wrt ⟨k, y⟩ node)
      (natural : ∀ o, seed = some o → o.Natural)
      (state : w' = stateAfter (differentiate c (.expr ⟨k, y⟩) seed wrt w)) :
      LedgerStep k c w passes w'
        ((w.passOf c (.backward c (.expr ⟨k, y⟩) seed wrt)).toList ++ passes)
  /-- A pass in another arena binds the context to that one. -/
  | elsewhere {id : ArenaId} (ne : id ≠ k) (bound : (w'.evaluator c).context.arena = some id)
      (passes' : List PassRecord) : LedgerStep k c w passes w' passes'

section Steps

variable {k : ArenaId} {c : ContextId} {w : Workspace} {passes : List PassRecord}
  {output : Operand} {seed : Option Operand} {wrt : Option (List Operand)}

/-- A pass that is not accepted adds nothing. -/
theorem ledgerStep_refused (hc : c < w.evaluators.size)
    (hno : ∀ e node, ¬(w.differentiation c output.arena).Accepts output seed wrt e node) :
    LedgerStep k c w passes (stateAfter (differentiate c output seed wrt w))
      ((w.passOf c (.backward c output seed wrt)).toList ++ passes) := by
  rcases backward_cases output seed wrt (w.differentiation c output.arena) with
    ⟨e, node, -, haccepts, -⟩ | ⟨-, err, t, herror, hkeeps⟩
  · exact absurd haccepts (hno e node)
  · have hpass : w.passOf c (.backward c output seed wrt) = none := by
      obtain ⟨w', hw'⟩ := differentiating_of_error herror
      exact passOf_of_error hc hw'
    rw [hpass]
    refine .quiet ?_
    rw [differentiate_context hc, herror]
    exact hkeeps

/-- A pass adds its record when it is carried out, and otherwise nothing. -/
theorem ledgerStep_differentiate (hc : c < w.evaluators.size)
    (hregular : output.arena = k → output.Natural ∧ ∀ o, seed = some o → o.Natural) :
    LedgerStep k c w passes (stateAfter (differentiate c output seed wrt w))
      ((w.passOf c (.backward c output seed wrt)).toList ++ passes) := by
  by_cases haccepted :
      ∃ e node, (w.differentiation c output.arena).Accepts output seed wrt e node
  · obtain ⟨e, node, haccepts⟩ := haccepted
    obtain rfl := haccepts.admits.1
    by_cases he : e.arena = k
    · obtain ⟨hnatural, hseed⟩ := hregular he
      obtain ⟨y, hy⟩ := Int.eq_ofNat_of_zero_le (hnatural e rfl)
      obtain ⟨id, index⟩ := e
      obtain rfl : id = k := he
      obtain rfl : index = y := hy
      exact .pass hc haccepts hseed rfl
    · exact .elsewhere he (differentiate_bound hc haccepts) _
  · exact ledgerStep_refused hc fun e node haccepts => haccepted ⟨e, node, haccepts⟩

/-- A pass of another context adds nothing. -/
theorem ledgerStep_other {d : ContextId} (hd : d ≠ c) (output : Operand) (seed : Option Operand)
    (wrt : Option (List Operand)) :
    LedgerStep k c w passes (stateAfter (differentiate d output seed wrt w)) passes := by
  obtain ⟨evaluators, arenas, hafter, -, hevaluators, -⟩ :=
    differentiating_after d output.arena (Differentiation.backward output seed wrt) w
  refine .quiet ?_
  rw [differentiate, hafter]
  change (w.evaluator c).context.KeepsGradients (evaluators.getD c {}).context
  rw [hevaluators, if_neg fun hcd => hd hcd.1.symm]
  exact Std.Refl.refl _

end Steps

end TensorGraph.Workspace
