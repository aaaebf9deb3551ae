import TensorGraph.Proofs.Context.Recording
import TensorGraph.Proofs.Gradient.Reuse
import TensorGraph.Proofs.Workspace.Interruption
import TensorGraph.Proofs.Workspace.Leftover
import TensorGraph.Proofs.Workspace.Vanishing

/-!
# Reuse of evaluated nodes

Passes build with the four operations of arithmetic over nodes that were there. Once their outputs
and seeds are evaluated, what is left below a gradient is only arithmetic, whatever was called in
between. So evaluating gradients asks a program for nothing else.
-/

namespace TensorGraph

/-- The kinds of operators that gradients are made of. -/
def Kind.arithmetic : List Kind := [.add, .mul, .unary .neg, .unary .reciprocal]

/-- The operations that compute them. -/
def Op.arithmetic : List Op :=
  [.primitive .add, .primitive .mul, .primitive .neg, .primitive .reciprocal]

theorem Kind.mem_arithmetic {n : Node} (hkind : n.kind ∈ Kind.gradients)
    (hleaf : n.isLeaf = false) : n.kind ∈ Kind.arithmetic := by
  rcases List.mem_cons.mp hkind with hzero | hmem
  · obtain ⟨form, shape, name⟩ := n
    cases form with
    | leaf k => cases hleaf
    | unary k x => cases hzero
    | binary k l r => cases hzero
  · exact hmem

theorem Op.mem_arithmetic {k : Kind} (hkind : k ∈ Kind.gradients) {op : Op}
    (hop : k.op? = some op) : op ∈ Op.arithmetic := by
  simp only [Kind.gradients, List.mem_cons, List.not_mem_nil, or_false] at hkind
  rcases hkind with rfl | rfl | rfl | rfl | rfl <;> cases hop <;>
    simp [arithmetic, Lowering.binaryOp, Lowering.unaryOp]

theorem Arena.Leaves.mem {a b : Arena} {nodes : List Node} (h : a.Leaves b nodes) {i : Nat}
    {n : Node} (hi : a.size ≤ i) (hn : b.node? i = some n) : n ∈ nodes := by
  have hnodes : b.nodes = a.nodes ++ nodes.toArray := by
    rw [← Array.toList_inj, h, Array.toList_append]
  rw [node?, hnodes, Array.getElem?_append_right hi] at hn
  exact List.mem_of_getElem? (by simpa using hn)

theorem Differentiation.isLeaf_of_leftover {s : Differentiation} {output : Operand}
    {seed : Option Operand} {n : Node} (h : n ∈ s.leftover output seed) : n.isLeaf = true := by
  simp only [leftover] at h
  split at h
  · split at h
    · simp only [defaultSeed] at h
      split at h
      · obtain ⟨m, -, rfl⟩ := Option.map_eq_some_iff.mp (Option.mem_toList.mp h)
        rfl
      · cases h
    · cases h
  · cases h

namespace Workspace

open Differentiation

section Passes

variable {R : Type} [CommRing R] {F : Functions R} {ρ : Nat → R} {k : ArenaId} {c : ContextId}
  {w : Workspace} {passes : List PassRecord} {output : Operand} {seed : Option Operand}
  {wrt : Option (List Operand)} {node : Node} {y : Nat}

/-! ### What passes build -/

/-- What a pass from a node may compute with: what it appends, what the node reaches, the seed and
earlier gradients. -/
def Available (w : Workspace) (c : ContextId) (k : ArenaId) (y : Nat) (seed : Option Operand)
    (x : Nat) : Prop :=
  (w.arena k).size ≤ x ∨ Reaches (w.arena k).operands y x ∨
    (x : Int) = seedIndex (w.arena k) seed ∨
    ∃ i, (w.evaluator c).context.grads.get? i = some (x : Int)

/-- An accepted pass builds arithmetic over what is available. -/
theorem Tallied.builds_accepted (h : Tallied F ρ k c w passes) (hc : c < w.evaluators.size)
    (haccepts : (w.differentiation c k).Accepts (.expr ⟨k, y⟩) seed wrt ⟨k, y⟩ node)
    (hseed : ∀ o, seed = some o → o.Natural) {i : Nat} {n : Node} (hi : (w.arena k).size ≤ i)
    (hn : ((stateAfter (Workspace.differentiate c (.expr ⟨k, y⟩) seed wrt w)).arena k).node? i =
      some n) (hleaf : n.isLeaf = false) :
    n.kind ∈ Kind.arithmetic ∧ ∀ x ∈ n.operands, w.Available c k y seed x := by
  obtain ⟨π, o, w', p, rfl, hready, hok, harena, -, htracing⟩ := h.traced hc haccepts hseed
  rw [hok] at hn
  change (w'.arena k).node? i = some n at hn
  rw [harena] at hn
  have hkept : (w.arena k).Extends (seeded (w.arena k) node.shape seed) := extends_seeded _ _ _
  have hgrown : (seeded (w.arena k) node.shape seed).Extends p.arena := htracing.made.kept
  have hnew : (seeded (w.arena k) node.shape seed).size ≤ i := by
    by_contra hlt
    obtain ⟨m, hm⟩ := Arena.exists_node? (Nat.lt_of_not_le hlt)
    cases (hgrown i m hm).symm.trans hn
    rw [seeded_new hi hm] at hleaf
    cases hleaf
  refine ⟨Kind.mem_arithmetic (htracing.made.kind i n hnew hn) hleaf, fun x hx => ?_⟩
  by_cases hold : x < (w.arena k).size
  · have husable := htracing.made.operands i n hnew hn x hx
    have hbase := Nat.lt_of_lt_of_le hold (Embedding.size_le_of_extends hkept)
    rcases husable.old hbase with hreached | hseed | hentry
    · have hy : y < (w.arena k).size := by
        have hnode := haccepts.node
        rw [Arena.at?_ofNat] at hnode
        exact Arena.lt_size_of_node? hnode
      exact Or.inr (Or.inl ((Arena.reaches_of_extends h.regular.wellFormed hkept hy).mp hreached))
    · exact Or.inr (Or.inr (Or.inl hseed))
    · exact Or.inr (Or.inr (Or.inr hentry))
  · exact Or.inl (Nat.le_of_not_lt hold)

/-- A pass leaves other arenas alone. -/
theorem differentiate_elsewhere (hk : output.arena ≠ k) :
    (stateAfter (differentiate c output seed wrt w)).arena k = w.arena k := by
  obtain ⟨evaluators, arenas, hafter, -, -, harenas⟩ :=
    differentiating_after c output.arena (Differentiation.backward output seed wrt) w
  rw [differentiate, hafter, arena, harenas, if_neg fun h => hk h.1.symm]

/-- So does any call for a pass: one that is refused builds no operator. -/
theorem Tallied.builds (h : Tallied F ρ k c w passes) (hc : c < w.evaluators.size)
    (hregular : output.arena = k → output.Natural ∧ ∀ o, seed = some o → o.Natural) {i : Nat}
    {n : Node} (hi : (w.arena k).size ≤ i)
    (hn : ((stateAfter (Workspace.differentiate c output seed wrt w)).arena k).node? i = some n)
    (hleaf : n.isLeaf = false) :
    n.kind ∈ Kind.arithmetic ∧
      ∃ y : Nat, output = .expr ⟨k, y⟩ ∧ ∀ x ∈ n.operands, w.Available c k y seed x := by
  by_cases hk : output.arena = k
  · by_cases haccepted :
        ∃ e node, (w.differentiation c output.arena).Accepts output seed wrt e node
    · obtain ⟨⟨id, index⟩, node, haccepts⟩ := haccepted
      obtain rfl := haccepts.admits.1
      obtain rfl : id = k := hk
      obtain ⟨hnatural, hseed⟩ := hregular rfl
      obtain ⟨y, rfl⟩ := Int.eq_ofNat_of_zero_le (hnatural _ rfl)
      obtain ⟨hkind, hoperands⟩ := h.builds_accepted hc haccepts hseed hi hn hleaf
      exact ⟨hkind, y, rfl, hoperands⟩
    · have hno : ∀ e n, ¬(w.differentiation c output.arena).Accepts output seed wrt e n :=
        fun e n haccepts => haccepted ⟨e, n, haccepts⟩
      rcases backward_cases output seed wrt (w.differentiation c output.arena) with
        ⟨e, n, -, haccepts, -⟩ | ⟨-, err, t, herror, -⟩
      · exact absurd haccepts (hno e n)
      · obtain ⟨w', hw'⟩ := differentiating_of_error herror
        have hleaves := (differentiate_leaves hno hw').1
        rw [Workspace.differentiate, hw'] at hn
        rw [hk] at hleaves
        rw [isLeaf_of_leftover (hleaves.mem hi hn)] at hleaf
        cases hleaf
  · rw [differentiate_elsewhere hk] at hn
    exact absurd (Arena.lt_size_of_node? hn) (Nat.not_lt_of_le hi)

/-! ### What gradients are founded on -/

/-- The gradients of a context that is bound to an arena are founded there on its passes. -/
def Founds (w : Workspace) (k : ArenaId) (c : ContextId) (passes : List PassRecord) : Prop :=
  (w.evaluator c).context.arena = some k →
    (w.arena k).Reuses (w.evaluator c).context.grads passes

/-- An accepted pass adds to what gradients are founded on. -/
theorem Founds.accepted (hf : w.Founds k c passes) (h : Tallied F ρ k c w passes)
    (hc : c < w.evaluators.size)
    (haccepts : (w.differentiation c k).Accepts (.expr ⟨k, y⟩) seed wrt ⟨k, y⟩ node)
    (hseed : ∀ o, seed = some o → o.Natural) :
    (stateAfter (differentiate c (.expr ⟨k, y⟩) seed wrt w)).Founds k c
      ((w.passOf c (.backward c (.expr ⟨k, y⟩) seed wrt)).toList ++ passes) := by
  intro _
  have hearlier : (w.arena k).Reuses (w.evaluator c).context.grads passes := by
    cases hbound : (w.evaluator c).context.arena with
    | none => exact Arena.reuses_of_empty (h.unbound hbound).2
    | some a =>
      obtain rfl := haccepts.admits.2 a hbound
      exact hf hbound
  have hafter := h.differentiate_accepted hc haccepts hseed
  obtain ⟨π, o, w', p, rfl, hready, hok, harena, hgrads, htracing⟩ := h.traced hc haccepts hseed
  rw [passOf_of_ok hc hok]
  rw [hok] at hafter ⊢
  change (w'.arena k).Reuses (w'.evaluator c).context.grads _
  have hwell : p.arena.WellFormed := harena ▸ hafter.regular.wellFormed
  rw [harena, hgrads]
  exact htracing.reuses hready hwell
    (hearlier.of_extends h.regular.wellFormed (extends_seeded _ _ _))

theorem Founds.after (hf : w.Founds k c passes) (h : Tallied F ρ k c w passes) {call : Call}
    (hregular : call.RegularIn k) : (w.after call).Founds k c (w.passesAfter c passes call) := by
  have hgrows := after_growsUniformly hregular w
  have hstep := ledgerStep_after hregular w c passes
  generalize w.after call = w', w.passesAfter c passes call = passes' at hgrows hstep ⊢
  cases hstep with
  | quiet hkeeps =>
    intro hbound'
    rw [hkeeps.1]
    cases hbound : (w.evaluator c).context.arena with
    | none => exact Arena.reuses_of_empty (h.unbound hbound).2
    | some a =>
      obtain rfl := Option.some.inj ((hkeeps.2 a hbound).symm.trans hbound')
      exact (hf hbound).of_extends h.regular.wellFormed hgrows.1.1
  | forgets requiresGrad hcontext =>
    intro hbound
    rw [hcontext] at hbound
    cases hbound
  | pass hc haccepts hnatural hstate =>
    subst hstate
    exact hf.accepted h hc haccepts hnatural
  | elsewhere hne hbound =>
    intro hbound'
    exact absurd (Option.some.inj (hbound.symm.trans hbound')) hne

theorem Founds.ledgerFrom (hf : w.Founds k c passes) (h : Tallied F ρ k c w passes)
    {calls : List Call} (hcalls : ∀ call ∈ calls, call.RegularIn k) :
    (calls.foldl Workspace.after w).Founds k c (w.ledgerFrom c passes calls) := by
  induction calls generalizing w passes with
  | nil => exact hf
  | cons call calls ih =>
    have hcall := hcalls call (List.mem_cons_self ..)
    exact ih (hf.after h hcall) (h.after hcall) fun call' hcall' =>
      hcalls call' (List.mem_cons_of_mem call hcall')

end Passes

/-- After any calls that build an arena with its operators, gradients there are founded on the
passes of the ledger. -/
theorem afterAll_founds {k : ArenaId} {calls : List Call}
    (hcalls : ∀ call ∈ calls, call.RegularIn k) (c : ContextId) :
    (afterAll calls).Founds k c (ledger calls c) := by
  have hstart : start.Founds k c [] := fun hbound => by cases hbound
  exact hstart.ledgerFrom (tallied_start (R := Int) ⟨id, id, id, id⟩ (fun _ => 0) k c) hcalls

/-! ### Evaluating gradients -/

/-- A context that has evaluated what its passes started from. -/
structure Prepared (k : ArenaId) (c : ContextId) (passes : List PassRecord) (w : Workspace) :
    Prop where
  coherent : w.Coherent
  exists_context : c < w.evaluators.size
  bound : (w.evaluator c).context.arena = some k
  reuses : (w.arena k).Reuses (w.evaluator c).context.grads passes
  evaluated : ∀ x, Origin passes x → ((w.evaluator c).context.buffer? x).isSome

/-- The call that evaluates a node for a context. -/
def evaluateCall (c : ContextId) (k : ArenaId) (g : Int) : Call := .evaluate c (.expr ⟨k, g⟩)

theorem after_evaluateCall {c : ContextId} {w : Workspace} (hc : c < w.evaluators.size)
    (k : ArenaId) (g : Int) :
    w.after (evaluateCall c k g) = stateAfter (evaluateOperand c (.expr ⟨k, g⟩) w) := by
  rw [after, if_pos (Call.named_of_lt rfl rfl hc), evaluateCall, Call.carryOut, stateAfter_discard]

namespace Prepared

variable {k : ArenaId} {c : ContextId} {passes : List PassRecord} {w : Workspace}

/-- The node is evaluated with what the context has. -/
theorem after_eq_setLowered (h : Prepared k c passes w) {j : Nat} {n : Node}
    (hn : (w.arena k).node? j = some n) : w.after (evaluateCall c k j) =
      w.setLowered c (stateAfter (Lowering.evaluate w.strict (w.arena k) j (w.lowered c))) := by
  have hadmits : (w.evaluator c).context.Admits (.expr ⟨k, j⟩) ⟨k, j⟩ :=
    ⟨rfl, fun a ha => Option.some.inj (ha.symm.trans h.bound)⟩
  have hsame : { w.lowered c with
      context := { (w.evaluator c).context with arena := some k } } = w.lowered c := by
    rw [← h.bound]
    rfl
  rw [after_evaluateCall h.exists_context,
    evaluateOperand_eq h.exists_context hadmits (arena_lt_of_node? hn), hsame]
  cases Lowering.evaluate w.strict (w.arena k) j (w.lowered c) <;> rfl

/-- What is not remembered below a founded node is arithmetic. -/
theorem op_of_unknown (h : Prepared k c passes w) {j i : Nat} (hj : (w.arena k).Founded passes j)
    (hi : Reaches (w.arena k).operands j i)
    (hnew : (w.evaluator c).context.buffer? i = none) {n : Node}
    (hn : (w.arena k).node? i = some n) {op : Op} (hop : n.kind.op? = some op) :
    op ∈ Op.arithmetic := by
  rcases hj i n hi hn with ⟨x, horigin, hx⟩ | hkind
  · have hfaithful := h.coherent.contexts c
    rw [arenaOf, h.bound] at hfaithful
    have hknown := hfaithful.remembered_of_reaches hx (h.evaluated x horigin)
    rw [hnew] at hknown
    cases hknown
  · exact Op.mem_arithmetic hkind hop

/-- Evaluating a gradient asks for arithmetic only, and the context stays prepared. -/
theorem evaluate (h : Prepared k c passes w) {i g : Int}
    (hg : (w.evaluator c).context.grads.get? i = some g) :
    Prepared k c passes (w.after (evaluateCall c k g)) ∧
      ((w.after (evaluateCall c k g)).evaluator c).context.grads =
        (w.evaluator c).context.grads ∧
      Records (· ∈ Op.arithmetic) w.history (w.after (evaluateCall c k g)).history := by
  obtain ⟨j, rfl, hlt, hfounded⟩ := h.reuses i g hg
  obtain ⟨n, hn⟩ := Arena.exists_node? hlt
  have hcoherent := h.coherent.after (evaluateCall c k j)
  have hlasts : (w.evaluator c).context.Lasts
      ((w.after (evaluateCall c k j)).evaluator c).context := by
    rw [after, if_pos (Call.named_of_lt rfl rfl h.exists_context)]
    exact (Overlooks.carryOut Context.proceeds_of_same h.coherent (by simp [evaluateCall])
      fun _ e _ strict _ ha => Lowering.evaluate_proceeds strict ha e.index).2.toLasts
  have hlowers := Lowering.evaluate_lowers w.strict (w.arena k) j (w.lowered c)
  have hrecords := Lowering.evaluate_records (P := (· ∈ Op.arithmetic)) w.strict
    (h.coherent.arenas k) hlt (s := w.lowered c)
    fun i n hi hnew hn op hop => h.op_of_unknown hfounded hi hnew hn hop
  have hcontext : ((w.setLowered c (stateAfter (Lowering.evaluate w.strict (w.arena k) j
      (w.lowered c)))).evaluator c).context =
        (stateAfter (Lowering.evaluate w.strict (w.arena k) j (w.lowered c))).context := by
    rw [evaluator_setLowered h.exists_context, if_pos rfl]
  rw [h.after_eq_setLowered hn] at hcoherent hlasts ⊢
  have hgrads := (congrArg Context.grads hcontext).trans hlowers.grads
  refine ⟨⟨hcoherent, ?_, ?_, ?_, fun x hx => ?_⟩, hgrads, hrecords⟩
  · exact Nat.lt_of_lt_of_le h.exists_context (Nat.le_of_eq (Array.size_setIfInBounds ..).symm)
  · exact (congrArg Context.arena hcontext).trans (hlowers.bound.trans h.bound)
  · rw [hgrads]
    exact h.reuses
  · obtain ⟨b, hb⟩ := Option.isSome_iff_exists.mp (h.evaluated x hx)
    exact Option.isSome_iff_exists.mpr ⟨b, hlasts.values x b hb⟩

/-- So does evaluating any gradients, one after the other. -/
theorem evaluateAll (h : Prepared k c passes w) {gs : List Int}
    (hgs : ∀ g ∈ gs, ∃ i, (w.evaluator c).context.grads.get? i = some g) :
    Records (· ∈ Op.arithmetic) w.history
      ((gs.map (evaluateCall c k)).foldl Workspace.after w).history := by
  induction gs generalizing w with
  | nil => exact Std.Refl.refl w.history
  | cons g gs ih =>
    obtain ⟨i, hi⟩ := hgs g (List.mem_cons_self ..)
    obtain ⟨hprepared, hgrads, hrecords⟩ := h.evaluate hi
    refine IsTrans.trans _ _ _ hrecords (ih hprepared fun g' hg' => ?_)
    rw [hgrads]
    exact hgs g' (List.mem_cons_of_mem g hg')

end Prepared

/-- After any calls that build an arena with its operators, an operator that a call for a pass
appends is a sum, a product, a negation or a reciprocal over what the call appends, what the output
reaches, the seed and earlier gradients. Once the outputs and seeds of the passes that the context
keeps are evaluated, evaluating its gradients asks for these four operations only. -/
theorem gradients_reuse_graph {k : ArenaId} {calls : List Call}
    (hcalls : ∀ call ∈ calls, call.RegularIn k) {c : ContextId}
    (hc : c < (afterAll calls).evaluators.size) :
    (∀ (output : Operand) (seed : Option Operand) (wrt : Option (List Operand)),
      Call.RegularIn k (.backward c output seed wrt) →
      ∀ (i : Nat) (n : Node), ((afterAll calls).arena k).size ≤ i →
        ((stateAfter (differentiate c output seed wrt (afterAll calls))).arena k).node? i =
          some n → n.isLeaf = false →
        n.kind ∈ Kind.arithmetic ∧ ∃ y : Nat, output = .expr ⟨k, y⟩ ∧
          ∀ x ∈ n.operands, (afterAll calls).Available c k y seed x) ∧
    (((afterAll calls).evaluator c).context.arena = some k →
      (∀ r ∈ ledger calls c,
        (((afterAll calls).evaluator c).context.buffer? r.output).isSome ∧
          (((afterAll calls).evaluator c).context.buffer? r.seed).isSome) →
      ∀ gs : List Int,
        (∀ g ∈ gs, ∃ i, ((afterAll calls).evaluator c).context.grads.get? i = some g) →
        Records (· ∈ Op.arithmetic) (afterAll calls).history
          (afterAll (calls ++ gs.map (evaluateCall c k))).history) := by
  have htallied := afterAll_tallied (R := Int) ⟨id, id, id, id⟩ (fun _ => 0) hcalls c
  refine ⟨fun output seed wrt hregular i n hi hn hleaf => ?_, fun hbound hevaluated gs hgs => ?_⟩
  · exact htallied.builds hc hregular hi hn hleaf
  · have hprepared : Prepared k c (ledger calls c) (afterAll calls) := by
      refine ⟨afterAll_coherent calls, hc, hbound, afterAll_founds hcalls c hbound, ?_⟩
      rintro x ⟨r, hr, rfl | rfl⟩
      · exact (hevaluated r hr).1
      · exact (hevaluated r hr).2
    have hrecords := hprepared.evaluateAll hgs
    rw [afterAll] at hrecords ⊢
    rw [afterAll, List.foldl_append]
    exact hrecords

/-- A pass from the exponential of a parameter, with the parameter for seed. -/
def seededPass : Call :=
  .backward 0 (.expr ⟨0, (1 : Nat)⟩) (some (.expr ⟨0, (0 : Nat)⟩)) none

/-- The pass, and then the evaluation of the exponential. -/
def evaluatedPass : List Call := exponential ++ [seededPass, evaluateCall 0 0 (1 : Nat)]

theorem seededPass_accepts : ((afterAll exponential).differentiation 0 0).Accepts
    (.expr ⟨0, (1 : Nat)⟩) (some (.expr ⟨0, (0 : Nat)⟩)) none ⟨0, (1 : Nat)⟩
      ⟨.unary .exp 0, ⟨[]⟩, none⟩ := by
  refine ⟨rfl, ⟨rfl, fun a ha => ?_⟩, rfl, ?_, by simp⟩
  · cases ha
  · rintro o ⟨⟩
    exact ⟨(0 : Nat), ⟨.leaf .param, ⟨[]⟩, none⟩, rfl, rfl, rfl⟩

theorem seededPass_ok : ∃ w : Workspace, afterAll (exponential ++ [seededPass]) = w ∧
    0 < w.evaluators.size ∧ (w.evaluator 0).context.arena = some 0 ∧
    (w.arena 0).node? 1 = some ⟨.unary .exp 0, ⟨[]⟩, none⟩ ∧
    (∃ g, (w.evaluator 0).context.grads.get? (0 : Nat) = some g) ∧
    ∀ r ∈ ledger (exponential ++ [seededPass]) 0, r.output = 1 ∧ r.seed = 0 := by
  have hseed : ∀ o, some (Operand.expr ⟨0, (0 : Nat)⟩) = some o → o.Natural := by
    rintro o ⟨⟩ e ⟨⟩
    exact Int.natCast_nonneg 0
  have hc : 0 < (afterAll exponential).evaluators.size := by decide
  have htallied := afterAll_tallied (R := Int) ⟨id, id, id, id⟩ (fun _ => 0) exponential_regular 0
  obtain ⟨o, w, hok, hcomplete⟩ := htallied.complete hc seededPass_accepts hseed
  have hbound := differentiate_bound (e := ⟨0, (1 : Nat)⟩) hc seededPass_accepts
  have hspares := differentiate_spares 0 (.expr ⟨0, (1 : Nat)⟩)
    (some (.expr ⟨0, (0 : Nat)⟩)) none (afterAll exponential)
  have hgrows := differentiate_grows (w := afterAll exponential) (c := 0) (.expr ⟨0, (1 : Nat)⟩)
    (some (.expr ⟨0, (0 : Nat)⟩)) none 0
  rw [hok] at hbound hspares hgrows
  refine ⟨w, ?_, Nat.lt_of_lt_of_le hc hspares.size_le, hbound, hgrows.1.1 1 _ rfl, ?_, ?_⟩
  · rw [afterAll, List.foldl_append]
    change (afterAll exponential).after seededPass = w
    rw [after, if_pos (by decide), seededPass, Call.carryOut, stateAfter_discard, hok]
    rfl
  · exact hcomplete.live 0 ⟨.step (List.mem_singleton_self 0) (.refl 0), 0, .refl 0, rfl,
      askedFor_none 0⟩
  · have hledger : ledger (exponential ++ [seededPass]) 0 =
        ((afterAll exponential).passOf 0 seededPass).toList ++ [] := rfl
    rw [hledger, seededPass, passOf_of_ok (e := ⟨0, (1 : Nat)⟩) hc hok]
    intro r hr
    obtain rfl := List.mem_singleton.mp hr
    exact ⟨rfl, rfl⟩

theorem evaluatedPass_ok : ∃ w : Workspace, afterAll evaluatedPass = w ∧ 0 < w.evaluators.size ∧
    (w.evaluator 0).context.arena = some 0 ∧ ((w.evaluator 0).context.buffer? 1).isSome ∧
    ((w.evaluator 0).context.buffer? 0).isSome ∧
    ∃ g, (w.evaluator 0).context.grads.get? (0 : Nat) = some g := by
  obtain ⟨w, hw, hc, hbound, hnode, ⟨g, hg⟩, -⟩ := seededPass_ok
  have hcoherent : w.Coherent := hw ▸ afterAll_coherent _
  have hnear : ¬w.Foreign 0 0 := by
    rintro ⟨k, hk, hne⟩
    exact hne (Option.some.inj (hk.symm.trans hbound))
  obtain ⟨b, w', hrun⟩ : ∃ b w', evaluateOperand 0 (.expr ⟨0, (1 : Nat)⟩) w = .ok b w' := by
    have horderly : Orderly (fun k => k = 0) (fun _ => True) start (exponential ++ [seededPass]) :=
      ⟨trivial, trivial, trivial, trivial, trivial⟩
    obtain ⟨-, hevaluate, -⟩ := orderly_graphs_evaluate horderly
    rw [hw] at hevaluate
    rcases hevaluate 0 hc trivial 0 rfl 1 _ hnode with ⟨b, w', hrun, -⟩ | ⟨hforeign, -⟩
    · exact ⟨b, w', hrun⟩
    · exact absurd hforeign hnear
  have hends := hcoherent.evaluateOperand_ends hc (Arena.lt_size_of_node? hnode) hnear
  have hcontexts := evaluateOperand_keepsGradients 0 (.expr ⟨0, (1 : Nat)⟩) w
  have hafter := hcoherent.evaluateOperand hc (.expr ⟨0, (1 : Nat)⟩)
  obtain ⟨-, s, -, hstate⟩ := evaluateOperand_ok hc hrun
  rw [hrun] at hends hcontexts hafter
  obtain ⟨hsize, hkeeps⟩ := hcontexts
  have hbound' : (w'.evaluator 0).context.arena = some 0 := (hkeeps 0).2.2 0 hbound
  have hexp : ((w'.evaluator 0).context.buffer? 1).isSome := by
    cases hends with
    | completed done order advances buffer => exact Option.isSome_iff_exists.mpr ⟨b, buffer⟩
  refine ⟨w', ?_, hsize ▸ hc, hbound', hexp, ?_, g, (hkeeps 0).2.1 ▸ hg⟩
  · have hsplit : evaluatedPass = (exponential ++ [seededPass]) ++ [evaluateCall 0 0 (1 : Nat)] :=
      rfl
    rw [hsplit, afterAll, List.foldl_append]
    change (afterAll (exponential ++ [seededPass])).after _ = w'
    rw [hw, after_evaluateCall hc, hrun]
    rfl
  · -- the operand of what is remembered is remembered
    have hfaithful := hafter.contexts 0
    change (w'.evaluator 0).context.Faithful (w'.arenaOf 0) (w'.programOf 0) at hfaithful
    rw [arenaOf, hbound', Option.map_some, Option.getD_some] at hfaithful
    refine hfaithful.remembered_of_reaches (.step ?_ (.refl 0)) hexp
    have hnode' : (w'.arena 0).node? 1 = some ⟨.unary .exp 0, ⟨[]⟩, none⟩ := by
      rw [hstate]
      exact hnode
    rw [Arena.operands_of_node? hnode']
    exact List.mem_singleton_self 0

/-- The gradient of the parameter is evaluated with a product only. -/
theorem gradients_reuse_graph_exponential :
    ∃ g, ((afterAll evaluatedPass).evaluator 0).context.grads.get? (0 : Nat) = some g ∧
      Records (· ∈ Op.arithmetic) (afterAll evaluatedPass).history
        (afterAll (evaluatedPass ++ [evaluateCall 0 0 g])).history := by
  have hcalls : ∀ call ∈ evaluatedPass, call.RegularIn 0 := by
    simp [evaluatedPass, seededPass, evaluateCall, exponential, Call.RegularIn, Operand.Natural]
  obtain ⟨w, hw, hc, hbound, hexp, hparam, g, hg⟩ := evaluatedPass_ok
  obtain ⟨-, -, -, -, -, -, hledger⟩ := seededPass_ok
  rw [← hw] at hc hbound hexp hparam hg
  refine ⟨g, hg, ?_⟩
  refine (gradients_reuse_graph hcalls hc).2 hbound (fun r hr => ?_) [g] ?_
  · obtain ⟨houtput, hseed⟩ := hledger r hr
    rw [houtput, hseed]
    exact ⟨hexp, hparam⟩
  · intro h hh
    rw [List.mem_singleton.mp hh]
    exact ⟨_, hg⟩

end Workspace

end TensorGraph
