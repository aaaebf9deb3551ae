import TensorGraph.Proofs.Gradient.Refusal
import TensorGraph.Proofs.Workspace.Building
import TensorGraph.Proofs.Workspace.Gradients

/-!
# Passes are refused or completed

A pass has no third way to end. It is refused before it writes anything, for a reason that its
arguments give, or it is carried out to its end. In both cases it evaluates nothing.
-/

namespace TensorGraph.Workspace

open Differentiation

variable {w w' : Workspace} {c : ContextId} {output : Operand} {seed : Option Operand}
  {wrt : Option (List Operand)} {err : Error}

/-- A pass that is refused leaves the gradients. -/
theorem gradients_of_error (hc : c < w.evaluators.size)
    (hno : ∀ e node, ¬(w.differentiation c output.arena).Accepts output seed wrt e node)
    (h : differentiate c output seed wrt w = .error err w') :
    (w'.evaluator c).context.grads = (w.evaluator c).context.grads := by
  rcases backward_cases output seed wrt (w.differentiation c output.arena) with
    ⟨e, node, -, haccepts, -⟩ | ⟨-, err', t, herror, hkeeps⟩
  · exact absurd haccepts (hno e node)
  · have hcontext := differentiate_context hc output seed wrt
    rw [h, herror] at hcontext
    exact (congrArg Context.grads hcontext).trans hkeeps.1

/-- The error with which a pass is refused is an objection to its arguments. -/
theorem objection_of_refused
    (hno : ∀ e node, ¬(w.differentiation c output.arena).Accepts output seed wrt e node) :
    ∃ err w', differentiate c output seed wrt w = .error err w' ∧
      Objection (w.differentiation c output.arena) output seed wrt err := by
  rcases backward_cases output seed wrt (w.differentiation c output.arena) with
    ⟨e, node, -, haccepts, -⟩ | ⟨-, err, t, herror, -⟩
  · exact absurd haccepts (hno e node)
  · obtain ⟨w', hw'⟩ := differentiating_of_error herror
    exact ⟨err, w', hw', objection_of_error hno herror⟩

/-- An accepted pass leaves entries that are nodes of the arena, of the shapes of theirs. -/
theorem shaped_of_accepted {R : Type} [CommRing R] {F : Functions R} {ρ : Nat → R} {k : ArenaId}
    {passes : List PassRecord} {y : Nat} {node : Node} (h : Tallied F ρ k c w passes)
    (hc : c < w.evaluators.size)
    (haccepts : (w.differentiation c k).Accepts (.expr ⟨k, y⟩) seed wrt ⟨k, y⟩ node)
    (hseed : ∀ o, seed = some o → o.Natural) :
    ∃ o w', differentiate c (.expr ⟨k, y⟩) seed wrt w = .ok o w' ∧
      (w'.evaluator c).context.arena = some k ∧
      (w'.arena k).Shaped (w'.evaluator c).context.grads := by
  obtain ⟨o, w', hok, -⟩ := h.complete hc haccepts hseed
  have hbound := differentiate_bound (e := ⟨k, y⟩) hc haccepts
  have htallied := h.differentiate_accepted hc haccepts hseed
  rw [hok] at hbound htallied
  exact ⟨o, w', hok, hbound, (htallied.bound hbound).shaped⟩

/-- After any calls that build arenas with their operators, a pass of a context is refused, for what
its arguments give reason to, and leaves the gradients; or there is nothing to object to, and it is
carried out and leaves entries of the shapes of their nodes. Either way the context keeps what it
evaluated, and all programs stay. The index of an output or a seed does not count from the end. -/
theorem differentiate_completes {calls : List Call}
    (hcalls : ∀ e, output = .expr e → ∀ call ∈ calls, call.RegularIn e.arena)
    (hc : c < (afterAll calls).evaluators.size) (houtput : output.Natural)
    (hseed : ∀ o, seed = some o → o.Natural) :
    ((∃ err w', differentiate c output seed wrt (afterAll calls) = .error err w' ∧
        Objection ((afterAll calls).differentiation c output.arena) output seed wrt err ∧
        (w'.evaluator c).context.grads = ((afterAll calls).evaluator c).context.grads) ∨
      ∃ o w' k, differentiate c output seed wrt (afterAll calls) = .ok o w' ∧
        (∀ err, ¬Objection ((afterAll calls).differentiation c output.arena) output seed wrt err) ∧
        (w'.evaluator c).context.arena = some k ∧
        (w'.arena k).Shaped (w'.evaluator c).context.grads) ∧
    (afterAll calls).Spares (stateAfter (differentiate c output seed wrt (afterAll calls))) := by
  refine ⟨?_, differentiate_spares c output seed wrt _⟩
  by_cases haccepted : ∃ e node,
      ((afterAll calls).differentiation c output.arena).Accepts output seed wrt e node
  · obtain ⟨⟨k, i⟩, node, haccepts⟩ := haccepted
    obtain rfl := haccepts.admits.1
    obtain ⟨y, rfl⟩ := Int.eq_ofNat_of_zero_le (houtput ⟨k, i⟩ rfl)
    have htallied := afterAll_tallied (R := Int) ⟨id, id, id, id⟩ (fun _ => 0) (hcalls _ rfl) c
    obtain ⟨o, w', hok, hbound, hshaped⟩ := shaped_of_accepted htallied hc haccepts hseed
    exact Or.inr ⟨o, w', k, hok, fun err => haccepts.no_objection, hbound, hshaped⟩
  · have hno : ∀ e node,
        ¬((afterAll calls).differentiation c output.arena).Accepts output seed wrt e node :=
      fun e node haccepts => haccepted ⟨e, node, haccepts⟩
    obtain ⟨err, w', herror, hobjection⟩ := objection_of_refused hno
    exact Or.inl ⟨err, w', herror, hobjection, gradients_of_error hc hno herror⟩

/-- The exponential of a parameter is differentiated, but it cannot be asked for. -/
theorem differentiate_completes_exponential :
    (∃ o w' k, differentiate 0 (.expr ⟨0, (1 : Nat)⟩) none none (afterAll exponential) = .ok o w' ∧
      (w'.evaluator 0).context.arena = some k ∧
      (w'.arena k).Shaped (w'.evaluator 0).context.grads) ∧
    ∃ err w', differentiate 0 (.expr ⟨0, (1 : Nat)⟩) none (some [.expr ⟨0, (1 : Nat)⟩])
        (afterAll exponential) = .error err w' ∧
      (w'.evaluator 0).context.grads = ((afterAll exponential).evaluator 0).context.grads := by
  have hcalls : ∀ e, Operand.expr ⟨0, (1 : Nat)⟩ = .expr e →
      ∀ call ∈ exponential, call.RegularIn e.arena := by
    rintro e ⟨⟩
    exact exponential_regular
  have hc : 0 < (afterAll exponential).evaluators.size := by decide
  have houtput : Operand.Natural (.expr ⟨0, (1 : Nat)⟩) := by simp [Operand.Natural]
  have hseed : ∀ o : Operand, none = some o → o.Natural := by
    rintro o ⟨⟩
  constructor
  · obtain ⟨hdone | hdone, -⟩ :=
      @differentiate_completes 0 _ none none _ hcalls hc houtput hseed
    · obtain ⟨err, w', -, hobjection, -⟩ := hdone
      exact absurd hobjection exponential_accepts.no_objection
    · obtain ⟨o, w', k, hok, -, hbound, hshaped⟩ := hdone
      exact ⟨o, w', k, hok, hbound, hshaped⟩
  · obtain ⟨hdone | hdone, -⟩ :=
      @differentiate_completes 0 _ none (some [.expr ⟨0, (1 : Nat)⟩]) _ hcalls hc houtput hseed
    · obtain ⟨err, w', herror, -, hgrads⟩ := hdone
      exact ⟨err, w', herror, hgrads⟩
    · obtain ⟨o, w', k, -, hno, -⟩ := hdone
      refine absurd (.notParam (k := 0) (i := 1) (p := 1) (n := ⟨.unary .exp 0, ⟨[]⟩, none⟩)
        (m := ⟨.unary .exp 0, ⟨[]⟩, none⟩) rfl rfl rfl ?_ rfl ?_) (hno _)
      · exact List.mem_singleton_self _
      · decide

/-! ### Handles without a node, and handles that count from the end -/

/-- A parameter and its negation, and a context that was asked about neither. -/
def negation : List Call :=
  [.newContext none true, .param 0 (.shape ⟨[2]⟩) none, .unary .neg ⟨0, 0⟩]

/-- A seed that counts from the end becomes the gradient of the negation, but the rule of a negation
takes no such operand. -/
theorem meet_negation (live : Std.HashSet Int)
    (hlive : ((0 : Nat) : Int) ∈ live ∧ ((1 : Nat) : Int) ∈ live) :
    ∃ t, Pass.meet live (1 : Nat)
        ⟨(afterAll negation).arena 0, {}, (∅ : Std.HashMap Int (List Int)).insert 1 [-1], #[]⟩ =
      .error (.noSuchOperand (-1)) t ∧ t.grads.get? 1 = some (-1) := by
  set s : Pass :=
    ⟨(afterAll negation).arena 0, {}, (∅ : Std.HashMap Int (List Int)).insert 1 [-1], #[]⟩ with hs
  have hwait : s.waiting 1 = [-1] := by simp [hs, Pass.waiting]
  have hmeet := Pass.meet_single (n := ⟨.unary .neg 0, ⟨[2]⟩, none⟩)
    (m := ⟨.unary .neg 0, ⟨[2]⟩, none⟩) hlive.2 hwait (Table.get?_empty 1) rfl (by decide) rfl
    (by decide)
  refine ⟨_, hmeet.trans (Pass.sendByRules_error hlive.1 rfl), ?_⟩
  exact (Table.get?_insert ..).trans (if_pos rfl)

theorem run_negation {c : Context} (hgrads : c.grads = {}) :
    ∃ t, Differentiation.run 1 (-1) none ⟨(afterAll negation).arena 0, c⟩ =
        .error (.noSuchOperand (-1)) t ∧ t.context.grads.get? 1 = some (-1) := by
  have harena : (afterAll negation).arena 0 =
      ⟨#[⟨.leaf .param, ⟨[2]⟩, none⟩, ⟨.unary .neg 0, ⟨[2]⟩, none⟩]⟩ := rfl
  have horder : ((afterAll negation).arena 0).toposort? 1 = some [0, 1] := by
    rw [harena]
    simp [Arena.toposort?, Arena.reach?, Arena.at?, Arena.node?, reached, sweep,
      Arena.openOperands, Arena.operands, Form.operands, Node.operands]
  have hlive : ((afterAll negation).arena 0).live none [0, 1] =
      ((∅ : Std.HashSet Int).insert 0).insert 1 := by
    rw [harena]
    simp [Arena.live, Arena.at?, Arena.node?, Node.operands, Form.operands, Node.kind, Form.kind]
  obtain ⟨t, hmeet, hgrad⟩ :=
    meet_negation (((∅ : Std.HashSet Int).insert 0).insert 1) (by simp)
  have hfor : [1, 0].forM (Pass.meet (((∅ : Std.HashSet Int).insert 0).insert 1))
      ⟨(afterAll negation).arena 0, c.grads, (∅ : Std.HashMap Int (List Int)).insert 1 [-1], #[]⟩ =
        .error (.noSuchOperand (-1)) t := by
    rw [hgrads]
    exact bind_of_error hmeet
  refine ⟨⟨t.arena, { c with grads := t.grads }⟩, ?_, hgrad⟩
  simp only [Differentiation.run, horder, hlive, List.reverse_cons, List.reverse_nil,
    List.nil_append, List.cons_append, hfor]

/-- A parameter is differentiated by a handle that counts from the end, and one of another shape
follows. -/
def counted : List Call :=
  [.newContext none true, .param 0 (.shape ⟨[2]⟩) none, .backward 0 (.expr ⟨0, -1⟩) none none,
    .param 0 (.shape ⟨[3]⟩) none]

/-- The first nodes of the arena of these calls and of a pass after them. -/
def countedNodes (count : Nat) : Arena :=
  ⟨([⟨.leaf .param, ⟨[2]⟩, none⟩, ⟨.leaf .param, ⟨[2]⟩, some "grad"⟩,
    ⟨.leaf .param, ⟨[3]⟩, none⟩, ⟨.leaf .param, ⟨[3]⟩, some "grad"⟩].take count).toArray⟩

/-- A pass from a parameter at the end of the arena, by the handle that counts from there, meets only
that one. -/
theorem run_last {a : Arena} {n : Node} {g : Int} (hn : a.at? (-1) = some n)
    (hkind : n.kind = .param) (c : Context) :
    Differentiation.run (-1) g none ⟨a, c⟩ =
      match Pass.meet ((∅ : Std.HashSet Int).insert (-1)) (-1)
        ⟨a, c.grads, (∅ : Std.HashMap Int (List Int)).insert (-1) [g], #[]⟩ with
      | .ok () s => .ok ⟨s.found.toList, 1⟩ ⟨s.arena, { c with grads := s.grads }⟩
      | .error e s => .error e ⟨s.arena, { c with grads := s.grads }⟩ := by
  have hleaf := Form.eq_leaf_of_kind hkind
  have horder : a.toposort? (-1) = some [-1] := by
    simp [Arena.toposort?, Arena.reach?, hn, Node.operands, hleaf, Form.operands, reached_nil]
  have hlive : a.live none [-1] = (∅ : Std.HashSet Int).insert (-1) := by
    simp [Arena.live, hn, hkind]
  have hone : [-1].forM (Pass.meet ((∅ : Std.HashSet Int).insert (-1))) =
      Pass.meet ((∅ : Std.HashSet Int).insert (-1)) (-1) := bind_pure_unit
  have hcount : ((∅ : Std.HashSet Int).insert (-1)).size = 1 := by
    rw [Std.HashSet.size_insert, if_neg Std.HashSet.not_mem_empty, Std.HashSet.size_empty]
  simp only [Differentiation.run, horder, hlive, List.reverse_singleton, hone, hcount]
  cases Pass.meet ((∅ : Std.HashSet Int).insert (-1)) (-1)
    ⟨a, c.grads, (∅ : Std.HashMap Int (List Int)).insert (-1) [g], #[]⟩ <;> rfl

/-- The first of these passes stores its seed. -/
theorem run_counted_first {c : Context} (hgrads : c.grads = {}) :
    ∃ o, Differentiation.run (-1) 1 none ⟨countedNodes 2, c⟩ =
      .ok o ⟨countedNodes 2, { c with grads := c.grads.insert (-1) 1 }⟩ := by
  set s : Pass := ⟨countedNodes 2, c.grads, (∅ : Std.HashMap Int (List Int)).insert (-1) [1], #[]⟩
    with hs
  have hwait : s.pending.getD (-1) [] = [1] := by simp [hs]
  have hfirst : s.grads.get? (-1) = none := by
    rw [hs, hgrads]
    exact Table.get?_empty (-1)
  have hlive : -1 ∈ (∅ : Std.HashSet Int).insert (-1) := by simp
  have hmeet := Pass.meet_run hlive (by simp [hwait]) (Pass.sum_waiting hwait rfl)
    (Pass.total_of_none hfirst) rfl rfl
  rw [run_last rfl rfl, hmeet]
  exact ⟨_, rfl⟩

/-- The second would add its seed to the gradient of the first, which has another shape. -/
theorem run_counted_second {c : Context} (hgrads : c.grads.get? (-1) = some 1) :
    ∃ t, Differentiation.run (-1) 3 none ⟨countedNodes 4, c⟩ =
      .error (.shapeMismatch (.operator .add) ⟨[2]⟩ ⟨[3]⟩) t := by
  set s : Pass := ⟨countedNodes 4, c.grads, (∅ : Std.HashMap Int (List Int)).insert (-1) [3], #[]⟩
    with hs
  have hwait : s.pending.getD (-1) [] = [3] := by simp [hs]
  have hlive : -1 ∈ (∅ : Std.HashSet Int).insert (-1) := by simp
  have hmeet := Pass.meet_add hlive (by simp [hwait]) (Pass.sum_waiting hwait rfl)
  have htotal : Pass.total (-1) 3 { s with pending := s.pending.erase (-1) } =
      .error (.shapeMismatch (.operator .add) ⟨[2]⟩ ⟨[3]⟩)
        { s with pending := s.pending.erase (-1) } := by
    have hprevious : Pass.previous (-1) { s with pending := s.pending.erase (-1) } =
        .ok (some 1) { s with pending := s.pending.erase (-1) } := by
      rw [Pass.previous, hs, hgrads]
    rw [Pass.total, bind_of_ok hprevious]
    rfl
  rw [run_last rfl rfl, hmeet, bind_of_error htotal]
  exact ⟨_, rfl⟩

/-- The calls leave a context that holds a gradient of the first shape at the end of the arena, where
there now is a node of the second. -/
theorem differentiation_counted : (afterAll counted).differentiation 0 0 =
    ⟨countedNodes 3, { arena := some 0, grads := ({} : Table Int Int).insert (-1) 1 }⟩ := by
  set w := afterAll [.newContext none true, .param 0 (.shape ⟨[2]⟩) none] with hw
  obtain ⟨o, hrun⟩ := run_counted_first (c := { arena := some 0 }) rfl
  have hbackward : Differentiation.backward (.expr ⟨0, -1⟩) none none (w.differentiation 0 0) =
      .ok o ⟨countedNodes 2, { arena := some 0, grads := ({} : Table Int Int).insert (-1) 1 }⟩ := by
    rw [← hrun]
    rfl
  have hnamed : Call.Named w (.backward 0 (.expr ⟨0, -1⟩) none none) = true :=
    Call.named_of_lt rfl rfl (by decide)
  have hpass : w.after (.backward 0 (.expr ⟨0, -1⟩) none none) =
      w.setDifferentiated 0 0 ⟨countedNodes 2,
        { arena := some 0, grads := ({} : Table Int Int).insert (-1) 1 }⟩ := by
    rw [after, if_pos hnamed, Call.carryOut, stateAfter_discard, differentiate, differentiating_eq]
    simp only [Operand.arena, hbackward, stateAfter]
  have hafter : afterAll counted =
      (w.after (.backward 0 (.expr ⟨0, -1⟩) none none)).after (.param 0 (.shape ⟨[3]⟩) none) := by
    simp only [afterAll, counted, hw, List.foldl_cons, List.foldl_nil]
  rw [hafter, hpass]
  rfl

theorem differentiate_counted : ∃ w',
    differentiate 0 (.expr ⟨0, -1⟩) none none (afterAll counted) =
      .error (.shapeMismatch (.operator .add) ⟨[2]⟩ ⟨[3]⟩) w' := by
  obtain ⟨t, hrun⟩ := run_counted_second
    (c := { arena := some 0, grads := ({} : Table Int Int).insert (-1) 1 })
    ((Table.get?_insert ..).trans (if_pos rfl))
  have hbackward : Differentiation.backward (.expr ⟨0, -1⟩) none none
      ((afterAll counted).differentiation 0 0) =
        .error (.shapeMismatch (.operator .add) ⟨[2]⟩ ⟨[3]⟩) t := by
    rw [differentiation_counted, ← hrun]
    rfl
  exact differentiating_of_error hbackward

/-- A pass from a handle without a node is refused as such. One whose seed counts from the end fails
half-way, though the seed has the shape of the output. One from a handle that counts from the end
fails at the gradient that an earlier pass left there. -/
theorem unnumbered_handles_fail :
    ((afterAll negation).evaluator 0).context.requiresGrad = true ∧
      ((afterAll negation).evaluator 0).context.arena = none ∧
      (∃ w', differentiate 0 (.expr ⟨0, 99⟩) none none (afterAll negation) =
        .error (.absent 99) w') ∧
      (((afterAll negation).arena 0).at? (-1)).map Node.shape =
        (((afterAll negation).arena 0).at? 1).map Node.shape ∧
      (∃ w', differentiate 0 (.expr ⟨0, 1⟩) (some (.expr ⟨0, -1⟩)) none (afterAll negation) =
          .error (.noSuchOperand (-1)) w' ∧
        (w'.evaluator 0).context.grads.get? 1 ≠
          ((afterAll negation).evaluator 0).context.grads.get? 1) ∧
      ((afterAll counted).evaluator 0).context.requiresGrad = true ∧
      ((afterAll counted).evaluator 0).context.arena = some 0 ∧
      ∃ w', differentiate 0 (.expr ⟨0, -1⟩) none none (afterAll counted) =
        .error (.shapeMismatch (.operator .add) ⟨[2]⟩ ⟨[3]⟩) w' := by
  refine ⟨rfl, rfl, ⟨_, rfl⟩, rfl, ?_,
    congrArg (fun s => s.context.requiresGrad) differentiation_counted,
    congrArg (fun s => s.context.arena) differentiation_counted, differentiate_counted⟩
  obtain ⟨t, hrun, hgrad⟩ := run_negation
    (c := { ((afterAll negation).evaluator 0).context with arena := some 0 }) rfl
  have hbackward : Differentiation.backward (.expr ⟨0, 1⟩) (some (.expr ⟨0, -1⟩)) none
      ((afterAll negation).differentiation 0 0) = .error (.noSuchOperand (-1)) t := by
    rw [← hrun]
    rfl
  obtain ⟨w', hw'⟩ := differentiating_of_error hbackward
  have hcontext := differentiate_context (w := afterAll negation) (c := 0) (by decide)
    (.expr ⟨0, 1⟩) (some (.expr ⟨0, -1⟩)) none
  have hafter : (w'.evaluator 0).context = t.context := by
    have hfails : differentiate 0 (.expr ⟨0, 1⟩) (some (.expr ⟨0, -1⟩)) none
        (afterAll negation) = .error (.noSuchOperand (-1)) w' := hw'
    rw [hfails] at hcontext
    exact hcontext.trans (congrArg (fun r => (stateAfter r).context) hbackward)
  refine ⟨w', hw', ?_⟩
  have hbefore : ((afterAll negation).evaluator 0).context.grads.get? 1 = none :=
    Table.get?_empty 1
  rw [hafter, hgrad, hbefore]
  exact Option.some_ne_none (-1)

end TensorGraph.Workspace
