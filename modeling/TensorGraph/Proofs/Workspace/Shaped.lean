import TensorGraph.Proofs.Context.Shaped
import TensorGraph.Proofs.Workspace.Building
import TensorGraph.Proofs.Workspace.Evaluation

/-!
# Well-shaped workspaces

Some arenas are built by operators only, and into some programs only evaluation of such arenas
writes. However contexts share these programs, and whatever else is called in between: nodes have
the shape of what they reach, evaluation of a node succeeds, and what contexts remember has the
shape of its node.
-/

namespace TensorGraph

/-- A context that is bound stays so, remembers what it did, and stays at rest. -/
structure Context.Settles (c d : Context) : Prop where
  values : d.values = c.values
  bound : ∀ a, c.arena = some a → d.arena = some a
  idle : c.Idle → d.Idle

/-- A context that did nothing. -/
structure Context.Blank (c : Context) : Prop where
  values : ∀ i : Int, c.values[i]? = none
  idle : c.Idle

theorem Context.settles_refl (c : Context) : c.Settles c := ⟨rfl, fun _ h => h, id⟩

theorem Context.KeepsEvaluations.settles {c d : Context} (h : c.KeepsEvaluations d) :
    c.Settles d := by
  refine ⟨h.values, h.bound, fun hc => ?_⟩
  rw [Context.Idle, h.active]
  exact hc

theorem Context.blank_fresh (requiresGrad : Bool) : (Context.fresh requiresGrad).Blank := by
  constructor
  · intro i
    simp [fresh]
  · intro id
    simp [fresh]

theorem Context.Blank.keeps {c d : Context} (h : c.Blank) (hcd : c.KeepsEvaluations d) :
    d.Blank := by
  constructor
  · rw [hcd.values]
    exact h.values
  · rw [Context.Idle, hcd.active]
    exact h.idle

theorem Context.Blank.shaped {c : Context} (h : c.Blank) (a : Arena) (p : Program) :
    c.Shaped a p := by
  intro i b hb
  rw [h.values i] at hb
  cases hb

namespace Workspace

variable (A : ArenaId → Prop) (P : ProgramId → Prop)

/-- A call that keeps to operators in arenas in `A`, and to evaluation of nodes of such arenas in
programs in `P`; there it does not enter ids itself. -/
def Call.Orderly (w : Workspace) : Call → Prop
  | .addNode k _ _ _ _ => ¬A k
  | .alloc p _ _ | .emit p _ _ _ _ => ¬P p
  | .evaluate c o => P (w.evaluator c).program →
    ∀ e, (w.evaluator c).context.Admits o e → A e.arena ∧ 0 ≤ e.index
  | .enter c _ => ¬P (w.evaluator c).program
  | _ => True

/-- Each call is orderly when it is made. -/
def Orderly : Workspace → List Call → Prop
  | _, [] => True
  | w, call :: calls => call.Orderly A P w ∧ Orderly (w.after call) calls

structure WellShaped (w : Workspace) : Prop where
  coherent : w.Coherent
  arenas : ∀ k, A k → (w.arena k).Uniform
  programs : ∀ p, P p → (w.program p).Uniform
  shaped : ∀ c, P (w.evaluator c).program →
    (w.evaluator c).context.Shaped (w.arenaOf c) (w.programOf c)
  idle : ∀ c, P (w.evaluator c).program → (w.evaluator c).context.Idle

variable {A P}

theorem wellShaped_start : start.WellShaped A P where
  coherent := coherent_start
  arenas k _ := arena_start k ▸ Arena.uniform_empty
  programs _ _ := Program.uniform_empty
  shaped _ _ := (Context.blank_fresh true).shaped _ _
  idle _ _ := (Context.blank_fresh true).idle

/-- What remembers nodes of the arena that it is bound to may get bound, and all may grow. -/
theorem Context.Shaped.rebinds {c d : Context} {w w' : Workspace} {p q : Program}
    (h : c.Shaped ((c.arena.map w.arena).getD .empty) p) (hcd : c.Settles d)
    (harenas : ∀ k, (w.arena k).Extends (w'.arena k)) (hpq : p.Extends q) :
    d.Shaped ((d.arena.map w'.arena).getD .empty) q := by
  cases hc : c.arena with
  | some k =>
    rw [hc] at h
    rw [hcd.bound k hc]
    exact h.mono hcd.values (harenas k) hpq
  | none =>
    rw [hc] at h
    exact (h.of_empty _).mono hcd.values (Arena.Extends.refl _) (Program.Extends.refl q)

/-- What may happen to a well-shaped workspace when nothing is evaluated. -/
theorem WellShaped.grow {w w' : Workspace} (h : w.WellShaped A P) (hcoherent : w'.Coherent)
    (harenas : ∀ k, (w.arena k).Extends (w'.arena k))
    (huniform : ∀ k, A k → (w.arena k).Uniform → (w'.arena k).Uniform)
    (hprograms : ∀ p, P p → w'.program p = w.program p)
    (hcontexts : ∀ c, P (w'.evaluator c).program →
      ((w'.evaluator c).program = (w.evaluator c).program ∧
        (w.evaluator c).context.Settles (w'.evaluator c).context) ∨
      (w'.evaluator c).context.Blank) : w'.WellShaped A P where
  coherent := hcoherent
  arenas k hk := huniform k hk (h.arenas k hk)
  programs p hp := hprograms p hp ▸ h.programs p hp
  shaped c hc := by
    rcases hcontexts c hc with ⟨hprogram, hsettles⟩ | hblank
    · have hold := h.shaped c (hprogram ▸ hc)
      rw [programOf, hprograms _ hc, hprogram]
      exact Context.Shaped.rebinds hold hsettles harenas (Program.Extends.refl _)
    · exact hblank.shaped _ _
  idle c hc := by
    rcases hcontexts c hc with ⟨hprogram, hsettles⟩ | hblank
    · exact hsettles.idle (h.idle c (hprogram ▸ hc))
    · exact hblank.idle

/-! ### Evaluating -/

variable {w : Workspace} {c : ContextId}

theorem WellShaped.bind (h : w.WellShaped A P) (c : ContextId) (o : Operand) :
    (stateAfter (inContext c (Context.bind o) w)).WellShaped A P := by
  have hcontexts := inContext_contexts (Context.bind_evaluations o) c w
  obtain ⟨evaluators, hafter, -⟩ := inContext_after c (Context.bind o) w
  refine h.grow (h.coherent.bind c o) ?_ ?_ ?_ fun d _ => ?_
  · exact fun k => by rw [hafter]; exact Arena.Extends.refl _
  · exact fun k _ hk => by rw [hafter]; exact hk
  · exact fun p _ => by rw [hafter]; rfl
  · exact Or.inl ⟨(hcontexts.2 d).1, (hcontexts.2 d).2.settles⟩

theorem WellShaped.bind_admitted (h : w.WellShaped A P) {o : Operand} {e : Expr}
    (hadmits : (w.evaluator c).context.Admits o e) :
    (w.setContext c { (w.evaluator c).context with arena := some e.arena }).WellShaped A P := by
  have hbind := h.bind c o
  rw [inContext_bind hadmits] at hbind
  exact hbind

/-- What a context does with another program than those looked at does not matter. -/
theorem WellShaped.lowering_elsewhere (h : w.WellShaped A P) {α : Type} (x : Lower α)
    (hP : ¬P (w.evaluator c).program) (hcoherent : (stateAfter (lowering c x w)).Coherent) :
    (stateAfter (lowering c x w)).WellShaped A P := by
  obtain ⟨evaluators, programs, history, hafter, -, -, hevaluators, hprograms⟩ :=
    lowering_after c x w
  rw [hafter] at hcoherent ⊢
  refine h.grow hcoherent (fun k => Arena.Extends.refl _) (fun k _ hk => hk) (fun p hp => ?_)
    fun d hd => Or.inl ?_
  · change programs.getD p {} = w.program p
    rw [hprograms, if_neg]
    rintro ⟨rfl, -⟩
    exact hP hp
  · change P (evaluators.getD d {}).program at hd
    change (evaluators.getD d {}).program = _ ∧ Context.Settles _ (evaluators.getD d {}).context
    rw [hevaluators] at hd ⊢
    split at hd
    · exact absurd hd hP
    · rename_i hdc
      rw [if_neg hdc]
      exact ⟨rfl, Context.settles_refl _⟩

theorem WellShaped.shapely (h : w.WellShaped A P) (hP : P (w.evaluator c).program) {k : ArenaId}
    (hbound : (w.evaluator c).context.arena = some k) :
    Lowering.Shapely (w.arena k) (w.lowered c) := by
  have hshaped := h.shaped c hP
  rw [arenaOf, hbound] at hshaped
  exact ⟨h.coherent.programs _, h.programs _ hP, hshaped, h.idle c hP⟩

/-- A context that lowers into a uniform program leaves it so. -/
theorem WellShaped.setLowered (h : w.WellShaped A P) (hc : c < w.evaluators.size)
    (hP : P (w.evaluator c).program) {k : ArenaId} {s : Lowering}
    (hcoherent : (w.setLowered c s).Coherent) (hs : Lowering.Shapely (w.arena k) s)
    (hbound : s.context.arena = some k)
    (hgrows : (w.program (w.evaluator c).program).Grows s.program) :
    (w.setLowered c s).WellShaped A P := by
  have hplace := h.coherent.program_lt c hc
  have hevaluator := evaluator_setLowered hc s
  have hprogram := program_setLowered hplace s
  constructor
  case coherent => exact hcoherent
  case arenas => exact h.arenas
  case programs =>
    intro p hp
    rw [hprogram]
    split
    · exact hs.uniform
    · exact h.programs p hp
  case shaped =>
    intro d hd
    by_cases hdc : d = c
    · subst hdc
      simp only [arenaOf, programOf, hevaluator, if_true, hbound, hprogram]
      exact hs.shaped
    · simp only [arenaOf, programOf, hevaluator, if_neg hdc] at hd ⊢
      exact (h.shaped d hd).mono rfl (Arena.Extends.refl _) (grows_setLowered hplace hgrows _).1
  case idle =>
    intro d hd
    by_cases hdc : d = c
    · rw [hevaluator, if_pos hdc]
      exact hs.idle
    · rw [hevaluator, if_neg hdc] at hd ⊢
      exact h.idle d hd

theorem WellShaped.evaluateExpr (h : w.WellShaped A P) (hc : c < w.evaluators.size) {e : Expr}
    (hbound : (w.evaluator c).context.arena = some e.arena)
    (he : P (w.evaluator c).program → A e.arena ∧ 0 ≤ e.index) :
    (stateAfter (Workspace.evaluateExpr c e w)).WellShaped A P := by
  have hcoherent := h.coherent.evaluateExpr hc hbound
  simp only [Workspace.evaluateExpr] at hcoherent ⊢
  split
  · exact h
  rename_i a ha
  rw [ha] at hcoherent
  dsimp only at hcoherent
  obtain rfl := arena_of_of? ha
  by_cases hP : P (w.evaluator c).program
  · obtain ⟨hA, hpos⟩ := he hP
    obtain ⟨i, hi⟩ := Int.eq_ofNat_of_zero_le hpos
    rw [hi] at hcoherent ⊢
    have hs := (h.shapely hP hbound).evaluate_keeps w.strict
      (h.coherent.arenas e.arena) (h.arenas e.arena hA) i
    have hlowers := Lowering.evaluate_lowers w.strict (w.arena e.arena) i (w.lowered c)
    rw [stateAfter_lowering] at hcoherent ⊢
    exact h.setLowered hc hP hcoherent hs (hlowers.bound.trans hbound) hlowers.grows
  · exact h.lowering_elsewhere _ hP hcoherent

/-- Evaluation keeps a workspace well-shaped, whatever its outcome. -/
theorem WellShaped.evaluateOperand (h : w.WellShaped A P) (hc : c < w.evaluators.size)
    {o : Operand} (ho : P (w.evaluator c).program →
      ∀ e, (w.evaluator c).context.Admits o e → A e.arena ∧ 0 ≤ e.index) :
    (stateAfter (Workspace.evaluateOperand c o w)).WellShaped A P := by
  simp only [Workspace.evaluateOperand]
  rcases Context.bind_cases o (w.evaluator c).context with ⟨e, hadmits, -⟩ | ⟨-, err, hbind⟩
  · rw [bind_of_ok (inContext_bind hadmits)]
    refine (h.bind_admitted hadmits).evaluateExpr (by simpa using hc) ?_ ?_
    · rw [evaluator_setContext_self hc]
    · rw [evaluator_setContext_self hc]
      exact fun hP => ho hP e hadmits
  · have hstart := h.bind c o
    have heq := inContext_eq c (Context.bind o) w
    rw [hbind] at heq
    rw [heq] at hstart
    rw [bind_of_error heq]
    exact hstart

/-- A node that is admitted is evaluated, into a buffer of its shape. -/
theorem WellShaped.exists_buffer (h : w.WellShaped A P) (hc : c < w.evaluators.size)
    (hP : P (w.evaluator c).program) {k : ArenaId} (hk : A k) {i : Nat} {n : Node}
    (hn : (w.arena k).node? i = some n)
    (hadmits : (w.evaluator c).context.Admits (.expr ⟨k, i⟩) ⟨k, i⟩) :
    ∃ b w', Workspace.evaluateOperand c (.expr ⟨k, i⟩) w = .ok b w' ∧
      (w'.programOf c).HasShape b n.shape := by
  have hready := (h.bind_admitted hadmits).shapely (c := c) (k := k)
    (by rw [evaluator_setContext_self hc]; exact hP) (by rw [evaluator_setContext_self hc])
  rw [lowered_setContext hc] at hready
  obtain ⟨b, t, hrun, -, hb⟩ :=
    Lowering.Shapely.evaluate (a := w.arena k) w.strict hready
      (h.coherent.arenas k) (h.arenas k hk) hn
  have heq := evaluateOperand_eq hc hadmits (arena_lt_of_node? hn)
  dsimp only at heq hrun
  rw [hrun] at heq
  refine ⟨b, _, heq, ?_⟩
  rw [programOf, evaluator_setLowered hc, if_pos rfl,
    program_setLowered (h.coherent.program_lt c hc), if_pos rfl]
  exact hb

/-! ### Runs -/

/-- What is built by operators stays uniform. -/
theorem Call.Orderly.uniform {call : Call} (h : call.Orderly A P w) {k : ArenaId} (hk : A k)
    (hwk : (w.arena k).Uniform) : ((stateAfter (call.carryOut w)).arena k).Uniform := by
  by_cases hadd : ∃ id kind operands shape name, call = .addNode id kind operands shape name
  · obtain ⟨id, kind, operands, shape, name, rfl⟩ := hadd
    have hid : id ≠ k := fun hid => h (hid ▸ hk)
    rw [Call.carryOut, stateAfter_discard, Workspace.addNode, building_elsewhere hid]
    exact hwk
  · refine (carryOut_arenas (R := Arena.GrowsUniformly) id call ?_ w k).2 hwk
    exact fun id kind operands shape name hcall =>
      absurd ⟨id, kind, operands, shape, name, hcall⟩ hadd

/-- A call that evaluates nothing keeps a workspace well-shaped when it leaves the programs looked
at alone, and each context over them settled or blank. -/
theorem WellShaped.quiet (h : w.WellShaped A P) {call : Call} (hcall : call.Orderly A P w)
    (hnamed : call.Named w = true)
    (hprograms : ∀ p, P p → (stateAfter (call.carryOut w)).program p = w.program p)
    (hcontexts : ∀ c, P ((stateAfter (call.carryOut w)).evaluator c).program →
      (((stateAfter (call.carryOut w)).evaluator c).program = (w.evaluator c).program ∧
        (w.evaluator c).context.Settles ((stateAfter (call.carryOut w)).evaluator c).context) ∨
      ((stateAfter (call.carryOut w)).evaluator c).context.Blank) :
    (stateAfter (call.carryOut w)).WellShaped A P := by
  have hcoherent := h.coherent.after call
  rw [after, if_pos hnamed] at hcoherent
  exact h.grow hcoherent (fun k => (carryOut_extends call w k).1) (fun k hk => hcall.uniform hk)
    hprograms hcontexts

/-- Emitting into a program that is not looked at does not matter. -/
theorem WellShaped.emitting_elsewhere (h : w.WellShaped A P) {call : Call}
    (hcall : call.Orderly A P w) (hnamed : call.Named w = true) {p : ProgramId} (hp : ¬P p)
    {x : Emit Emission} (hemits : stateAfter (call.carryOut w) = stateAfter (emitting p x w)) :
    (stateAfter (call.carryOut w)).WellShaped A P := by
  obtain ⟨programs, history, hafter, -, hprograms⟩ := emitting_after p x w
  rw [hafter] at hemits
  refine h.quiet hcall hnamed (fun q hq => ?_) fun c _ => ?_
  · rw [hemits]
    change programs.getD q {} = w.program q
    rw [hprograms, if_neg]
    rintro ⟨rfl, -⟩
    exact hp hq
  · rw [hemits]
    exact Or.inl ⟨rfl, Context.settles_refl _⟩

/-- What a call does to one context, when nothing else matters. -/
theorem WellShaped.settle (h : w.WellShaped A P) {call : Call} (hcall : call.Orderly A P w)
    (hnamed : call.Named w = true) {d : Context}
    (hprograms : ∀ p, (stateAfter (call.carryOut w)).program p = w.program p)
    (hevaluator : ∀ e, (stateAfter (call.carryOut w)).evaluator e =
      if e = c then { w.evaluator c with context := d } else w.evaluator e)
    (hd : (w.evaluator c).context.Settles d) : (stateAfter (call.carryOut w)).WellShaped A P := by
  refine h.quiet hcall hnamed (fun p _ => hprograms p) fun e _ => Or.inl ?_
  rw [hevaluator]
  split
  · rename_i hec
    subst hec
    exact ⟨rfl, hd⟩
  · exact ⟨rfl, Context.settles_refl _⟩

theorem WellShaped.exit (h : w.WellShaped A P) (hc : c < w.evaluators.size) {id : Int}
    (hnamed : Call.Named w (.exit c id) = true) :
    (stateAfter ((Call.exit c id).carryOut w)).WellShaped A P := by
  have hafter : stateAfter ((Call.exit c id).carryOut w) =
      w.setLowered c ((w.lowered c).exit id) :=
    stateAfter_lowering c (fun s => .ok () (s.exit id)) w
  refine h.settle (c := c) (d := ((w.lowered c).exit id).context) trivial hnamed (fun p => ?_)
    (fun e => ?_) ⟨rfl, fun _ ha => ha, fun hidle n hn => ?_⟩
  · rw [hafter, program_setLowered (h.coherent.program_lt c hc)]
    split
    · rename_i hp
      rw [hp]
      rfl
    · rfl
  · rw [hafter, evaluator_setLowered hc]
  · exact hidle n (Std.HashSet.mem_of_mem_erase hn)

theorem WellShaped.makeId (h : w.WellShaped A P) (hc : c < w.evaluators.size)
    (hnamed : Call.Named w (.makeId c) = true) :
    (stateAfter ((Call.makeId c).carryOut w)).WellShaped A P := by
  have hafter : stateAfter ((Call.makeId c).carryOut w) =
      w.setContext c (w.evaluator c).context.makeId.2 := by
    rw [Call.carryOut, stateAfter_discard]
    exact stateAfter_inContext c _ w
  refine h.settle (c := c) (d := (w.evaluator c).context.makeId.2) trivial hnamed (fun p => ?_)
    (fun e => ?_) ⟨rfl, fun _ ha => ha, fun hidle => hidle⟩
  · rw [hafter]
    rfl
  · rw [hafter, evaluator_setContext hc]

theorem WellShaped.reset (h : w.WellShaped A P) (hnamed : Call.Named w (.reset c) = true) :
    (stateAfter ((Call.reset c).carryOut w)).WellShaped A P := by
  refine h.quiet trivial hnamed (fun p _ => getD_push_default ..) fun d _ => ?_
  have hafter := evaluator_reset c d w
  rw [Call.carryOut, hafter]
  split
  · exact Or.inr (Context.blank_fresh _)
  · exact Or.inl ⟨rfl, Context.settles_refl _⟩

theorem WellShaped.carryOut (h : w.WellShaped A P) {call : Call} (hcall : call.Orderly A P w)
    (hnamed : call.Named w = true) : (stateAfter (call.carryOut w)).WellShaped A P := by
  by_cases hbuilds : call.Builds
  · have hspares := carryOut_spares hbuilds w
    refine h.quiet hcall hnamed (fun p _ => hspares.program p) fun c hc => ?_
    by_cases hsize : c < w.evaluators.size
    · exact Or.inl ⟨hspares.place c hsize, (hspares.context c).settles⟩
    · have hkeeps := hspares.context c
      rw [evaluator_of_size_le (Nat.le_of_not_lt hsize)] at hkeeps
      exact Or.inr ((Context.blank_fresh true).keeps hkeeps)
  · cases call with
    | alloc p shape zero => exact h.emitting_elsewhere hcall hnamed hcall stateAfter_discard
    | emit p op shape source1 source2 =>
      exact h.emitting_elsewhere hcall hnamed hcall stateAfter_discard
    | evaluate c o =>
      rw [Call.carryOut, stateAfter_discard]
      exact h.evaluateOperand (Call.lt_of_named rfl hnamed) hcall
    | enter c id =>
      have hcoherent := h.coherent.after (.enter c id)
      rw [Workspace.after, if_pos hnamed] at hcoherent
      exact h.lowering_elsewhere _ hcall hcoherent
    | exit c id => exact h.exit (Call.lt_of_named rfl hnamed) hnamed
    | makeId c => exact h.makeId (Call.lt_of_named rfl hnamed) hnamed
    | reset c => exact h.reset hnamed
    | _ => exact absurd trivial hbuilds

theorem WellShaped.after (h : w.WellShaped A P) {call : Call} (hcall : call.Orderly A P w) :
    (w.after call).WellShaped A P := by
  simp only [Workspace.after]
  split
  · rename_i hnamed
    exact h.carryOut hcall hnamed
  · exact h

/-- A run of orderly calls keeps a workspace well-shaped. -/
theorem WellShaped.run (h : w.WellShaped A P) {calls : List Call} (hcalls : Orderly A P w calls) :
    (calls.foldl Workspace.after w).WellShaped A P := by
  induction calls generalizing w with
  | nil => exact h
  | cons call calls ih => exact ih (h.after hcalls.1) hcalls.2

/-- What is in another arena than the one that a context is bound to. -/
def Foreign (w : Workspace) (c : ContextId) (k : ArenaId) : Prop :=
  ∃ k', (w.evaluator c).context.arena = some k' ∧ k' ≠ k

/-- After any orderly calls, nodes have the shape of what they reach. A context that is not bound to
another arena evaluates each node, into a buffer of its shape, and all that contexts remember has
the shape of its node. -/
theorem orderly_graphs_evaluate {A : ArenaId → Prop} {P : ProgramId → Prop} {calls : List Call}
    (hcalls : Orderly A P start calls) :
    (∀ k, A k → ∀ i j n, Reaches ((afterAll calls).arena k).operands i j →
      ((afterAll calls).arena k).node? i = some n →
        ∃ m, ((afterAll calls).arena k).node? j = some m ∧ m.shape = n.shape) ∧
    (∀ c < (afterAll calls).evaluators.size, P ((afterAll calls).evaluator c).program →
      ∀ k, A k → ∀ (i : Nat) n, ((afterAll calls).arena k).node? i = some n →
        (∃ b w', evaluateOperand c (.expr ⟨k, i⟩) (afterAll calls) = .ok b w' ∧
          (w'.programOf c).shapeOf b = .ok n.shape) ∨
        ((afterAll calls).Foreign c k ∧ evaluateOperand c (.expr ⟨k, i⟩) (afterAll calls) =
          .error .foreignContext (afterAll calls))) ∧
    (∀ c, P ((afterAll calls).evaluator c).program →
      ∀ (i : Int) b, ((afterAll calls).evaluator c).context.values[i]? = some b →
        ∃ (m : Nat) (n : Node), i = m ∧ ((afterAll calls).arenaOf c).node? m = some n ∧
          ((afterAll calls).programOf c).shapeOf b = .ok n.shape) := by
  have h : (afterAll calls).WellShaped A P := wellShaped_start.run hcalls
  refine ⟨fun k hk i j n hr hn => (h.arenas k hk).shape_of_reaches hr hn, ?_, ?_⟩
  · intro c hc hP k hk i n hn
    have hsome : (∀ a, ((afterAll calls).evaluator c).context.arena = some a → a = k) →
        ∃ b w', evaluateOperand c (.expr ⟨k, i⟩) (afterAll calls) = .ok b w' ∧
          (w'.programOf c).shapeOf b = .ok n.shape := by
      intro hbound
      obtain ⟨b, w', hrun, hb⟩ := h.exists_buffer hc hP hk hn ⟨rfl, hbound⟩
      exact ⟨b, w', hrun, hb.shapeOf⟩
    cases hbound : ((afterAll calls).evaluator c).context.arena with
    | none => exact Or.inl (hsome fun a ha => by rw [hbound] at ha; cases ha)
    | some k' =>
      by_cases hk' : k' = k
      · exact Or.inl (hsome fun a ha => (Option.some.inj (hbound.symm.trans ha)) ▸ hk')
      · exact Or.inr ⟨⟨k', hbound, hk'⟩, evaluateOperand_foreign hbound hk'⟩
  · intro c hP i b hb
    obtain ⟨m, n, him, hn, hshape⟩ := h.shaped c hP i b hb
    exact ⟨m, n, him, hn, hshape.shapeOf⟩

/-- Two contexts over one program, and a parameter with its exponential. -/
def sharedProgram : List Call :=
  [.newContext none true, .newContext (some 0) false, .param 0 (.shape ⟨[3]⟩) none,
    .unary .exp ⟨0, 0⟩]

theorem orderly_graphs_evaluate_shared :
    ∃ b w', evaluateOperand 1 (.expr ⟨0, (1 : Nat)⟩) (afterAll sharedProgram) = .ok b w' ∧
      (w'.programOf 1).shapeOf b = .ok ⟨[3]⟩ := by
  have hcalls : Orderly (fun k => k = 0) (fun p => p = 0) start sharedProgram :=
    ⟨trivial, trivial, trivial, trivial, trivial⟩
  obtain ⟨-, hevaluate, -⟩ := orderly_graphs_evaluate hcalls
  rcases hevaluate 1 (by decide) rfl 0 rfl 1 ⟨.unary .exp 0, ⟨[3]⟩, none⟩ rfl with
    hsome | ⟨⟨k', hbound, -⟩, -⟩
  · exact hsome
  · cases hbound

end Workspace

end TensorGraph
