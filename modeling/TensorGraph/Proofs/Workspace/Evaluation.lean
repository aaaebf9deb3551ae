import TensorGraph.Proofs.Workspace.Call

/-!
# Evaluation in any order of calls

However contexts share programs, and whatever else grows arenas and programs in between, also where
calls fail half-way: a context stays faithful to the arena that it is bound to and to its program.
So running a program evaluates what its contexts remember, and buffers number the trees of nodes.
-/

namespace TensorGraph

/-- Nodes have one buffer exactly when they stand for one tree. -/
def Context.NumbersTrees (c : Context) (a : Arena) : Prop :=
  ∀ i j b d, c.buffer? i = some b → c.buffer? j = some d → (b = d ↔ a.tree i = a.tree j)

/-- A memory has in the buffers of nodes the values of their trees, where each leaf node stands for
what is in its buffer. -/
def Context.Computes {α : Type} (c : Context) (a : Arena) (I : Interpretation α) (leaf : Nat → α)
    (m : Program.Memory α) : Prop :=
  ∀ ρ : Nat → α,
    (∀ j n k d, a.node? j = some n → n.form = .leaf k → c.buffer? j = some d → ρ j = leaf d) →
    ∀ i b, c.buffer? i = some b → m b = some ((a.tree i).value I ρ)

namespace Workspace

/-- The arena that a context is bound to, if any. -/
def arenaOf (w : Workspace) (c : ContextId) : Arena :=
  ((w.evaluator c).context.arena.map w.arena).getD .empty

/-- The program that a context evaluates into. -/
def programOf (w : Workspace) (c : ContextId) : Program := w.program (w.evaluator c).program

structure Coherent (w : Workspace) : Prop where
  arenas : ∀ k, (w.arena k).WellFormed
  programs : ∀ p, (w.program p).Sound
  program_lt : ∀ c < w.evaluators.size, (w.evaluator c).program < w.programs.size
  contexts : ∀ c, (w.evaluator c).context.Faithful (w.arenaOf c) (w.programOf c)

theorem Coherent.arenaOf_wellFormed {w : Workspace} (h : w.Coherent) (c : ContextId) :
    (w.arenaOf c).WellFormed := by
  simp only [arenaOf]
  cases (w.evaluator c).context.arena with
  | none => exact Arena.wellFormed_empty
  | some k => exact h.arenas k

theorem buffer?_fresh (requiresGrad : Bool) (i : Nat) :
    (Context.fresh requiresGrad).buffer? i = none := by
  simp [Context.buffer?, Context.fresh]

theorem coherent_start : start.Coherent where
  arenas k := arena_start k ▸ Arena.wellFormed_empty
  programs _ := Program.sound_empty
  program_lt c hc := absurd hc (Nat.not_lt_zero c)
  contexts _ := Context.Faithful.of_empty _ _ (buffer?_fresh true)

end Workspace

/-- A context that is bound or stays bound remembers what it did. -/
theorem Context.Faithful.rebinds {c d : Context} {w w' : Workspace} {p q : Program}
    (h : c.Faithful ((c.arena.map w.arena).getD .empty) p) (hcd : c.Rebinds d)
    (harenas : w.ArenasBy Arena.Grows w') (hpq : p.Extends q) :
    d.Faithful ((d.arena.map w'.arena).getD .empty) q := by
  cases hc : c.arena with
  | some k =>
    rw [hc] at h
    rw [hcd.2 k hc]
    exact h.mono hcd.1 (harenas k).1 hpq
  | none =>
    -- nothing is remembered as long as there is no arena
    rw [hc] at h
    apply Context.Faithful.of_empty _ _
    intro i
    simp only [buffer?, hcd.1]
    cases hi : c.values[(i : Int)]? with
    | none => rfl
    | some b =>
      obtain ⟨n, hn, _⟩ := h.holds i b hi
      simp [Arena.empty, Arena.node?] at hn

namespace Workspace

/-- Growth keeps a workspace coherent as long as contexts only get bound. -/
theorem Coherent.grow {w w' : Workspace} (h : w.Coherent) (harenas : w.ArenasBy Arena.Grows w')
    (hprograms : w.ProgramsGrow w') (hcontexts : w.ContextsBy Context.Rebinds w') :
    w'.Coherent where
  arenas k := (harenas k).2 (h.arenas k)
  programs p := (hprograms.2 p).2 (h.programs p)
  program_lt c hc := by
    rw [(hcontexts.2 c).1]
    exact Nat.lt_of_lt_of_le (h.program_lt c (hcontexts.1 ▸ hc)) hprograms.1
  contexts c := by
    obtain ⟨hprogram, hrebinds⟩ := hcontexts.2 c
    rw [programOf, hprogram]
    exact (h.contexts c).rebinds hrebinds harenas (hprograms.2 _).1

theorem arena_of_of? {w : Workspace} {e : Expr} {a : Arena} (h : w.arenas.of? e = some a) :
    w.arena e.arena = a := by
  rw [arena, Array.getD_eq_getD_getElem?]
  change w.arenas[e.arena]? = some a at h
  rw [h, Option.getD_some]

/-- A context gets bound to what it admits. -/
theorem inContext_bind {w : Workspace} {c : ContextId} {o : Operand} {e : Expr}
    (hadmits : (w.evaluator c).context.Admits o e) :
    inContext c (Context.bind o) w =
      .ok e (w.setContext c { (w.evaluator c).context with arena := some e.arena }) := by
  rcases Context.bind_cases o (w.evaluator c).context with ⟨e', ⟨rfl, -⟩, hbind⟩ | ⟨hnot, -⟩
  · cases hadmits.1
    rw [inContext_eq, hbind]
  · exact absurd hadmits (hnot e)

/-- A context evaluates what it admits, once it is bound to it. -/
theorem evaluateOperand_eq {w : Workspace} {c : ContextId} (hc : c < w.evaluators.size) {e : Expr}
    (hadmits : (w.evaluator c).context.Admits (.expr e) e) (he : e.arena < w.arenas.size) :
    evaluateOperand c (.expr e) w =
      match Lowering.evaluate w.strict (w.arena e.arena) e.index
        { w.lowered c with context := { (w.evaluator c).context with arena := some e.arena } } with
      | .ok b s => .ok b (w.setLowered c s)
      | .error err s => .error err (w.setLowered c s) := by
  rw [evaluateOperand, bind_of_ok (inContext_bind hadmits), evaluateExpr]
  have hof : (w.setContext c { (w.evaluator c).context with arena := some e.arena }).arenas.of? e =
      some (w.arena e.arena) := by
    rw [Arenas.of?, setContext, setEvaluator, arena, Array.getD_eq_getD_getElem?,
      Array.getElem?_eq_getElem he, Option.getD_some]
  rw [hof]
  dsimp only
  rw [lowering_eq, lowered_setContext hc]
  simp only [setLowered_setContext]
  simp only [setContext, setEvaluator]
  cases Lowering.evaluate w.strict (w.arena e.arena) e.index
    { w.lowered c with context := { (w.evaluator c).context with arena := some e.arena } } with
  | ok b s => rfl
  | error err s => rfl

/-- A context refuses what is in another arena than the one that it is bound to. -/
theorem evaluateOperand_foreign {w : Workspace} {c : ContextId} {e : Expr} {k : ArenaId}
    (hbound : (w.evaluator c).context.arena = some k) (hk : k ≠ e.arena) :
    evaluateOperand c (.expr e) w = .error .foreignContext w := by
  have hbind : Context.bind (.expr e) (w.evaluator c).context =
      .error .foreignContext (w.evaluator c).context := by
    simp only [Context.bind, hbound, if_neg hk]
  have hfirst := inContext_eq c (Context.bind (.expr e)) w
  rw [hbind] at hfirst
  rw [evaluateOperand, bind_of_error hfirst]
  simp only [setContext_self]

/-- What a context evaluated it admits, and evaluated where the workspace said. -/
theorem evaluateOperand_ok {w w' : Workspace} {c : ContextId} (hc : c < w.evaluators.size)
    {e : Expr} {b : Nat} (h : evaluateOperand c (.expr e) w = .ok b w') :
    (w.evaluator c).context.Admits (.expr e) e ∧ ∃ s,
      Lowering.evaluate w.strict (w.arena e.arena) e.index
        { w.lowered c with context := { (w.evaluator c).context with arena := some e.arena } } =
          .ok b s ∧ w' = w.setLowered c s := by
  obtain ⟨e', w₁, hbind, hexpr⟩ := exists_of_bind_ok h
  obtain ⟨he, -⟩ := Context.bind_ok (inContext_ok hc hbind)
  cases he
  have hadmits : (w.evaluator c).context.Admits (.expr e) e := by
    refine ⟨rfl, fun k hk => ?_⟩
    by_cases hne : k = e.arena
    · exact hne
    · have hforeign := evaluateOperand_foreign hk hne
      rw [hforeign] at h
      cases h
  have hsize : e.arena < w.arenas.size := by
    refine Nat.lt_of_not_le fun hle => ?_
    rw [inContext_bind hadmits] at hbind
    cases hbind
    have hnone : (w.setContext c { (w.evaluator c).context with
        arena := some e.arena }).arenas.of? e = none := Array.getElem?_eq_none hle
    rw [evaluateExpr, hnone] at hexpr
    cases hexpr
  rw [evaluateOperand_eq hc hadmits hsize] at h
  refine ⟨hadmits, ?_⟩
  split at h
  · rename_i hrun
    cases h
    exact ⟨_, hrun, rfl⟩
  · cases h

/-- Lowering grows programs. -/
theorem grows_setLowered {w : Workspace} {c : ContextId} {s : Lowering}
    (hplace : (w.evaluator c).program < w.programs.size)
    (h : (w.program (w.evaluator c).program).Grows s.program) (p : ProgramId) :
    (w.program p).Grows ((w.setLowered c s).program p) := by
  rw [program_setLowered hplace]
  split
  · rename_i hp
    exact hp ▸ h
  · exact Std.Refl.refl _

/-- A context may lower when it remembers right what it lowered. -/
theorem Coherent.setLowered {w : Workspace} (h : w.Coherent) {c : ContextId}
    (hc : c < w.evaluators.size) {s : Lowering}
    (hgrows : (w.program (w.evaluator c).program).Grows s.program)
    (hs : s.context.Faithful ((s.context.arena.map w.arena).getD .empty) s.program) :
    (w.setLowered c s).Coherent := by
  have hplace := h.program_lt c hc
  have hevaluator := evaluator_setLowered hc s
  have hprograms := grows_setLowered hplace hgrows
  constructor
  case arenas => exact h.arenas
  case programs => exact fun p => (hprograms p).2 (h.programs p)
  case program_lt =>
    intro d hd
    have hd' : d < w.evaluators.size := by simpa [Workspace.setLowered] using hd
    have hsize : (w.setLowered c s).programs.size = w.programs.size := Array.size_setIfInBounds ..
    rw [hevaluator, hsize]
    split
    · exact hplace
    · exact h.program_lt d hd'
  case contexts =>
    intro d
    by_cases hdc : d = c
    · subst hdc
      simp only [arenaOf, programOf, hevaluator, if_true, program_setLowered hplace]
      exact hs
    · simp only [arenaOf, programOf, hevaluator, if_neg hdc]
      exact (h.contexts d).mono rfl (Arena.Extends.refl _) (hprograms _).1

/-- A context that is bound to the arena of an expression evaluates it. -/
theorem Coherent.evaluateExpr {w : Workspace} (h : w.Coherent) {c : ContextId}
    (hc : c < w.evaluators.size) {e : Expr}
    (hbound : (w.evaluator c).context.arena = some e.arena) :
    (stateAfter (Workspace.evaluateExpr c e w)).Coherent := by
  simp only [Workspace.evaluateExpr]
  split
  · exact h
  rename_i a ha
  have harena : (((w.evaluator c).context.arena.map w.arena).getD .empty) = a := by
    rw [hbound, Option.map_some, Option.getD_some, arena_of_of? ha]
  have hready : (w.lowered c).Ready a := ⟨h.programs _, harena ▸ h.contexts c⟩
  have hwell : a.WellFormed := arena_of_of? ha ▸ h.arenas e.arena
  have hdone := Lowering.evaluate_keeps w.strict hwell e.index (w.lowered c) hready
  have hlowers := Lowering.evaluate_lowers w.strict a e.index (w.lowered c)
  rw [stateAfter_lowering]
  refine h.setLowered hc hlowers.grows ?_
  rw [hlowers.bound]
  change Context.Faithful _ (((w.evaluator c).context.arena.map w.arena).getD .empty) _
  rw [harena]
  exact hdone.2

theorem Coherent.bind {w : Workspace} (h : w.Coherent) (c : ContextId) (o : Operand) :
    (stateAfter (inContext c (Context.bind o) w)).Coherent := by
  obtain ⟨evaluators, hafter, _⟩ := inContext_after c (Context.bind o) w
  refine h.grow (arenasBy_of_eq (by rw [hafter])) (programsGrow_of_eq (by rw [hafter])) ?_
  exact inContext_contexts (Context.bind_keeps o) c w

theorem Coherent.evaluateOperand {w : Workspace} (h : w.Coherent) {c : ContextId}
    (hc : c < w.evaluators.size) (o : Operand) :
    (stateAfter (Workspace.evaluateOperand c o w)).Coherent := by
  have hbind := h.bind c o
  simp only [Workspace.evaluateOperand]
  cases hx : inContext c (Context.bind o) w with
  | error err w' =>
    rw [hx] at hbind
    rw [bind_of_error hx]
    exact hbind
  | ok e w' =>
    have hsize : w'.evaluators.size = w.evaluators.size :=
      ((inContext_contexts (Context.bind_keeps o) c).of_ok hx).1
    obtain ⟨-, hbound⟩ := Context.bind_ok (inContext_ok hc hx)
    rw [hx] at hbind
    rw [bind_of_ok hx]
    exact hbind.evaluateExpr (hsize ▸ hc) hbound

/-- Contexts may be added or replaced by ones that remember nothing. -/
theorem Coherent.withEvaluators {w : Workspace} (h : w.Coherent) {evaluators : Array Evaluator}
    (hprogram : ∀ c < evaluators.size, (evaluators.getD c {}).program < w.programs.size)
    (hcontext : ∀ c, evaluators.getD c {} = w.evaluator c ∨
      ∀ i, (evaluators.getD c {}).context.buffer? i = none) :
    Coherent { w with evaluators } := by
  refine ⟨h.arenas, h.programs, hprogram, fun c => ?_⟩
  rcases hcontext c with hsame | hnone
  · have hc := h.contexts c
    rw [arenaOf, programOf, ← hsame] at hc
    exact hc
  · exact Context.Faithful.of_empty _ _ hnone

theorem coherent_newProgram {w : Workspace} (h : w.Coherent) :
    Coherent { w with programs := w.programs.push {} } :=
  h.grow (arenasBy_of_eq rfl) (newProgram_programs w) (contextsBy_of_eq rfl)

/-- A context over a program that exists remembers nothing. -/
theorem Coherent.pushContext {w : Workspace} (h : w.Coherent) (requiresGrad : Bool) {p : ProgramId}
    (hp : p < w.programs.size) :
    Coherent { w with
      evaluators := w.evaluators.push { context := .fresh requiresGrad, program := p } } := by
  refine h.withEvaluators (fun c hc => ?_) fun c => ?_
  · rw [getD_push]
    split
    · exact hp
    · rename_i hne
      rw [Array.size_push] at hc
      exact h.program_lt c (by omega)
  · rw [getD_push]
    split
    · exact Or.inr (buffer?_fresh requiresGrad)
    · exact Or.inl rfl

theorem Coherent.newContext {w : Workspace} (h : w.Coherent) (program : Option ProgramId)
    (requiresGrad : Bool) (hp : program.all (· < w.programs.size) = true) :
    (stateAfter (Workspace.newContext program requiresGrad w)).Coherent := by
  cases program with
  | some p => exact h.pushContext requiresGrad (by simpa using hp)
  | none =>
    refine (coherent_newProgram h).pushContext requiresGrad ?_
    change w.programs.size < (w.programs.push {}).size
    simp

theorem Coherent.reset {w : Workspace} (h : w.Coherent) (c : ContextId) :
    (stateAfter (Workspace.reset c w)).Coherent := by
  have hold := coherent_newProgram h
  refine hold.withEvaluators (fun d hd => ?_) fun d => ?_
  · rw [getD_modify]
    split
    · change w.programs.size < (w.programs.push {}).size
      simp
    · exact hold.program_lt d (by simpa using hd)
  · rw [getD_modify]
    split
    · exact Or.inr (buffer?_fresh _)
    · exact Or.inl rfl

/-! ### Runs -/

theorem Coherent.after {w : Workspace} (h : w.Coherent) (call : Call) :
    (w.after call).Coherent := by
  simp only [Workspace.after]
  split
  · rename_i hnamed
    have hquiet : (∀ p requiresGrad, call ≠ .newContext p requiresGrad) →
        (∀ c, call ≠ .reset c) → (∀ c o, call ≠ .evaluate c o) →
        (stateAfter (call.carryOut w)).Coherent := by
      intro hnew hreset hevaluate
      refine h.grow (carryOut_extends call w) (carryOut_programs call w) ?_
      refine carryOut_contexts ?_ call hnew hreset ?_ ?_ w
      · exact fun hvalues hbound _ => ⟨hvalues, fun k hk => hbound.trans hk⟩
      · exact fun c o hcall => absurd hcall (hevaluate c o)
      · intro c output seed wrt _
        refine differentiating_contexts (fun s => ?_) c output.arena
        exact (Differentiation.backward_keeps output seed wrt s).2
    cases call with
    | newContext program requiresGrad =>
      rw [Call.carryOut, stateAfter_discard]
      refine h.newContext program requiresGrad ?_
      cases program with
      | none => rfl
      | some p => simpa [Call.Named, Call.context?, Call.program?] using hnamed
    | reset c => exact h.reset c
    | evaluate c o =>
      rw [Call.carryOut, stateAfter_discard]
      exact h.evaluateOperand (Call.lt_of_named rfl hnamed) o
    | _ => exact hquiet (by simp) (by simp) (by simp)
  · exact h

/-- Every run leaves a coherent workspace. -/
theorem afterAll_coherent (calls : List Call) : (afterAll calls).Coherent := by
  have hall : ∀ {w : Workspace}, w.Coherent → (calls.foldl Workspace.after w).Coherent := by
    induction calls with
    | nil => exact id
    | cons call calls ih => exact fun h => ih (h.after call)
  exact hall coherent_start

/-- After any calls, the schedule of each program is carried out without reading a buffer that has
no value, and what it leaves in the buffers of evaluated nodes is the value of their trees. -/
theorem schedule_computes_values (calls : List Call) (p : ProgramId) {α : Type}
    (I : Program.Semantics α) (leaf : Nat → α) :
    ∃ m, ((afterAll calls).program p).run? I leaf = some m ∧
      ∀ c, ((afterAll calls).evaluator c).program = p →
        ((afterAll calls).evaluator c).context.Computes ((afterAll calls).arenaOf c)
          I.interpretation leaf m := by
  have h := afterAll_coherent calls
  obtain ⟨m, hrun, hm⟩ := (h.programs p).exists_run I leaf
  refine ⟨m, hrun, fun c hc ρ hρ i b hb => ?_⟩
  have hfaithful := h.contexts c
  rw [programOf, hc] at hfaithful
  refine hfaithful.value (h.arenaOf_wellFormed c) hm (fun j d s z hj hcell => ?_) i b hb
  obtain ⟨n, hn, hholds⟩ := hfaithful.holds j d hj
  obtain ⟨k, hk⟩ := hholds.form_of_leaf hcell
  rw [hm.leaves d s z hcell, hρ j n k d hn hk hj]

/-- After any calls, the buffers that a context remembers number the trees of nodes. -/
theorem buffers_number_trees (calls : List Call) (c : ContextId) :
    ((afterAll calls).evaluator c).context.NumbersTrees ((afterAll calls).arenaOf c) := by
  have h := afterAll_coherent calls
  have hwell := h.arenaOf_wellFormed c
  intro i j b d hi hj
  constructor
  · rintro rfl
    exact (h.contexts c).tree_eq hwell i j b hi hj
  · exact (h.contexts c).buffer_eq hwell (h.programs _) i j b d hi hj

end Workspace

end TensorGraph
