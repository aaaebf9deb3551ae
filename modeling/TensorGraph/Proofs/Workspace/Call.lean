import TensorGraph.Proofs.Context.Lowering
import TensorGraph.Proofs.Gradient.Growth
import TensorGraph.Proofs.Workspace.Effect
import TensorGraph.Workspace.Differentiating

/-!
# Runs of a workspace

A run makes calls one after the other; a call that fails is followed by the next one like any other.
Calls may be about any arenas, programs and contexts, in any order. Whatever they are, arenas and
programs grow, and a context that is neither new nor reset nor evaluating keeps what it remembers.
-/

namespace TensorGraph

/-- The arena in which an operand stands, if it is an expression. -/
def Operand.arena : Operand → ArenaId
  | .expr e => e.arena
  | .other _ => 0

namespace Workspace

/-- The buffer of an operand in the program of a context. -/
def evaluateOperand (c : ContextId) (o : Operand) : Work Nat := do
  let e ← inContext c (Context.bind o)
  evaluateExpr c e

/-- A backward pass of a context in the arena of the output. -/
def differentiate (c : ContextId) (output : Operand) (seed : Option Operand)
    (wrt : Option (List Operand)) : Work Outcome :=
  differentiating c output.arena (Differentiation.backward output seed wrt)

inductive Call where
  | newArena
  | newProgram
  | newContext (program : Option ProgramId) (requiresGrad : Bool)
  | setStrict (strict : Bool)
  | param (arena : ArenaId) (shape : Value) (name : Option String)
  | zero (arena : ArenaId) (shape : Value)
  | addNode (arena : ArenaId) (kind : Kind) (operands : List Int) (shape : Value)
      (name : Option String)
  | unary (k : Unary) (e : Expr)
  | binary (op : Operator) (l : Expr) (r : Operand)
  | alloc (p : ProgramId) (shape : Value) (zero : Bool)
  | emit (p : ProgramId) (op : Op.Candidate) (shape : Value) (source1 source2 : Int)
  | evaluate (c : ContextId) (o : Operand)
  | backward (c : ContextId) (output : Operand) (seed : Option Operand)
      (wrt : Option (List Operand))
  | enter (c : ContextId) (id : Int)
  | exit (c : ContextId) (id : Int)
  | makeId (c : ContextId)
  | reset (c : ContextId)

namespace Call

/-- The context that a call is about. -/
def context? : Call → Option ContextId
  | evaluate c _ | backward c _ _ _ | enter c _ | exit c _ | makeId c | reset c => some c
  | _ => none

/-- The program over which a call makes a context. -/
def program? : Call → Option ProgramId
  | newContext (some p) _ => some p
  | _ => none

/-- A call names contexts, and programs for contexts, that exist. -/
def Named (w : Workspace) (call : Call) : Bool :=
  call.context?.all (· < w.evaluators.size) && call.program?.all (· < w.programs.size)

def carryOut : Call → Work Unit
  | newArena => discard Workspace.newArena
  | newProgram => discard Workspace.newProgram
  | newContext program requiresGrad => discard (Workspace.newContext program requiresGrad)
  | setStrict strict => Workspace.setStrict strict
  | param arena shape name => discard (Workspace.param (some arena) shape name)
  | zero arena shape => discard (Workspace.zero (some arena) shape)
  | addNode arena kind operands shape name =>
    discard (Workspace.addNode arena kind operands shape name)
  | unary k e => discard (Workspace.unary k e)
  | binary op l r => discard (Workspace.binary op l r)
  | alloc p shape isZero => discard (Workspace.alloc p shape isZero)
  | emit p op shape source1 source2 => discard (Workspace.emit p op shape source1 source2)
  | evaluate c o => discard (evaluateOperand c o)
  | backward c output seed wrt => discard (differentiate c output seed wrt)
  | enter c id => Workspace.enter c id
  | exit c id => Workspace.exit c id
  | makeId c => discard (Workspace.makeId c)
  | reset c => Workspace.reset c

end Call

namespace Call

theorem lt_of_named {w : Workspace} {call : Call} {c : ContextId} (hc : call.context? = some c)
    (h : call.Named w = true) : c < w.evaluators.size := by
  rw [Named, hc, Bool.and_eq_true] at h
  exact of_decide_eq_true h.1

theorem named_of_lt {w : Workspace} {call : Call} {c : ContextId} (hc : call.context? = some c)
    (hp : call.program? = none) (h : c < w.evaluators.size) : call.Named w = true := by
  rw [Named, hc, hp, Bool.and_eq_true]
  exact ⟨decide_eq_true h, rfl⟩

end Call

/-- The workspace after a call, whatever its outcome. -/
def after (w : Workspace) (call : Call) : Workspace :=
  if call.Named w then stateAfter (call.carryOut w) else w

/-- The workspace after calls, from a new one. -/
def afterAll (calls : List Call) : Workspace := calls.foldl after start

/-! ### Growth -/

/-- What relates the arenas before to those after. -/
def ArenasBy (R : Arena → Arena → Prop) (w w' : Workspace) : Prop := ∀ k, R (w.arena k) (w'.arena k)

def ProgramsGrow (w w' : Workspace) : Prop :=
  w.programs.size ≤ w'.programs.size ∧ ∀ p, (w.program p).Grows (w'.program p)

/-- What relates the contexts before to those after; each stays with its program. -/
def ContextsBy (R : Context → Context → Prop) (w w' : Workspace) : Prop :=
  w'.evaluators.size = w.evaluators.size ∧ ∀ c, (w'.evaluator c).program = (w.evaluator c).program ∧
    R (w.evaluator c).context (w'.evaluator c).context

instance (R : Arena → Arena → Prop) [IsPreorder Arena R] : IsPreorder Workspace (ArenasBy R) where
  refl w k := Std.Refl.refl (w.arena k)
  trans _ _ _ huv hvw k := IsTrans.trans _ _ _ (huv k) (hvw k)

instance : IsPreorder Workspace ProgramsGrow where
  refl w := ⟨Nat.le_refl _, fun p => Std.Refl.refl (w.program p)⟩
  trans _ _ _ huv hvw :=
    ⟨Nat.le_trans huv.1 hvw.1, fun p => IsTrans.trans _ _ _ (huv.2 p) (hvw.2 p)⟩

instance (R : Context → Context → Prop) [IsPreorder Context R] :
    IsPreorder Workspace (ContextsBy R) where
  refl w := ⟨rfl, fun c => ⟨rfl, Std.Refl.refl (w.evaluator c).context⟩⟩
  trans _ _ _ huv hvw :=
    ⟨hvw.1.trans huv.1, fun c => ⟨(hvw.2 c).1.trans (huv.2 c).1,
      IsTrans.trans _ _ _ (huv.2 c).2 (hvw.2 c).2⟩⟩

section Actions

variable {α : Type}

theorem arenasBy_of_eq {R : Arena → Arena → Prop} [IsPreorder Arena R] {w w' : Workspace}
    (h : w'.arenas = w.arenas) : w.ArenasBy R w' := by
  intro k
  rw [arena, arena, h]
  exact Std.Refl.refl _

theorem programsGrow_of_eq {w w' : Workspace} (h : w'.programs = w.programs) :
    w.ProgramsGrow w' := by
  refine ⟨Nat.le_of_eq (by rw [h]), fun p => ?_⟩
  rw [program, program, h]
  exact Std.Refl.refl _

theorem contextsBy_of_eq {R : Context → Context → Prop} [IsPreorder Context R] {w w' : Workspace}
    (h : w'.evaluators = w.evaluators) : w.ContextsBy R w' := by
  refine ⟨by rw [h], fun c => ?_⟩
  rw [evaluator, evaluator, h]
  exact ⟨rfl, Std.Refl.refl _⟩

theorem inArena_arenas {R : Arena → Arena → Prop} [IsPreorder Arena R] {x : Build α}
    (h : Keeps R x) (id : ArenaId) : Keeps (ArenasBy R) (inArena id x) := by
  intro w k
  obtain ⟨arenas, hafter, harenas⟩ := inArena_after id x w
  rw [hafter, arena, arena, harenas]
  split
  · rename_i hk
    rw [hk.1]
    exact h (w.arena id)
  · exact Std.Refl.refl _

theorem emitting_programs {x : Emit Emission} (h : Keeps Program.Grows x) (id : ProgramId) :
    Keeps ProgramsGrow (emitting id x) := by
  intro w
  obtain ⟨programs, history, hafter, hsize, hprograms⟩ := emitting_after id x w
  rw [hafter]
  refine ⟨Nat.le_of_eq hsize.symm, fun p => ?_⟩
  rw [program, program, hprograms]
  split
  · rename_i hp
    rw [hp.1]
    exact h (w.program id)
  · exact Std.Refl.refl _

theorem lowering_programs {x : Lower α}
    (h : ∀ s : Lowering, s.program.Grows (stateAfter (x s)).program) (c : ContextId) :
    Keeps ProgramsGrow (lowering c x) := by
  intro w
  obtain ⟨evaluators, programs, history, hafter, -, hsize, -, hprograms⟩ := lowering_after c x w
  rw [hafter]
  refine ⟨Nat.le_of_eq hsize.symm, fun p => ?_⟩
  rw [program, program, hprograms]
  split
  · rename_i hp
    rw [hp.1]
    exact h (w.lowered c)
  · exact Std.Refl.refl _

theorem lowering_contexts {R : Context → Context → Prop} [IsPreorder Context R] {x : Lower α}
    (h : ∀ s : Lowering, R s.context (stateAfter (x s)).context) (c : ContextId) :
    Keeps (ContextsBy R) (lowering c x) := by
  intro w
  obtain ⟨evaluators, programs, history, hafter, hsize, -, hevaluators, -⟩ := lowering_after c x w
  rw [hafter]
  refine ⟨hsize, fun d => ?_⟩
  rw [evaluator, evaluator, hevaluators]
  split
  · rename_i hd
    rw [hd.1]
    exact ⟨rfl, h (w.lowered c)⟩
  · exact ⟨rfl, Std.Refl.refl _⟩

theorem inContext_contexts {R : Context → Context → Prop} [IsPreorder Context R]
    {x : EStateM Error Context α} (h : Keeps R x) (c : ContextId) :
    Keeps (ContextsBy R) (inContext c x) := by
  intro w
  obtain ⟨evaluators, hafter, hsize, hevaluators⟩ := inContext_after c x w
  rw [hafter]
  refine ⟨hsize, fun d => ?_⟩
  rw [evaluator, evaluator, hevaluators]
  split
  · rename_i hd
    rw [hd.1]
    exact ⟨rfl, h (w.evaluator c).context⟩
  · exact ⟨rfl, Std.Refl.refl _⟩

theorem differentiating_contexts {R : Context → Context → Prop} [IsPreorder Context R]
    {x : Differentiate α} (h : ∀ s : Differentiation, R s.context (stateAfter (x s)).context)
    (c : ContextId) (id : ArenaId) : Keeps (ContextsBy R) (differentiating c id x) := by
  intro w
  obtain ⟨evaluators, arenas, hafter, hsize, hevaluators, -⟩ := differentiating_after c id x w
  rw [hafter]
  refine ⟨hsize, fun d => ?_⟩
  rw [evaluator, evaluator, hevaluators]
  split
  · rename_i hd
    rw [hd.1]
    exact ⟨rfl, h (w.differentiation c id)⟩
  · exact ⟨rfl, Std.Refl.refl _⟩

theorem differentiating_arenas {R : Arena → Arena → Prop} [IsPreorder Arena R]
    {x : Differentiate α} (h : ∀ s : Differentiation, R s.arena (stateAfter (x s)).arena)
    (c : ContextId) (id : ArenaId) : Keeps (ArenasBy R) (differentiating c id x) := by
  intro w k
  obtain ⟨evaluators, arenas, hafter, -, -, harenas⟩ := differentiating_after c id x w
  rw [hafter, arena, arena, harenas]
  split
  · rename_i hk
    rw [hk.1]
    exact h (w.differentiation c id)
  · exact Std.Refl.refl _

theorem getD_push_default (xs : Array α) (j : Nat) (d : α) :
    (xs.push d).getD j d = xs.getD j d := by
  rw [getD_push]
  split
  · rename_i hj
    rw [getD_of_size_le (Nat.le_of_eq hj.symm)]
  · rfl

/-- All arenas of a new workspace are empty. -/
theorem arena_start (k : ArenaId) : start.arena k = .empty := by
  change (#[].push Arena.empty).getD k .empty = .empty
  rw [getD_push_default]
  rfl

theorem newArena_arenas {R : Arena → Arena → Prop} [IsPreorder Arena R] :
    Keeps (ArenasBy R) newArena := by
  intro w k
  change R (w.arena k) ((w.arenas.push .empty).getD k .empty)
  rw [getD_push_default]
  exact Std.Refl.refl _

theorem newProgram_programs : Keeps ProgramsGrow newProgram := by
  intro w
  refine ⟨?_, fun p => ?_⟩
  · change w.programs.size ≤ (w.programs.push {}).size
    simp
  · change (w.program p).Grows ((w.programs.push {}).getD p {})
    rw [getD_push_default]
    exact Std.Refl.refl _

end Actions

/-! ### What actions touch -/

section Frames

variable {α : Type} {R : Workspace → Workspace → Prop}

/-- Building touches arenas only. -/
theorem building_frame [IsPreorder Workspace R] (h : ∀ w arenas, R w { w with arenas })
    (k : ArenaId) (x : Build Nat) : Keeps R (Workspace.building k x) := by
  refine Keeps.bind (fun w => ?_) fun i => Keeps.pure _
  obtain ⟨arenas, hafter, -⟩ := inArena_after k x w
  rw [hafter]
  exact h w arenas

/-- Emitting touches programs and the history only. -/
theorem emitting_frame (h : ∀ w programs history, R w { w with programs, history })
    (p : ProgramId) (x : Emit Emission) : Keeps R (emitting p x) := by
  intro w
  obtain ⟨programs, history, hafter, -⟩ := emitting_after p x w
  rw [hafter]
  exact h w programs history

/-- Asking a context touches contexts only. -/
theorem inContext_frame (h : ∀ w evaluators, R w { w with evaluators }) (c : ContextId)
    (x : EStateM Error Context α) : Keeps R (inContext c x) := by
  intro w
  obtain ⟨evaluators, hafter, -⟩ := inContext_after c x w
  rw [hafter]
  exact h w evaluators

/-- Lowering touches no arena. -/
theorem lowering_frame
    (h : ∀ w evaluators programs history, R w { w with evaluators, programs, history })
    (c : ContextId) (x : Lower α) : Keeps R (lowering c x) := by
  intro w
  obtain ⟨evaluators, programs, history, hafter, -⟩ := lowering_after c x w
  rw [hafter]
  exact h w evaluators programs history

end Frames

/-- Building in one arena leaves the others alone. -/
theorem building_elsewhere {id k : ArenaId} (h : id ≠ k) (x : Build Nat) (w : Workspace) :
    (stateAfter (Workspace.building id x w)).arena k = w.arena k := by
  obtain ⟨arenas, hafter, harenas⟩ := inArena_after id x w
  have hsame : (stateAfter (inArena id x w)).arena k = w.arena k := by
    rw [hafter, arena, harenas, if_neg fun hk => h hk.1.symm]
  simp only [Workspace.building]
  cases hx : inArena id x w with
  | ok i w' =>
    rw [hx] at hsame
    rw [bind_of_ok hx]
    exact hsame
  | error e w' =>
    rw [hx] at hsame
    rw [bind_of_error hx]
    exact hsame

theorem evaluator_reset (c d : ContextId) (w : Workspace) :
    (stateAfter (reset c w)).evaluator d =
      if d = c ∧ c < w.evaluators.size then
        ⟨(w.evaluator c).context.reset, w.programs.size, {}⟩
      else w.evaluator d := getD_modify ..

theorem rightOperand_keeps {R : Workspace → Workspace → Prop} [IsPreorder Workspace R] (e : Expr)
    (o : Operand) : Keeps R (rightOperand e o) := by
  simp only [rightOperand]
  split
  · exact Keeps.throw _
  · split
    · exact Keeps.pure _
    · exact Keeps.throw _

/-- The arenas of a workspace grow as building makes them grow. -/
theorem carryOut_arenas {R : Arena → Arena → Prop} [IsPreorder Arena R]
    (hR : ∀ {a b : Arena}, a.GrowsUniformly b → R a b) (call : Call)
    (hadd : ∀ k kind operands shape name, call = .addNode k kind operands shape name →
      Keeps R (Arena.add kind operands shape name)) :
    Keeps (ArenasBy R) call.carryOut := by
  have hbuild : ∀ (k : ArenaId) {x : Build Nat}, Keeps Arena.GrowsUniformly x →
      Keeps (ArenasBy R) (Workspace.building k x) := by
    intro k x hx
    refine Keeps.bind (inArena_arenas (fun a => hR (hx a)) k) fun i => Keeps.pure _
  have hcontext : ∀ {α : Type} (c : ContextId) (x : EStateM Error Context α),
      Keeps (ArenasBy R) (inContext c x) := inContext_frame fun w _ => arenasBy_of_eq rfl
  have hlower : ∀ {α : Type} (c : ContextId) (x : Lower α), Keeps (ArenasBy R) (lowering c x) :=
    lowering_frame fun w _ _ _ => arenasBy_of_eq rfl
  have hemit : ∀ (p : ProgramId) (x : Emit Emission), Keeps (ArenasBy R) (emitting p x) :=
    emitting_frame fun w _ _ => arenasBy_of_eq rfl
  cases call with
  | newArena => exact Keeps.discard newArena_arenas
  | newProgram => exact fun w => arenasBy_of_eq rfl
  | newContext program requiresGrad =>
    cases program with
    | some p => exact fun w => arenasBy_of_eq rfl
    | none => exact fun w => arenasBy_of_eq rfl
  | setStrict strict => exact fun w => arenasBy_of_eq rfl
  | param k shape name =>
    exact Keeps.discard fun w => hbuild k (Arena.leaf_keeps .param shape name) w
  | zero k shape => exact Keeps.discard fun w => hbuild k (Arena.leaf_keeps .zero shape none) w
  | addNode k kind operands shape name =>
    refine Keeps.discard (Keeps.bind ?_ fun i => Keeps.pure _)
    exact inArena_arenas (hadd k kind operands shape name rfl) k
  | unary k e => exact Keeps.discard (hbuild e.arena (Arena.unary_keeps k e.index))
  | binary op l r =>
    refine Keeps.discard (Keeps.bind (rightOperand_keeps l r) fun e => hbuild l.arena ?_)
    cases op with
    | add => exact Arena.binary_keeps .add _ _
    | sub => exact Arena.sub_keeps _ _
    | mul => exact Arena.binary_keeps .mul _ _
    | div => exact Arena.div_keeps _ _
  | alloc p shape isZero => exact Keeps.discard (hemit p _)
  | emit p op shape source1 source2 => exact Keeps.discard fun w => hemit p _ w
  | evaluate c o =>
    refine Keeps.discard (Keeps.bind (hcontext c _) fun e w => ?_)
    simp only [evaluateExpr]
    split
    · exact Std.Refl.refl w
    · exact hlower c _ w
  | backward c output seed wrt =>
    refine Keeps.discard (differentiating_arenas (fun s => hR ?_) c output.arena)
    exact (Differentiation.backward_keeps output seed wrt s).1
  | enter c id => exact hlower c _
  | exit c id => exact hlower c fun s => .ok () (s.exit id)
  | makeId c => exact Keeps.discard (hcontext c _)
  | reset c => exact Keeps.bind (fun w => arenasBy_of_eq rfl) fun p w => arenasBy_of_eq rfl

/-- Arenas grow, whatever the call. -/
theorem carryOut_extends (call : Call) : Keeps (ArenasBy Arena.Grows) call.carryOut :=
  carryOut_arenas And.left call fun _ kind operands shape name _ =>
    Arena.add_keeps kind operands shape name

theorem after_grows (call : Call) (w : Workspace) : w.ArenasBy Arena.Grows (w.after call) := by
  simp only [after]
  split
  · exact carryOut_extends call w
  · exact Std.Refl.refl w

/-- Programs grow, whatever the call. -/
theorem carryOut_programs (call : Call) : Keeps ProgramsGrow call.carryOut := by
  have hbuild : ∀ (k : ArenaId) (x : Build Nat), Keeps ProgramsGrow (Workspace.building k x) :=
    building_frame fun w _ => programsGrow_of_eq rfl
  have hcontext : ∀ {α : Type} (c : ContextId) (x : EStateM Error Context α),
      Keeps ProgramsGrow (inContext c x) := inContext_frame fun w _ => programsGrow_of_eq rfl
  cases call with
  | newArena => exact fun w => programsGrow_of_eq rfl
  | newProgram => exact Keeps.discard newProgram_programs
  | newContext program requiresGrad =>
    cases program with
    | some p => exact fun w => programsGrow_of_eq rfl
    | none => exact fun w => newProgram_programs w
  | setStrict strict => exact fun w => programsGrow_of_eq rfl
  | param k shape name => exact Keeps.discard fun w => hbuild k _ w
  | zero k shape => exact Keeps.discard fun w => hbuild k _ w
  | addNode k kind operands shape name => exact Keeps.discard (hbuild k _)
  | unary k e => exact Keeps.discard (hbuild e.arena _)
  | binary op l r =>
    exact Keeps.discard (Keeps.bind (rightOperand_keeps l r) fun e => hbuild l.arena _)
  | alloc p shape isZero => exact Keeps.discard (emitting_programs (Program.alloc_keeps _ _) p)
  | emit p op shape source1 source2 =>
    exact Keeps.discard fun w => emitting_programs (Program.emit_keeps _ w.strict _ _ _ _) p w
  | evaluate c o =>
    refine Keeps.discard (Keeps.bind (hcontext c _) fun e w => ?_)
    simp only [evaluateExpr]
    split
    · exact Std.Refl.refl w
    · rename_i a _
      exact lowering_programs (fun s => (Lowering.evaluate_lowers w.strict a e.index s).grows) c w
  | backward c output seed wrt =>
    refine Keeps.discard fun w => ?_
    obtain ⟨_, _, hafter, _⟩ := differentiating_after c output.arena
      (Differentiation.backward output seed wrt) w
    exact programsGrow_of_eq (by rw [differentiate, hafter])
  | enter c id => exact lowering_programs (fun s => (Lowering.enter_keeps id s).grows) c
  | exit c id =>
    exact lowering_programs (x := fun s => .ok () (s.exit id))
      (fun s => (Lowering.exit_emits id s).grows) c
  | makeId c => exact Keeps.discard (hcontext c _)
  | reset c => exact Keeps.bind newProgram_programs fun p w => programsGrow_of_eq rfl

/-- Calls that neither make nor reset a context leave its memory alone, unless they evaluate or
differentiate. -/
theorem carryOut_contexts {R : Context → Context → Prop} [IsPreorder Context R]
    (hR : ∀ {c d : Context}, d.values = c.values → d.arena = c.arena → d.grads = c.grads → R c d)
    (call : Call) (hnew : ∀ p requiresGrad, call ≠ .newContext p requiresGrad)
    (hreset : ∀ c, call ≠ .reset c)
    (hevaluate : ∀ c o, call = .evaluate c o → Keeps (ContextsBy R) (evaluateOperand c o))
    (hbackward : ∀ c output seed wrt, call = .backward c output seed wrt →
      Keeps (ContextsBy R) (differentiate c output seed wrt)) :
    Keeps (ContextsBy R) call.carryOut := by
  have hbuild : ∀ (k : ArenaId) (x : Build Nat), Keeps (ContextsBy R) (Workspace.building k x) :=
    building_frame fun w _ => contextsBy_of_eq rfl
  have hemit : ∀ (p : ProgramId) (x : Emit Emission), Keeps (ContextsBy R) (emitting p x) :=
    emitting_frame fun w _ _ => contextsBy_of_eq rfl
  have hlower : ∀ {α : Type} (c : ContextId) {x : Lower α}, Keeps Lowering.Emits x →
      Keeps (ContextsBy R) (lowering c x) := by
    intro α c x hx
    exact lowering_contexts (fun s => hR (hx s).values (hx s).bound (hx s).grads) c
  cases call with
  | newArena => exact fun w => contextsBy_of_eq rfl
  | newProgram => exact fun w => contextsBy_of_eq rfl
  | newContext program requiresGrad => exact absurd rfl (hnew program requiresGrad)
  | setStrict strict => exact fun w => contextsBy_of_eq rfl
  | param k shape name => exact Keeps.discard fun w => hbuild k _ w
  | zero k shape => exact Keeps.discard fun w => hbuild k _ w
  | addNode k kind operands shape name => exact Keeps.discard (hbuild k _)
  | unary k e => exact Keeps.discard (hbuild e.arena _)
  | binary op l r =>
    exact Keeps.discard (Keeps.bind (rightOperand_keeps l r) fun e => hbuild l.arena _)
  | alloc p shape isZero => exact Keeps.discard (hemit p _)
  | emit p op shape source1 source2 => exact Keeps.discard fun w => hemit p _ w
  | evaluate c o => exact Keeps.discard (hevaluate c o rfl)
  | backward c output seed wrt => exact Keeps.discard (hbackward c output seed wrt rfl)
  | enter c id => exact hlower c (Lowering.enter_keeps id)
  | exit c id => exact hlower c (x := fun s => .ok () (s.exit id)) (Lowering.exit_emits id)
  | makeId c => exact Keeps.discard (inContext_contexts (R := R) (fun context => hR rfl rfl rfl) c)
  | reset c => exact absurd rfl (hreset c)

end Workspace

end TensorGraph
