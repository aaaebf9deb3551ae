import TensorGraph.Proofs.Context.Once
import TensorGraph.Proofs.Workspace.Shaped

/-!
# Sessions of one context

A session of a new context over a program of its own evaluates nodes of one arena, which may grow in
between. Whatever the roots and their order, each node that they reach is evaluated once, operands
first; entering and leaving, the ids, and what the program counts show nothing else.
-/

namespace TensorGraph.Workspace

/-- From a workspace, a context evaluates nodes of an arena, each time with success, in between
calls that lower nothing and may fail. -/
inductive Session (c : ContextId) (k : ArenaId) (start : Workspace) : List Nat → Workspace → Prop
  | nil : Session c k start [] start
  | build {roots : List Nat} {w : Workspace} (before : Session c k start roots w) (call : Call)
      (builds : call.Builds) : Session c k start roots (w.after call)
  | evaluate {roots : List Nat} {w w' : Workspace} (before : Session c k start roots w)
      (root b : Nat) (run : evaluateOperand c (.expr ⟨k, root⟩) w = .ok b w') :
      Session c k start (root :: roots) w'

/-- What a session has done: the nodes that the roots reach were evaluated in some order. -/
structure EvaluatedOnce (c : ContextId) (k : ArenaId) (start : Workspace) (roots : List Nat)
    (w : Workspace) (order : List Nat) : Prop where
  nodup : order.Nodup
  mem_iff : ∀ i, i ∈ order ↔ ∃ r ∈ roots, Reaches (w.arena k).operands r i
  /-- The ids count the nodes in order. -/
  ids : order.map (fun i : Nat => (w.evaluator c).context.evalId i) = List.range' 1 order.length
  operand_lt : ∀ i ∈ order, ∀ x ∈ (w.arena k).operands i,
    (w.evaluator c).context.evalId x < (w.evaluator c).context.evalId i
  trace : Lowering.observed w.history =
    Lowering.observed start.history ++ Lowering.visits order.length
  leaves : (w.programOf c).leafCount = order.countP (w.arena k).isLeaf
  operators : (w.programOf c).instructionCount + (w.programOf c).hits =
    order.countP fun i => !(w.arena k).isLeaf i
  /-- Evaluating a node again changes nothing. -/
  again : ∀ i ∈ order, ∃ b, evaluateOperand c (.expr ⟨k, i⟩) w = .ok b w

/-! ### The invariant of a session -/

/-- What holds after each step of a session. -/
structure InSession (c : ContextId) (k : ArenaId) (before : List (String × Int))
    (roots : List Nat) (w : Workspace) (order : List Nat) : Prop where
  coherent : w.Coherent
  exists_context : c < w.evaluators.size
  once : Lowering.Once (w.arena k) before order (w.lowered c)
  mem_iff : ∀ i, i ∈ order ↔ ∃ r ∈ roots, Reaches (w.arena k).operands r i
  bound : order ≠ [] → (w.evaluator c).context.arena = some k

variable {c : ContextId} {k : ArenaId} {before : List (String × Int)} {roots order : List Nat}
  {w w' : Workspace}

namespace InSession

/-- Calls that lower nothing may grow the arena. -/
theorem build (h : InSession c k before roots w order) {call : Call} (hbuilds : call.Builds) :
    InSession c k before roots (w.after call) order := by
  have hspares := after_spares hbuilds w
  have hplace := hspares.place c h.exists_context
  have hcontext := hspares.context c
  have hgrows := after_grows call w k
  have hprogram : ((w.after call).lowered c).program = (w.lowered c).program := by
    simp only [lowered, hplace, hspares.program]
  refine ⟨h.coherent.after call, Nat.lt_of_lt_of_le h.exists_context hspares.size_le,
    h.once.mono hgrows.1 hcontext hprogram hspares.history, fun i => ?_,
    fun horder => hcontext.bound k (h.bound horder)⟩
  have hsame : ∀ r ∈ roots, Reaches ((w.after call).arena k).operands r i ↔
      Reaches (w.arena k).operands r i := by
    intro r hr
    have hmem : r ∈ order := (h.mem_iff r).mpr ⟨r, hr, .refl r⟩
    exact Arena.reaches_of_extends (h.coherent.arenas k) hgrows.1 (h.once.ordered.lt_size r hmem)
  rw [h.mem_iff]
  constructor
  · rintro ⟨r, hr, hri⟩
    exact ⟨r, hr, (hsame r hr).mpr hri⟩
  · rintro ⟨r, hr, hri⟩
    exact ⟨r, hr, (hsame r hr).mp hri⟩

/-- Evaluating a node appends what it reaches and was not evaluated. -/
theorem evaluate (h : InSession c k before roots w order) {root b : Nat}
    (hrun : evaluateOperand c (.expr ⟨k, root⟩) w = .ok b w') :
    ∃ order', InSession c k before (root :: roots) w' order' := by
  obtain ⟨hadmits, s, heval, rfl⟩ := evaluateOperand_ok h.exists_context hrun
  have hplace := h.coherent.program_lt c h.exists_context
  have hstart := h.once.mono (Arena.Extends.refl _)
    (t := { w.lowered c with context := { (w.evaluator c).context with arena := some k } })
    ⟨rfl, rfl, rfl, rfl, fun a ha => congrArg some (hadmits.2 a ha).symm⟩ rfl rfl
  obtain ⟨order', honce, hmem⟩ := hstart.evaluate (h.coherent.arenas k) heval
  have hlowered := lowered_setLowered h.exists_context hplace s
  have hcoherent := h.coherent.evaluateOperand h.exists_context (.expr ⟨k, root⟩)
  rw [hrun] at hcoherent
  refine ⟨order', ?_⟩
  constructor
  case coherent => exact hcoherent
  case exists_context =>
    rw [setLowered, Array.size_setIfInBounds]
    exact h.exists_context
  case once =>
    rw [hlowered]
    exact honce
  case mem_iff =>
    intro i
    rw [hmem, h.mem_iff]
    simp [or_comm]
  case bound =>
    intro _
    have hlowers := (Lowering.evaluate_lowers w.strict (w.arena k) root).of_ok heval
    rw [evaluator_setLowered h.exists_context, if_pos rfl]
    exact hlowers.bound

/-- A node that was evaluated is evaluated again without a change. -/
theorem again (h : InSession c k before roots w order) {i : Nat} (hi : i ∈ order) :
    ∃ b, evaluateOperand c (.expr ⟨k, i⟩) w = .ok b w := by
  have hbound := h.bound (List.ne_nil_of_mem hi)
  obtain ⟨b, hb⟩ := Option.isSome_iff_exists.mp (h.once.buffer?_isSome.mpr hi)
  obtain ⟨n, hn⟩ := Arena.exists_node? (h.once.ordered.lt_size i hi)
  have heq := evaluateOperand_eq h.exists_context (e := ⟨k, i⟩)
    ⟨rfl, fun a ha => Option.some.inj (ha.symm.trans hbound)⟩ (arena_lt_of_node? hn)
  have hsame : { (w.evaluator c).context with arena := some k } = (w.evaluator c).context := by
    rw [← hbound]
  have hlowered : { w.lowered c with context := (w.evaluator c).context } = w.lowered c := rfl
  dsimp only at heq
  rw [hsame, hlowered, Lowering.evaluate_of_known hb] at heq
  refine ⟨b, ?_⟩
  simpa only [setLowered_self] using heq

theorem evaluatedOnce {start : Workspace}
    (h : InSession c k (Lowering.observed start.history) roots w order) :
    EvaluatedOnce c k start roots w order where
  nodup := h.once.ordered.nodup
  mem_iff := h.mem_iff
  ids := by
    apply List.ext_getElem
    · rw [List.length_map, List.length_range']
    · intro m hm hm'
      rw [List.length_map] at hm
      rw [List.getElem_map, List.getElem_range', Nat.one_mul, Nat.add_comm]
      exact h.once.evalId (List.getElem?_eq_getElem hm)
  operand_lt := by
    intro i hi x hx
    obtain ⟨m, hm⟩ := List.mem_iff_getElem?.mp hi
    obtain ⟨l, hlm, hl⟩ := h.once.ordered.operands m i hm x hx
    have hx := h.once.evalId hl
    have hi := h.once.evalId hm
    simp only [lowered] at hx hi
    omega
  trace := h.once.trace
  leaves := h.once.leaves
  operators := h.once.operators
  again := fun _ hi => h.again hi

end InSession

theorem Session.exists_order {start : Workspace} (h : Session c k start roots w)
    (hstart : InSession c k before [] start []) : ∃ order, InSession c k before roots w order := by
  induction h with
  | nil => exact ⟨[], hstart⟩
  | build _ call hbuilds ih =>
    obtain ⟨order, hbefore⟩ := ih
    exact ⟨order, hbefore.build hbuilds⟩
  | evaluate _ root b hrun ih =>
    obtain ⟨order, hbefore⟩ := ih
    exact hbefore.evaluate hrun

/-- A context that is made over a program of its own. -/
theorem inSession_newContext (h : w.Coherent) (requiresGrad : Bool) (k : ArenaId) :
    InSession w.evaluators.size k
      (Lowering.observed (w.after (.newContext none requiresGrad)).history) []
      (w.after (.newContext none requiresGrad)) [] := by
  have hafter : w.after (.newContext none requiresGrad) =
      { w with
        programs := w.programs.push {}
        evaluators :=
          w.evaluators.push { context := .fresh requiresGrad, program := w.programs.size } } := rfl
  have hlowered : (w.after (.newContext none requiresGrad)).lowered w.evaluators.size =
      ⟨.fresh requiresGrad, {}, w.history⟩ := by
    rw [hafter]
    simp [lowered, evaluator, program]
  refine ⟨h.after _, ?_, ?_, by simp, by simp⟩
  · rw [hafter, Array.size_push]
    exact Nat.lt_succ_self _
  · rw [hlowered]
    exact Lowering.Once.fresh _ requiresGrad w.history

/-- In every session of a new context over a program of its own, the nodes that the roots reach are
evaluated once each. -/
theorem session_evaluates_once (calls : List Call) (requiresGrad : Bool) {k : ArenaId}
    {roots : List Nat} {w : Workspace}
    (h : Session (afterAll calls).evaluators.size k
      ((afterAll calls).after (.newContext none requiresGrad)) roots w) :
    ∃ order, EvaluatedOnce (afterAll calls).evaluators.size k
      ((afterAll calls).after (.newContext none requiresGrad)) roots w order := by
  obtain ⟨order, horder⟩ :=
    h.exists_order (inSession_newContext (afterAll_coherent calls) requiresGrad k)
  exact ⟨order, horder.evaluatedOnce⟩

/-- A parameter and its exponential are evaluated, the arena grows, and the exponential is asked for
again. -/
theorem session_evaluates_once_exponential :
    ∃ w order, Session 0 0 (start.after (.newContext none true)) [1, 1] w ∧
      EvaluatedOnce 0 0 (start.after (.newContext none true)) [1, 1] w order := by
  have hshaped : (afterAll sharedProgram).WellShaped (fun k => k = 0) (fun p => p = 0) :=
    wellShaped_start.run ⟨trivial, trivial, trivial, trivial, trivial⟩
  obtain ⟨b, w, hfirst, -⟩ := hshaped.exists_buffer (c := 0) (k := 0) (i := 1)
    (n := ⟨.unary .exp 0, ⟨[3]⟩, none⟩) (by decide) rfl rfl rfl ⟨rfl, nofun⟩
  have hbuilt : Session 0 0 (start.after (.newContext none true)) [] (afterAll sharedProgram) :=
    ((Session.nil.build (.newContext (some 0) false) trivial).build
      (.param 0 (.shape ⟨[3]⟩) none) trivial).build (.unary .exp ⟨0, 0⟩) trivial
  have hgrown := (hbuilt.evaluate 1 b hfirst).build (.unary .log ⟨0, 1⟩) trivial
  obtain ⟨order, honce⟩ := session_evaluates_once [] true hgrown
  obtain ⟨b', hagain⟩ := honce.again 1 ((honce.mem_iff 1).mpr ⟨1, by simp, .refl 1⟩)
  have hsession := hgrown.evaluate 1 b' hagain
  obtain ⟨order', honce'⟩ := session_evaluates_once [] true hsession
  exact ⟨_, order', hsession, honce'⟩

end TensorGraph.Workspace
