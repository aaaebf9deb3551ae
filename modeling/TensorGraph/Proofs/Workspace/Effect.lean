import TensorGraph.Proofs.Outcome
import TensorGraph.Workspace.Basic

/-!
# Effects on a workspace

An action on one arena, program or context changes that component as the action says, and no other.
What is read of a component that is absent is empty.
-/

namespace TensorGraph

theorem getD_setIfInBounds {α : Type} (xs : Array α) (i j : Nat) (v d : α) :
    (xs.setIfInBounds i v).getD j d = if j = i ∧ i < xs.size then v else xs.getD j d := by
  simp only [Array.getD_eq_getD_getElem?, Array.getElem?_setIfInBounds]
  by_cases hji : j = i
  · subst hji
    by_cases hj : j < xs.size
    · simp [hj]
    · simp [hj]
  · simp [hji, Ne.symm hji]

theorem setIfInBounds_getD {α : Type} (xs : Array α) (i : Nat) (d : α) :
    xs.setIfInBounds i (xs.getD i d) = xs := by
  apply Array.ext_getElem?
  intro j
  rw [Array.getElem?_setIfInBounds, Array.getD_eq_getD_getElem?]
  by_cases hij : i = j
  · subst hij
    by_cases hi : i < xs.size
    · simp [hi]
    · simp [hi]
  · rw [if_neg hij]

/-- An entry that is taken out while it is worked on is put back once. -/
theorem getD_refill {α : Type} (xs : Array α) (i j : Nat) (u v d : α) :
    ((xs.setIfInBounds i u).setIfInBounds i v).getD j d =
      if j = i ∧ i < xs.size then v else xs.getD j d := by
  rw [Array.setIfInBounds_setIfInBounds, getD_setIfInBounds]

theorem getD_push {α : Type} (xs : Array α) (j : Nat) (v d : α) :
    (xs.push v).getD j d = if j = xs.size then v else xs.getD j d := by
  simp only [Array.getD_eq_getD_getElem?, Array.getElem?_push]
  split
  · rfl
  · rfl

theorem getD_modify {α : Type} (xs : Array α) (i j : Nat) (f : α → α) (d : α) :
    (xs.modify i f).getD j d = if j = i ∧ i < xs.size then f (xs.getD i d) else xs.getD j d := by
  simp only [Array.getD_eq_getD_getElem?, Array.getElem?_modify]
  by_cases hji : j = i
  · subst hji
    by_cases hj : j < xs.size
    · simp [hj]
    · simp [hj]
  · simp [hji, Ne.symm hji]

theorem getD_of_size_le {α : Type} {xs : Array α} {j : Nat} (h : xs.size ≤ j) (d : α) :
    xs.getD j d = d := by
  rw [Array.getD_eq_getD_getElem?, Array.getElem?_eq_none h, Option.getD_none]

namespace Workspace

/-- An arena of a workspace. -/
def arena (w : Workspace) (k : ArenaId) : Arena := w.arenas.getD k .empty

theorem arena_lt_of_node? {w : Workspace} {k : ArenaId} {i : Nat} {n : Node}
    (h : (w.arena k).node? i = some n) : k < w.arenas.size := by
  refine Nat.lt_of_not_le fun hk => ?_
  rw [arena, getD_of_size_le hk] at h
  simp [Arena.empty, Arena.node?] at h

/-- The node of an expression is one of its arena. -/
theorem node?_eq_at? (w : Workspace) (e : Expr) :
    w.arenas.node? e = (w.arena e.arena).at? e.index := by
  simp only [Arenas.node?, Arenas.of?, arena, Array.getD_eq_getD_getElem?]
  cases w.arenas[e.arena]? with
  | none => simp [Arena.empty, Arena.at?, Arena.node?]
  | some b => rfl

theorem node?_ofNat {w : Workspace} {k : ArenaId} {i : Nat} {n : Node} :
    w.arenas.node? ⟨k, i⟩ = some n ↔ (w.arena k).node? i = some n := by
  rw [node?_eq_at?, Arena.at?_ofNat]

theorem evaluator_of_size_le {w : Workspace} {c : ContextId} (h : w.evaluators.size ≤ c) :
    w.evaluator c = {} := getD_of_size_le h {}

variable {α : Type}

/-- The state from which a context differentiates. -/
def differentiation (w : Workspace) (c : ContextId) (k : ArenaId) : Differentiation :=
  ⟨w.arena k, (w.evaluator c).context⟩

/-- The state from which a context lowers. -/
def lowered (w : Workspace) (c : ContextId) : Lowering :=
  ⟨(w.evaluator c).context, w.program (w.evaluator c).program, w.history⟩

/-- Only the arena built in changes. -/
theorem inArena_after (id : ArenaId) (x : Build α) (w : Workspace) :
    ∃ arenas : Array Arena, stateAfter (inArena id x w) = { w with arenas } ∧
      ∀ k, arenas.getD k .empty =
        if k = id ∧ id < w.arenas.size then stateAfter (x (w.arena id)) else w.arena k := by
  simp only [inArena]
  by_cases hid : id < w.arenas.size
  · have ha : w.arenas[id]? = some (w.arena id) := by
      rw [arena, Array.getD_eq_getD_getElem?, Array.getElem?_eq_getElem hid, Option.getD_some]
    rw [ha]
    dsimp only
    cases x (w.arena id) with
    | ok v b => exact ⟨_, rfl, fun k => getD_refill ..⟩
    | error e b => exact ⟨_, rfl, fun k => getD_refill ..⟩
  · rw [Array.getElem?_eq_none (Nat.le_of_not_lt hid)]
    exact ⟨w.arenas, rfl, fun k => by rw [if_neg fun h => hid h.2]; rfl⟩

/-- Only the program emitted into changes. -/
theorem emitting_after (id : ProgramId) (x : Emit Emission) (w : Workspace) :
    ∃ programs history, stateAfter (emitting id x w) = { w with programs, history } ∧
      programs.size = w.programs.size ∧ ∀ p, programs.getD p {} =
        if p = id ∧ id < w.programs.size then stateAfter (x (w.program id)) else w.program p := by
  simp only [emitting]
  by_cases hid : id < w.programs.size
  · have hp : w.programs[id]? = some (w.program id) := by
      rw [program, Array.getD_eq_getD_getElem?, Array.getElem?_eq_getElem hid, Option.getD_some]
    rw [hp]
    dsimp only
    cases x (w.program id) with
    | ok e q => exact ⟨_, _, rfl, by simp, fun p => getD_refill ..⟩
    | error e q => exact ⟨_, _, rfl, by simp, fun p => getD_refill ..⟩
  · rw [Array.getElem?_eq_none (Nat.le_of_not_lt hid)]
    exact ⟨w.programs, w.history, rfl, rfl, fun p => by rw [if_neg fun h => hid h.2]; rfl⟩

theorem setEvaluator_setEvaluator (w : Workspace) (c : ContextId) (s t : Evaluator) :
    (w.setEvaluator c s).setEvaluator c t = w.setEvaluator c t := by
  simp only [setEvaluator, Array.setIfInBounds_setIfInBounds]

/-- A context as it is after an action. -/
def setContext (w : Workspace) (c : ContextId) (context : Context) : Workspace :=
  w.setEvaluator c { w.evaluator c with context }

/-- A context, its program and the history as they are after lowering. -/
def setLowered (w : Workspace) (c : ContextId) (s : Lowering) : Workspace :=
  { w with
    evaluators := w.evaluators.setIfInBounds c { w.evaluator c with context := s.context }
    programs := w.programs.setIfInBounds (w.evaluator c).program s.program
    history := s.history }

/-- A context and an arena as they are after differentiating. -/
def setDifferentiated (w : Workspace) (c : ContextId) (k : ArenaId) (s : Differentiation) :
    Workspace :=
  { w with
    evaluators := w.evaluators.setIfInBounds c { w.evaluator c with context := s.context }
    arenas := w.arenas.setIfInBounds k s.arena }

@[simp] theorem size_setContext (w : Workspace) (c : ContextId) (context : Context) :
    (w.setContext c context).evaluators.size = w.evaluators.size :=
  Array.size_setIfInBounds ..

theorem setContext_self (w : Workspace) (c : ContextId) :
    w.setContext c (w.evaluator c).context = w := by
  change { w with evaluators := w.evaluators.setIfInBounds c (w.evaluators.getD c {}) } = w
  rw [setIfInBounds_getD]

@[simp] theorem arena_setLowered (w : Workspace) (c : ContextId) (s : Lowering) (k : ArenaId) :
    (w.setLowered c s).arena k = w.arena k := rfl

theorem setLowered_self (w : Workspace) (c : ContextId) : w.setLowered c (w.lowered c) = w := by
  change { w with
    evaluators := w.evaluators.setIfInBounds c (w.evaluators.getD c {})
    programs := w.programs.setIfInBounds _ (w.programs.getD _ {}) } = w
  rw [setIfInBounds_getD, setIfInBounds_getD]

theorem inContext_eq (c : ContextId) (x : EStateM Error Context α) (w : Workspace) :
    inContext c x w =
      match x (w.evaluator c).context with
      | .ok v context => .ok v (w.setContext c context)
      | .error e context => .error e (w.setContext c context) := by
  simp only [inContext]
  cases x (w.evaluator c).context with
  | ok v context => exact congrArg _ (setEvaluator_setEvaluator ..)
  | error e context => exact congrArg _ (setEvaluator_setEvaluator ..)

theorem lowering_eq (c : ContextId) (x : Lower α) (w : Workspace) :
    lowering c x w =
      match x (w.lowered c) with
      | .ok v s => .ok v (w.setLowered c s)
      | .error e s => .error e (w.setLowered c s) := by
  have hrefill : ∀ s : Lowering, { w with
      evaluators := (w.evaluators.setIfInBounds c {}).setIfInBounds c
        { w.evaluator c with context := s.context }
      programs := (w.programs.setIfInBounds (w.evaluator c).program {}).setIfInBounds
        (w.evaluator c).program s.program
      history := s.history } = w.setLowered c s := by
    intro s
    rw [Array.setIfInBounds_setIfInBounds, Array.setIfInBounds_setIfInBounds, setLowered]
  simp only [lowering, lowered]
  cases x ⟨(w.evaluator c).context, w.program (w.evaluator c).program, w.history⟩ with
  | ok v s => exact congrArg _ (hrefill s)
  | error e s => exact congrArg _ (hrefill s)

theorem differentiating_eq (c : ContextId) (k : ArenaId) (x : Differentiate α) (w : Workspace) :
    differentiating c k x w =
      match x (w.differentiation c k) with
      | .ok v s => .ok v (w.setDifferentiated c k s)
      | .error e s => .error e (w.setDifferentiated c k s) := by
  have hrefill : ∀ s : Differentiation, { w with
      evaluators := (w.evaluators.setIfInBounds c {}).setIfInBounds c
        { w.evaluator c with context := s.context }
      arenas := (w.arenas.setIfInBounds k .empty).setIfInBounds k s.arena } =
        w.setDifferentiated c k s := by
    intro s
    rw [Array.setIfInBounds_setIfInBounds, Array.setIfInBounds_setIfInBounds, setDifferentiated]
  simp only [differentiating, differentiation, arena]
  cases x ⟨w.arenas.getD k .empty, (w.evaluator c).context⟩ with
  | ok v s => exact congrArg _ (hrefill s)
  | error e s => exact congrArg _ (hrefill s)

theorem stateAfter_inContext (c : ContextId) (x : EStateM Error Context α) (w : Workspace) :
    stateAfter (inContext c x w) = w.setContext c (stateAfter (x (w.evaluator c).context)) := by
  rw [inContext_eq]
  cases x (w.evaluator c).context with
  | ok v context => rfl
  | error e context => rfl

theorem stateAfter_lowering (c : ContextId) (x : Lower α) (w : Workspace) :
    stateAfter (lowering c x w) = w.setLowered c (stateAfter (x (w.lowered c))) := by
  rw [lowering_eq]
  cases x (w.lowered c) with
  | ok v s => rfl
  | error e s => rfl

theorem arena_setDifferentiated {w : Workspace} (c : ContextId) {k : ArenaId}
    (hk : k < w.arenas.size) (s : Differentiation) (j : ArenaId) :
    (w.setDifferentiated c k s).arena j = if j = k then s.arena else w.arena j := by
  simp only [arena, setDifferentiated, getD_setIfInBounds, hk, and_true]

theorem program_setLowered {w : Workspace} {c : ContextId}
    (hp : (w.evaluator c).program < w.programs.size) (s : Lowering) (p : ProgramId) :
    (w.setLowered c s).program p =
      if p = (w.evaluator c).program then s.program else w.program p := by
  simp only [setLowered, program, getD_setIfInBounds, hp, and_true]

section Setting

variable {w : Workspace} {c : ContextId} (hc : c < w.evaluators.size)

include hc

theorem evaluator_setContext (context : Context) (d : ContextId) :
    (w.setContext c context).evaluator d =
      if d = c then { w.evaluator c with context } else w.evaluator d := by
  simp only [evaluator, setContext, setEvaluator, getD_setIfInBounds, hc, and_true]

theorem evaluator_setContext_self (context : Context) :
    (w.setContext c context).evaluator c = { w.evaluator c with context } := by
  rw [evaluator_setContext hc, if_pos rfl]

theorem evaluator_setLowered (s : Lowering) (d : ContextId) :
    (w.setLowered c s).evaluator d =
      if d = c then { w.evaluator c with context := s.context } else w.evaluator d := by
  simp only [evaluator, setLowered, getD_setIfInBounds, hc, and_true]

theorem evaluator_setDifferentiated (k : ArenaId) (s : Differentiation) (d : ContextId) :
    (w.setDifferentiated c k s).evaluator d =
      if d = c then { w.evaluator c with context := s.context } else w.evaluator d := by
  simp only [evaluator, setDifferentiated, getD_setIfInBounds, hc, and_true]

theorem lowered_setContext (context : Context) :
    (w.setContext c context).lowered c = { w.lowered c with context } := by
  simp only [lowered, evaluator_setContext hc, if_pos]
  rfl

theorem lowered_setLowered (hp : (w.evaluator c).program < w.programs.size) (s : Lowering) :
    (w.setLowered c s).lowered c = s := by
  simp only [lowered, evaluator_setLowered hc, if_true, program_setLowered hp]
  rfl

end Setting

/-- What lowering puts back replaces the context. -/
theorem setLowered_setContext (w : Workspace) (c : ContextId) (context : Context) (s : Lowering) :
    (w.setContext c context).setLowered c s = w.setLowered c s := by
  by_cases hc : c < w.evaluators.size
  · simp only [setLowered, evaluator_setContext_self hc]
    simp only [setContext, setEvaluator, Array.setIfInBounds_setIfInBounds]
  · rw [setContext, setEvaluator, Array.setIfInBounds_eq_of_size_le (Nat.le_of_not_lt hc)]

/-- Only the context asked changes, and it stays with its program. -/
theorem inContext_after (c : ContextId) (x : EStateM Error Context α) (w : Workspace) :
    ∃ evaluators, stateAfter (inContext c x w) = { w with evaluators } ∧
      evaluators.size = w.evaluators.size ∧ ∀ d, evaluators.getD d {} =
        if d = c ∧ c < w.evaluators.size then
          { w.evaluator c with context := stateAfter (x (w.evaluator c).context) }
        else w.evaluator d :=
  ⟨_, stateAfter_inContext c x w, by simp, fun d => getD_setIfInBounds ..⟩

theorem exists_of_inContext_ok {c : ContextId} {x : EStateM Error Context α} {w w' : Workspace}
    {v : α} (h : inContext c x w = .ok v w') :
    ∃ context, x (w.evaluator c).context = .ok v context := by
  rw [inContext_eq] at h
  cases hx : x (w.evaluator c).context with
  | ok u context =>
    rw [hx] at h
    cases h
    exact ⟨context, rfl⟩
  | error e context =>
    rw [hx] at h
    cases h

theorem inContext_ok {c : ContextId} {x : EStateM Error Context α} {w w' : Workspace} {v : α}
    (hc : c < w.evaluators.size) (h : inContext c x w = .ok v w') :
    x (w.evaluator c).context = .ok v (w'.evaluator c).context := by
  obtain ⟨context, hx⟩ := exists_of_inContext_ok h
  rw [inContext_eq, hx] at h
  cases h
  rw [hx, evaluator_setContext_self hc]

/-- Only the context that lowers and its program change. -/
theorem lowering_after (c : ContextId) (x : Lower α) (w : Workspace) :
    ∃ evaluators programs history,
      stateAfter (lowering c x w) = { w with evaluators, programs, history } ∧
      evaluators.size = w.evaluators.size ∧ programs.size = w.programs.size ∧
      (∀ d, evaluators.getD d {} =
        if d = c ∧ c < w.evaluators.size then
          { w.evaluator c with context := (stateAfter (x (w.lowered c))).context }
        else w.evaluator d) ∧
      ∀ p, programs.getD p {} =
        if p = (w.evaluator c).program ∧ (w.evaluator c).program < w.programs.size then
          (stateAfter (x (w.lowered c))).program
        else w.program p :=
  ⟨_, _, _, stateAfter_lowering c x w, by simp, by simp, fun d => getD_setIfInBounds ..,
    fun p => getD_setIfInBounds ..⟩

theorem stateAfter_differentiating (c : ContextId) (k : ArenaId) (x : Differentiate α)
    (w : Workspace) : stateAfter (differentiating c k x w) =
      w.setDifferentiated c k (stateAfter (x (w.differentiation c k))) := by
  rw [differentiating_eq]
  cases x (w.differentiation c k) with
  | ok v s => rfl
  | error e s => rfl

/-- Only the context that differentiates and the arena change. -/
theorem differentiating_after (c : ContextId) (id : ArenaId) (x : Differentiate α)
    (w : Workspace) :
    ∃ (evaluators : Array Evaluator) (arenas : Array Arena),
      stateAfter (differentiating c id x w) = { w with evaluators, arenas } ∧
      evaluators.size = w.evaluators.size ∧
      (∀ d, evaluators.getD d {} =
        if d = c ∧ c < w.evaluators.size then
          { w.evaluator c with context := (stateAfter (x (w.differentiation c id))).context }
        else w.evaluator d) ∧
      ∀ k, arenas.getD k .empty =
        if k = id ∧ id < w.arenas.size then (stateAfter (x (w.differentiation c id))).arena
        else w.arena k :=
  ⟨_, _, stateAfter_differentiating c id x w, by simp, fun d => getD_setIfInBounds ..,
    fun k => getD_setIfInBounds ..⟩

/-- Differentiating has the outcome that it has on the context and the arena. -/
theorem differentiating_of_ok {c : ContextId} {id : ArenaId} {x : Differentiate α} {w : Workspace}
    {v : α} {s : Differentiation} (h : x (w.differentiation c id) = .ok v s) :
    ∃ w', differentiating c id x w = .ok v w' := by
  rw [differentiating_eq, h]
  exact ⟨_, rfl⟩

theorem differentiating_of_error {c : ContextId} {id : ArenaId} {x : Differentiate α}
    {w : Workspace} {e : Error} {s : Differentiation}
    (h : x (w.differentiation c id) = .error e s) :
    ∃ w', differentiating c id x w = .error e w' := by
  rw [differentiating_eq, h]
  exact ⟨_, rfl⟩

end Workspace

end TensorGraph
