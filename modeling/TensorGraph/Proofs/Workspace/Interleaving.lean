import TensorGraph.Program.Export
import TensorGraph.Proofs.Workspace.Gradients
import TensorGraph.Proofs.Workspace.Turn

/-!
# Interleaved turns

Contexts with programs of their own take turns over one arena, in any order. They name nodes that
were there before all turns, and gradients that they were told themselves. A context is then told
what it is told when it takes its turns alone, although passes of others add nodes in between.
-/

namespace TensorGraph

/-- A node as a context may know it. -/
inductive Mention where
  /-- A node that was there before all turns. -/
  | start (i : Nat)
  /-- A gradient that the context was told, by its place among them. -/
  | given (j : Nat)
deriving DecidableEq, Repr

/-- The node of an arena that had some nodes before all turns, and the gradients told since. -/
def Mention.node? (base : Nat) (given : List Int) : Mention → Option Int
  | .start i => if i < base then some i else none
  | .given j => given[j]?

/-- A move with the nodes that are named, if there are all of them. -/
def Move.nodes? {μ ν : Type} (f : μ → Option ν) : Move μ → Option (Move ν)
  | .evaluate x => do return .evaluate (← f x)
  | .backward output seed wrt => do
    return .backward (← f output) (← seed.mapM f) (← wrt.mapM (List.mapM f))
  | .gradientOf x => do return .gradientOf (← f x)

/-- The gradients that a context is told. -/
def Reply.given : Reply → List Int
  | .differentiated gradients => gradients.map Prod.snd
  | .gradient g => g.toList
  | _ => []

/-! ### Names -/

section Options

variable {α β γ δ ε : Type} {R : α → β → Prop} {S : γ → δ → Prop}

theorem rel_bind {x : Option α} {y : Option β} {f : α → Option γ} {g : β → Option δ}
    (hxy : Option.Rel R x y) (hfg : ∀ a b, R a b → Option.Rel S (f a) (g b)) :
    Option.Rel S (x >>= f) (y >>= g) := by
  cases hxy with
  | none => exact .none
  | some hab => exact hfg _ _ hab

theorem rel_mapM_option {f : ε → Option γ} {g : ε → Option δ}
    (h : ∀ a, Option.Rel S (f a) (g a)) (x : Option ε) :
    Option.Rel (Option.Rel S) (x.mapM f) (x.mapM g) := by
  cases x with
  | none => exact .some .none
  | some a =>
    rw [Option.mapM_some, Option.mapM_some, map_eq_pure_bind, map_eq_pure_bind]
    exact rel_bind (h a) fun _ _ hc => .some (.some hc)

theorem rel_mapM {f : ε → Option γ} {g : ε → Option δ} (h : ∀ a, Option.Rel S (f a) (g a))
    (xs : List ε) : Option.Rel (List.Forall₂ S) (xs.mapM f) (xs.mapM g) := by
  induction xs with
  | nil => exact .some .nil
  | cons a xs ih =>
    rw [List.mapM_cons, List.mapM_cons]
    exact rel_bind (h a) fun _ _ hc => rel_bind ih fun _ _ hcs => .some (.cons hc hcs)

theorem rel_getElem? {xs : List α} {ys : List β} (h : List.Forall₂ R xs ys) (j : Nat) :
    Option.Rel R xs[j]? ys[j]? := by
  induction h generalizing j with
  | nil => exact .none
  | cons hab _ ih =>
    cases j with
    | zero => exact .some hab
    | succ j => exact ih j

end Options

section Names

variable {E : Embedding} {μ ν ν' : Type} {R : ν → ν' → Prop} {f : μ → Option ν} {f' : μ → Option ν'}

/-- A move in which corresponding nodes are named is made in both places or in none. -/
theorem Move.nodes?_rel (h : ∀ x, Option.Rel R (f x) (f' x)) (m : Move μ) :
    Option.Rel (Move.Rel R) (m.nodes? f) (m.nodes? f') := by
  cases m with
  | evaluate x => exact rel_bind (h x) fun _ _ hy => .some (.evaluate hy)
  | gradientOf x => exact rel_bind (h x) fun _ _ hy => .some (.gradientOf hy)
  | backward output seed wrt =>
    exact rel_bind (h output) fun _ _ houtput => rel_bind (rel_mapM_option h seed) fun _ _ hseed =>
      rel_bind (rel_mapM_option (rel_mapM h) wrt) fun _ _ hwrt =>
        .some (.backward houtput hseed hwrt)

theorem Reply.Matches.given {r r' : Reply} (h : Reply.Matches E r r') :
    List.Forall₂ E.Matches r.given r'.given := by
  cases h with
  | evaluated buffer id => exact .nil
  | differentiated hgs =>
    simp only [Reply.given, List.forall₂_map_left_iff, List.forall₂_map_right_iff]
    exact hgs.imp fun _ _ hxy => hxy.2
  | gradient hgh =>
    cases hgh with
    | none => exact .nil
    | some hij => exact .cons hij .nil
  | refused e => exact .nil
  | unnamed => exact .nil

/-- What a context names refers to corresponding nodes, if it was told corresponding gradients. -/
theorem Mention.node?_rel {base : Nat} {given given' : List Int}
    (hstart : ∀ i < base, i < E.inner.size ∧ E.place i = i)
    (hgiven : List.Forall₂ E.Matches given given') (x : Mention) :
    Option.Rel E.Matches (x.node? base given) (x.node? base given') := by
  cases x with
  | start i =>
    simp only [node?]
    by_cases hi : i < base
    · obtain ⟨hlt, hplace⟩ := hstart i hi
      rw [if_pos hi]
      exact .some ⟨i, hlt, rfl, congrArg Nat.cast hplace.symm⟩
    · rw [if_neg hi]
      exact .none
  | given j => exact rel_getElem? hgiven j

end Names

namespace Workspace

/-- What a context is told when it takes a turn, and the workspace afterwards. -/
def reply (k : ArenaId) (c : ContextId) (m : Option (Move Int)) (w : Workspace) :
    Reply × Workspace :=
  match m with
  | none => (.unnamed, w)
  | some m =>
    match turn k c m w with
    | .ok r w => (r, w)
    | .error e w => (.refused e, w)

/-- Turns that were taken: what each context was told, in order, and what they led to. -/
structure Exchange where
  workspace : Workspace
  told : List (ContextId × Reply)

namespace Exchange

/-- What one context was told. -/
def toldTo (x : Exchange) (c : ContextId) : List Reply :=
  (x.told.filter fun t => t.1 = c).map Prod.snd

/-- The gradients that one context was told. -/
def givenTo (x : Exchange) (c : ContextId) : List Int := (x.toldTo c).flatMap Reply.given

/-- The move of a turn, with the nodes that are mentioned. -/
def move? (base : Nat) (x : Exchange) (t : ContextId × Move Mention) : Option (Move Int) :=
  t.2.nodes? (Mention.node? base (x.givenTo t.1))

/-- A context takes a turn. -/
def take (k : ArenaId) (base : Nat) (x : Exchange) (t : ContextId × Move Mention) : Exchange :=
  let (r, w) := reply k t.1 (x.move? base t) x.workspace
  ⟨w, x.told ++ [(t.1, r)]⟩

end Exchange

/-- Turns over an arena, one after the other. -/
def exchange (k : ArenaId) (turns : List (ContextId × Move Mention)) (w : Workspace) : Exchange :=
  turns.foldl (Exchange.take k (w.arena k).size) ⟨w, []⟩

/-- The turns of one context, without those of others. -/
def turnsOf (c : ContextId) (turns : List (ContextId × Move Mention)) :
    List (ContextId × Move Mention) :=
  turns.filter fun t => t.1 = c

/-! ### What a context is told -/

section Reply

variable {E : Embedding} {k : ArenaId} {c d : ContextId} {w w' : Workspace}
  {m m' : Option (Move Int)}

theorem reply_tended (k : ArenaId) (c : ContextId) (m : Option (Move Int)) (w : Workspace) :
    w.Tended c (reply k c m w).2 := by
  cases m with
  | none => exact Std.Refl.refl w
  | some m =>
    have h := turn_tended c k m w
    simp only [reply]
    generalize turn k c m w = outcome at h
    cases outcome with
    | ok r v => exact h
    | error e v => exact h

/-- A context and its counterpart are told the same. -/
theorem Counterpart.reply (h : Counterpart E k c w w') (hw : Seated k c w) (hw' : Seated k c w')
    (hstrict : w'.strict = w.strict) (hm : Option.Rel (Move.Rel E.Matches) m m') :
    ∃ F, E.Extends F ∧ Reply.Matches F (reply k c m w).1 (Workspace.reply k c m' w').1 ∧
      Counterpart F k c (Workspace.reply k c m w).2 (Workspace.reply k c m' w').2 := by
  cases hm with
  | none => exact ⟨E, .refl E, .unnamed, h⟩
  | some hmove =>
    obtain ⟨F, hEF, hagree⟩ := h.turn hw hw' hstrict hmove
    refine ⟨F, hEF, ?_⟩
    simp only [Workspace.reply]
    generalize Workspace.turn k c _ w = outcome at hagree
    generalize Workspace.turn k c _ w' = outcome' at hagree
    cases hagree with
    | ok hr hv => exact ⟨hr, hv⟩
    | error e hv => exact ⟨.refused e, hv⟩

end Reply

namespace Exchange

/-- An exchange in which others took turns, too, follows one that a context had alone. -/
structure Follows (w : Workspace) (k : ArenaId) (c : ContextId) (E : Embedding)
    (x y : Exchange) : Prop where
  counterpart : Counterpart E k c x.workspace y.workspace
  alone : Seated k c x.workspace
  seated : Seated k c y.workspace
  strict : y.workspace.strict = x.workspace.strict
  told : List.Forall₂ (Reply.Matches E) (x.toldTo c) (y.toldTo c)
  start : ∀ i < (w.arena k).size, i < E.inner.size ∧ E.place i = i
  placed : ∀ d, (y.workspace.evaluator d).program = (w.evaluator d).program

section Turns

variable {w : Workspace} {k : ArenaId} {c d : ContextId} {E F : Embedding} {x y : Exchange}

theorem toldTo_take (k : ArenaId) (base : Nat) (x : Exchange) (t : ContextId × Move Mention)
    (c : ContextId) : (x.take k base t).toldTo c = x.toldTo c ++
      if t.1 = c then [(Workspace.reply k t.1 (x.move? base t) x.workspace).1] else [] := by
  simp only [toldTo, take, List.filter_append, List.map_append]
  by_cases h : t.1 = c
  · simp [h]
  · simp [h]

theorem start_of_extends {base : Nat} (h : ∀ i < base, i < E.inner.size ∧ E.place i = i)
    (hEF : E.Extends F) : ∀ i < base, i < F.inner.size ∧ F.place i = i := by
  intro i hi
  obtain ⟨hlt, hplace⟩ := h i hi
  exact ⟨Nat.lt_of_lt_of_le hlt (Embedding.size_le_of_extends hEF.inner),
    (hEF.place i hlt).trans hplace⟩

namespace Follows

/-- When all turns are still to be taken, nodes are where they are. -/
theorem refl (hw : Seated k c w) {requiresGrad : Bool}
    (hfresh : (w.evaluator c).context = .fresh requiresGrad) :
    Follows w k c (.ofExtends hw.regular.wellFormed (.refl _)) ⟨w, []⟩ ⟨w, []⟩ where
  counterpart := ⟨rfl, rfl, hfresh ▸ .fresh _ k requiresGrad, rfl⟩
  alone := hw
  seated := hw
  strict := rfl
  told := .nil
  start _ hi := ⟨hi, rfl⟩
  placed _ := rfl

/-- A turn of the context has its counterpart. -/
theorem own (h : Follows w k c E x y) (m : Move Mention) : ∃ F, E.Extends F ∧
    Follows w k c F (x.take k (w.arena k).size (c, m)) (y.take k (w.arena k).size (c, m)) := by
  have hgiven : List.Forall₂ E.Matches (x.givenTo c) (y.givenTo c) :=
    List.rel_flatMap h.told fun _ _ hr => hr.given
  have hmove := Move.nodes?_rel (Mention.node?_rel h.start hgiven) m
  obtain ⟨F, hEF, hreply, hcounterpart⟩ := h.counterpart.reply h.alone h.seated h.strict hmove
  have htended := reply_tended k c (x.move? (w.arena k).size (c, m)) x.workspace
  have htended' := reply_tended k c (y.move? (w.arena k).size (c, m)) y.workspace
  refine ⟨F, hEF, hcounterpart, h.alone.of_tended htended, h.seated.of_tended htended',
    htended'.strict.trans (h.strict.trans htended.strict.symm), ?_,
    start_of_extends h.start hEF, fun d => (htended'.placed d).trans (h.placed d)⟩
  rw [toldTo_take, toldTo_take, if_pos rfl, if_pos rfl]
  exact List.rel_append (h.told.imp fun _ _ hr => hr.mono hEF) (.cons hreply .nil)

/-- A turn of another context, with another program, changes nothing that the context is told. -/
theorem other (h : Follows w k c E x y) (hd : d ≠ c)
    (hprogram : (w.evaluator d).program ≠ (w.evaluator c).program) (m : Move Mention) :
    ∃ F, E.Extends F ∧ Follows w k c F x (y.take k (w.arena k).size (d, m)) := by
  have htended := reply_tended k d (y.move? (w.arena k).size (d, m)) y.workspace
  obtain ⟨F, hEF, hcounterpart⟩ := h.counterpart.of_elsewhere htended hd.symm
    (by rw [h.placed, h.placed]; exact hprogram.symm)
  refine ⟨F, hEF, hcounterpart, h.alone, h.seated.of_tended htended,
    htended.strict.trans h.strict, ?_, start_of_extends h.start hEF,
    fun d => (htended.placed d).trans (h.placed d)⟩
  rw [toldTo_take, if_neg hd, List.append_nil]
  exact h.told.imp fun _ _ hr => hr.mono hEF

/-- The turns of the context are followed, whichever turns others take in between. -/
theorem foldl (h : Follows w k c E x y) {turns : List (ContextId × Move Mention)}
    (hprograms : ∀ t ∈ turns, t.1 ≠ c → (w.evaluator t.1).program ≠ (w.evaluator c).program) :
    ∃ F, E.Extends F ∧ Follows w k c F ((turnsOf c turns).foldl (take k (w.arena k).size) x)
      (turns.foldl (take k (w.arena k).size) y) := by
  -- the embedding grows with every turn; a turn of another context is taken on one side only
  induction turns generalizing E x y with
  | nil => exact ⟨E, .refl E, h⟩
  | cons t turns ih =>
    obtain ⟨d, m⟩ := t
    have hrest := fun t ht => hprograms t (List.mem_cons_of_mem (d, m) ht)
    rw [turnsOf, List.filter_cons]
    by_cases hd : d = c
    · subst hd
      obtain ⟨F, hEF, hF⟩ := h.own m
      obtain ⟨G, hFG, hG⟩ := ih hF hrest
      rw [if_pos (by simp)]
      exact ⟨G, hEF.trans hFG, hG⟩
    · obtain ⟨F, hEF, hF⟩ := h.other hd (hprograms (d, m) (List.mem_cons_self ..) hd) m
      obtain ⟨G, hFG, hG⟩ := ih hF hrest
      rw [if_neg (by simpa using hd)]
      exact ⟨G, hEF.trans hFG, hG⟩

end Follows

end Turns

/-- Among others a context is told what it is told alone, ends with the same program, and has the
same of each node, up to places of nodes that keep their order. Only nodes that were added during
the turns have other places. -/
structure Undisturbed (base : Nat) (k : ArenaId) (c : ContextId) (E : Embedding)
    (alone joint : Exchange) : Prop where
  inner : E.inner = alone.workspace.arena k
  outer : E.outer = joint.workspace.arena k
  start : ∀ i < base, i < E.inner.size ∧ E.place i = i
  told : List.Forall₂ (Reply.Matches E) (alone.toldTo c) (joint.toldTo c)
  exportText : (joint.workspace.programOf c).exportText = (alone.workspace.programOf c).exportText
  hits : (joint.workspace.programOf c).hits = (alone.workspace.programOf c).hits
  buffers : ∀ i < E.inner.size, (joint.workspace.evaluator c).context.buffer? (E.place i) =
    (alone.workspace.evaluator c).context.buffer? i
  ids : ∀ i j, E.Matches i j → (joint.workspace.evaluator c).context.evalId j =
    (alone.workspace.evaluator c).context.evalId i
  gradients : List.Forall₂ E.PairsMatch (alone.workspace.evaluator c).context.grads.toList
    (joint.workspace.evaluator c).context.grads.toList

end Exchange

/-- Contexts over one arena, with programs of their own, do not disturb each other: after any calls
that build the arena with its operators, a fresh context that takes turns with others is told in its
turns, and ends with, what it is told and ends with when it takes its turns alone. -/
theorem turns_undisturbed {k : ArenaId} {calls : List Call}
    (hcalls : ∀ call ∈ calls, call.RegularIn k) {c : ContextId}
    (hc : c < (afterAll calls).evaluators.size) {requiresGrad : Bool}
    (hfresh : ((afterAll calls).evaluator c).context = .fresh requiresGrad)
    {turns : List (ContextId × Move Mention)} (hprograms : ∀ t ∈ turns, t.1 ≠ c →
      ((afterAll calls).evaluator t.1).program ≠ ((afterAll calls).evaluator c).program) :
    ∃ E, Exchange.Undisturbed ((afterAll calls).arena k).size k c E
      (exchange k (turnsOf c turns) (afterAll calls)) (exchange k turns (afterAll calls)) := by
  have hseated : Seated k c (afterAll calls) := by
    refine ⟨hc, (afterAll_coherent calls).program_lt c hc, ?_⟩
    exact (afterAll_tallied (R := Int) ⟨id, id, id, id⟩ (fun _ => 0) hcalls c).regular
  obtain ⟨E, -, h⟩ := (Exchange.Follows.refl hseated hfresh).foldl hprograms
  have hprogram := h.counterpart.program
  refine ⟨E, ?_⟩
  exact
    { inner := h.counterpart.inner
      outer := h.counterpart.outer
      start := h.start
      told := h.told
      exportText := congrArg Program.exportText hprogram
      hits := congrArg Program.hits hprogram
      buffers := fun i hi => h.counterpart.context.buffer?_eq hi
      ids := fun i j hij => h.counterpart.context.evalId_eq hij
      gradients := h.counterpart.context.gradients }

/-- Two contexts over a parameter and its exponential. -/
def together : List Call :=
  [.newContext none true, .newContext none true, .param 0 (.shape ⟨[]⟩) none, .unary .exp ⟨0, 0⟩]

/-- Both differentiate, and then evaluate the gradients that they were given. -/
def inTurn : List (ContextId × Move Mention) :=
  [(0, .backward (.start 1) none none), (1, .backward (.start 1) none none),
    (1, .evaluate (.given 0)), (0, .evaluate (.given 0))]

theorem turns_undisturbed_together : ∃ E, Exchange.Undisturbed ((afterAll together).arena 0).size 0
    1 E (exchange 0 (turnsOf 1 inTurn) (afterAll together))
      (exchange 0 inTurn (afterAll together)) := by
  have hcalls : ∀ call ∈ together, call.RegularIn 0 := by simp [together, Call.RegularIn]
  have hprograms : ∀ t ∈ inTurn, t.1 ≠ 1 →
      ((afterAll together).evaluator t.1).program ≠ ((afterAll together).evaluator 1).program := by
    decide
  have hfresh : ((afterAll together).evaluator 1).context = .fresh true := rfl
  exact turns_undisturbed hcalls (by decide) hfresh hprograms

end Workspace

end TensorGraph
