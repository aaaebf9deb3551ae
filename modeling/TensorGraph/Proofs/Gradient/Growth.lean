import TensorGraph.Gradient.Backward
import TensorGraph.Proofs.Graph.Growth

/-!
# What a backward pass leaves alone

A pass appends nodes to the arena and writes gradients. Whatever it is asked for, and where it
fails, the nodes that were there stay, and so do the values that the context remembers. A context
that was bound stays bound to its arena.
-/

namespace TensorGraph

namespace Pass

/-- Only the arena grows; the tables of the pass are free. -/
def Grows (s t : Pass) : Prop := s.arena.GrowsUniformly t.arena

instance : IsPreorder Pass Grows where
  refl s := Std.Refl.refl s.arena
  trans _ _ _ hst htu := IsTrans.trans (r := Arena.GrowsUniformly) _ _ _ hst htu

theorem building_keeps {α : Type} {x : Build α} (h : Keeps Arena.GrowsUniformly x) :
    Keeps Grows (building x) := by
  rintro ⟨arena, grads, pending, found⟩
  have ha := h arena
  simp only [building]
  cases hx : x arena with
  | ok v b =>
    rw [hx] at ha
    exact ha
  | error e b =>
    rw [hx] at ha
    exact ha

theorem take_keeps (i : Int) : Keeps Grows (take i) := fun s => Std.Refl.refl s.arena

theorem send_keeps (i g : Int) : Keeps Grows (send i g) := fun s => Std.Refl.refl s.arena

theorem find_keeps (i g : Int) : Keeps Grows (find i g) := fun s => Std.Refl.refl s.arena

theorem total_keeps (i g : Int) : Keeps Grows (total i g) := by
  refine Keeps.bind (fun s => Std.Refl.refl s) fun old => ?_
  cases old with
  | none => exact Keeps.bind (fun s => Std.Refl.refl s.arena) fun _ => Keeps.pure g
  | some old =>
    refine Keeps.bind (building_keeps (Arena.sum_keeps _)) fun sum => ?_
    exact Keeps.bind (fun s => Std.Refl.refl s.arena) fun _ => Keeps.pure sum

theorem sendByRules_keeps (live : Std.HashSet Int) (i g : Int) (rules : List (Nat × Recipe)) :
    Keeps Grows (sendByRules live i g rules) := by
  refine Keeps.forM rules fun ⟨x, recipe⟩ _ => ?_
  dsimp only
  split
  · refine Keeps.bind (building_keeps (Arena.carryOut_keeps g i Int.ofNat recipe)) fun h => ?_
    exact send_keeps x h
  · exact Keeps.pure ()

theorem sendUnchanged_keeps (live : Std.HashSet Int) (g : Int) (operands : List Nat) :
    Keeps Grows (sendUnchanged live g operands) := by
  refine Keeps.forM operands fun x _ => ?_
  split
  · exact send_keeps x g
  · exact Keeps.pure ()

theorem meet_keeps (live : Std.HashSet Int) (i : Int) : Keeps Grows (meet live i) := by
  refine Keeps.bind (take_keeps i) fun contributions => ?_
  split
  · exact Keeps.pure ()
  · refine Keeps.bind (building_keeps (Arena.sum_keeps contributions)) fun g => ?_
    refine Keeps.bind (total_keeps i g) fun sum => ?_
    refine Keeps.bind (building_keeps (Arena.nodeAt_keeps i)) fun n => ?_
    refine Keeps.bind (building_keeps (Keeps.map _ (Arena.nodeAt_keeps g))) fun kind => ?_
    split
    · exact find_keeps i sum
    · split
      · exact sendUnchanged_keeps live g n.operands
      · exact sendByRules_keeps live i g n.form.rules

end Pass

/-- A context that was bound stays so, and its values stay the same. -/
def Context.Rebinds (c d : Context) : Prop :=
  d.values = c.values ∧ ∀ a, c.arena = some a → d.arena = some a

/-- A context keeps its gradients, and its arena when it is bound. -/
def Context.KeepsGradients (c d : Context) : Prop :=
  d.grads = c.grads ∧ ∀ a, c.arena = some a → d.arena = some a

/-- A context keeps what it evaluated, and its arena when it is bound. -/
structure Context.KeepsEvaluations (c d : Context) : Prop where
  values : d.values = c.values
  ids : d.ids = c.ids
  counter : d.counter = c.counter
  active : d.active = c.active
  bound : ∀ a, c.arena = some a → d.arena = some a

/-- A context changes in what it is bound to and in its gradients only. -/
def Context.Regraded (c d : Context) : Prop := ∃ arena grads, d = { c with arena, grads }

instance : IsPreorder Context Context.Regraded where
  refl c := ⟨c.arena, c.grads, rfl⟩
  trans _ _ _ hcd hde := by
    obtain ⟨_, _, rfl⟩ := hcd
    obtain ⟨arena, grads, rfl⟩ := hde
    exact ⟨arena, grads, rfl⟩

instance : IsPreorder Context Context.KeepsEvaluations where
  refl _ := ⟨rfl, rfl, rfl, rfl, fun _ h => h⟩
  trans _ _ _ hcd hde :=
    ⟨hde.values.trans hcd.values, hde.ids.trans hcd.ids, hde.counter.trans hcd.counter,
      hde.active.trans hcd.active, fun a h => hde.bound a (hcd.bound a h)⟩

instance : IsPreorder Context Context.Rebinds where
  refl _ := ⟨rfl, fun _ h => h⟩
  trans _ _ _ hcd hde := ⟨hde.1.trans hcd.1, fun a h => hde.2 a (hcd.2 a h)⟩

instance : IsPreorder Context Context.KeepsGradients where
  refl _ := ⟨rfl, fun _ h => h⟩
  trans _ _ _ hcd hde := ⟨hde.1.trans hcd.1, fun a h => hde.2 a (hcd.2 a h)⟩

/-- What a context can be asked about. -/
def Context.Admits (c : Context) (o : Operand) (e : Expr) : Prop :=
  o = .expr e ∧ ∀ a, c.arena = some a → a = e.arena

/-- A context gets bound to the arena of what it admits, and refuses anything else. -/
theorem Context.bind_cases (o : Operand) (c : Context) :
    (∃ e, c.Admits o e ∧ Context.bind o c = .ok e { c with arena := some e.arena }) ∨
      ((∀ e, ¬c.Admits o e) ∧ ∃ err, Context.bind o c = .error err c) := by
  cases o with
  | other type =>
    refine Or.inr ⟨?_, _, rfl⟩
    rintro e ⟨h, -⟩
    cases h
  | expr e =>
    simp only [Context.bind, Admits]
    cases hc : c.arena with
    | none => exact Or.inl ⟨e, ⟨rfl, by simp⟩, rfl⟩
    | some a =>
      by_cases ha : a = e.arena
      · refine Or.inl ⟨e, ⟨rfl, fun b hb => (Option.some.inj hb).symm.trans ha⟩, ?_⟩
        have hsame : { c with arena := some e.arena } = c := by rw [← ha, ← hc]
        simp only [if_pos ha, hsame]
      · refine Or.inr ⟨?_, .foreignContext, by simp only [if_neg ha]⟩
        rintro e' ⟨he, hbound⟩
        cases he
        exact ha (hbound a rfl)

theorem Context.bind_keeps (o : Operand) : Keeps Context.Rebinds (Context.bind o) := by
  intro c
  rcases bind_cases o c with ⟨e, hadmits, h⟩ | ⟨-, err, h⟩
  · rw [h]
    exact ⟨rfl, fun a ha => congrArg some (hadmits.2 a ha).symm⟩
  · rw [h]
    exact Std.Refl.refl c

theorem Context.bind_gradients (o : Operand) : Keeps Context.KeepsGradients (Context.bind o) := by
  intro c
  rcases bind_cases o c with ⟨e, hadmits, h⟩ | ⟨-, err, h⟩
  · rw [h]
    exact ⟨rfl, fun a ha => congrArg some (hadmits.2 a ha).symm⟩
  · rw [h]
    exact Std.Refl.refl c

theorem Context.bind_evaluations (o : Operand) :
    Keeps Context.KeepsEvaluations (Context.bind o) := by
  intro c
  rcases bind_cases o c with ⟨e, hadmits, h⟩ | ⟨-, err, h⟩
  · rw [h]
    exact ⟨rfl, rfl, rfl, rfl, fun a ha => congrArg some (hadmits.2 a ha).symm⟩
  · rw [h]
    exact Std.Refl.refl c

namespace Differentiation

def Grows (s t : Differentiation) : Prop :=
  s.arena.GrowsUniformly t.arena ∧ s.context.Rebinds t.context

/-- What the checks of a pass do, before the pass proper: gradients stay, too. -/
def Prepares (s t : Differentiation) : Prop :=
  s.Grows t ∧ s.context.KeepsGradients t.context

instance : IsPreorder Differentiation Grows where
  refl s := ⟨Std.Refl.refl s.arena, Std.Refl.refl s.context⟩
  trans _ _ _ hst htu := ⟨IsTrans.trans _ _ _ hst.1 htu.1, IsTrans.trans _ _ _ hst.2 htu.2⟩

instance : IsPreorder Differentiation Prepares where
  refl s := ⟨Std.Refl.refl s, Std.Refl.refl s.context⟩
  trans _ _ _ hst htu := ⟨IsTrans.trans _ _ _ hst.1 htu.1, IsTrans.trans _ _ _ hst.2 htu.2⟩

theorem building_keeps {α : Type} {x : Build α} (h : Keeps Arena.GrowsUniformly x) :
    Keeps Prepares (building x) := by
  rintro ⟨arena, context⟩
  have ha := h arena
  simp only [building]
  cases hx : x arena with
  | ok v b =>
    rw [hx] at ha
    exact ⟨⟨ha, Std.Refl.refl context⟩, Std.Refl.refl context⟩
  | error e b =>
    rw [hx] at ha
    exact ⟨⟨ha, Std.Refl.refl context⟩, Std.Refl.refl context⟩

theorem bind_keeps (o : Operand) : Keeps Prepares (Differentiation.bind o) := by
  rintro ⟨arena, context⟩
  have hc := Context.bind_keeps o context
  have hg := Context.bind_gradients o context
  simp only [Differentiation.bind, inContext]
  cases hx : Context.bind o context with
  | ok v d =>
    rw [hx] at hc hg
    exact ⟨⟨Std.Refl.refl arena, hc⟩, hg⟩
  | error e d =>
    rw [hx] at hc hg
    exact ⟨⟨Std.Refl.refl arena, hc⟩, hg⟩

theorem expect_keeps (kind : Kind) (i : Int) : Keeps Prepares (expect kind i) := by
  intro s
  simp only [expect]
  cases s.arena.expect kind i with
  | ok u => exact Std.Refl.refl s
  | error e => exact Std.Refl.refl s

theorem seedFor_keeps (output : Int) (seed : Option Operand) :
    Keeps Prepares (seedFor output seed) := by
  have hnode : ∀ i, Keeps Prepares (building (Arena.nodeAt i)) := fun i =>
    building_keeps (Arena.nodeAt_keeps i)
  simp only [seedFor]
  cases seed with
  | none =>
    refine Keeps.bind (hnode output) fun n => ?_
    exact Keeps.bind (building_keeps (Arena.leaf_keeps .param _ _)) fun i => Keeps.pure _
  | some o =>
    refine Keeps.bind (bind_keeps o) fun e => Keeps.bind (hnode e.index) fun m => ?_
    refine Keeps.bind (hnode output) fun n => ?_
    split
    · exact Keeps.throw _
    · exact Keeps.pure _

theorem targetsOf_keeps (wrt : List Operand) : Keeps Prepares (targetsOf wrt) := by
  refine Keeps.foldlM wrt _ fun targets o _ => Keeps.bind (bind_keeps o) fun e => ?_
  exact Keeps.bind (expect_keeps .param e.index) fun _ => Keeps.pure _

theorem run_keeps (output seed : Int) (targets : Option (Std.HashSet Int)) :
    Keeps Grows (run output seed targets) := by
  rintro ⟨arena, context⟩
  simp only [run]
  cases arena.toposort? output with
  | none => exact Std.Refl.refl _
  | some order =>
    have hpass : Keeps Pass.Grows (order.reverse.forM (Pass.meet (arena.live targets order))) :=
      Keeps.forM order.reverse fun i _ => Pass.meet_keeps _ i
    have hgrows := hpass
      ⟨arena, context.grads, (∅ : Std.HashMap Int (List Int)).insert output [seed], #[]⟩
    dsimp only
    split
    · rename_i hx
      rw [hx] at hgrows
      exact ⟨hgrows, rfl, fun _ h => h⟩
    · rename_i hx
      rw [hx] at hgrows
      exact ⟨hgrows, rfl, fun _ h => h⟩

theorem prepares_grows {α : Type} {x : Differentiate α} (h : Keeps Prepares x) : Keeps Grows x :=
  fun s => (h s).1

/-- Whatever is asked for, a backward pass only appends nodes, and values stay remembered. -/
theorem backward_keeps (output : Operand) (seed : Option Operand) (wrt : Option (List Operand)) :
    Keeps Grows (backward output seed wrt) := by
  refine Keeps.bind Keeps.get fun s => ?_
  dsimp only
  split
  · -- the error is followed by the rest of the pass, which never runs
    intro t
    exact Std.Refl.refl t
  · refine Keeps.bind (prepares_grows (bind_keeps output)) fun e => ?_
    refine Keeps.bind (prepares_grows (seedFor_keeps e.index seed)) fun g => ?_
    cases wrt with
    | none => exact run_keeps e.index g none
    | some ps =>
      refine Keeps.bind (Keeps.map _ (prepares_grows (targetsOf_keeps ps))) fun targets => ?_
      exact run_keeps e.index g targets

/-! ### The context of a pass -/

section Contexts

variable {R : Context → Context → Prop}

/-- What relates the contexts before and after. -/
def ContextBy (R : Context → Context → Prop) (s t : Differentiation) : Prop := R s.context t.context

theorem bind_context {o : Operand} (h : Keeps R (Context.bind o)) :
    Keeps (ContextBy R) (Differentiation.bind o) := by
  rintro ⟨arena, context⟩
  have hc := h context
  simp only [Differentiation.bind, inContext]
  cases hx : Context.bind o context with
  | ok v d =>
    rw [hx] at hc
    exact hc
  | error e d =>
    rw [hx] at hc
    exact hc

variable [IsPreorder Context R]

instance : IsPreorder Differentiation (ContextBy R) where
  refl s := Std.Refl.refl s.context
  trans _ _ _ hst htu := IsTrans.trans (r := R) _ _ _ hst htu

theorem building_context {α : Type} (x : Build α) : Keeps (ContextBy R) (building x) := by
  rintro ⟨arena, context⟩
  simp only [building]
  cases x arena with
  | ok v b => exact Std.Refl.refl context
  | error e b => exact Std.Refl.refl context

theorem expect_context (kind : Kind) (i : Int) : Keeps (ContextBy R) (expect kind i) := by
  intro s
  simp only [expect]
  cases s.arena.expect kind i with
  | ok u => exact Std.Refl.refl s
  | error e => exact Std.Refl.refl s

theorem run_context (h : ∀ c grads, R c { c with grads }) (output seed : Int)
    (targets : Option (Std.HashSet Int)) : Keeps (ContextBy R) (run output seed targets) := by
  rintro ⟨arena, context⟩
  simp only [run]
  cases arena.toposort? output with
  | none => exact Std.Refl.refl context
  | some order =>
    dsimp only
    split
    · exact h context _
    · exact h context _

theorem seedFor_context (hbind : ∀ o, Keeps R (Context.bind o)) (output : Int)
    (seed : Option Operand) : Keeps (ContextBy R) (seedFor output seed) := by
  simp only [seedFor]
  cases seed with
  | none =>
    refine Keeps.bind (building_context _) fun n => ?_
    exact Keeps.bind (building_context _) fun j => Keeps.pure _
  | some o =>
    refine Keeps.bind (bind_context (hbind o)) fun e => ?_
    refine Keeps.bind (building_context _) fun m => Keeps.bind (building_context _) fun n => ?_
    split
    · exact Keeps.throw _
    · exact Keeps.pure _

theorem targetsOf_context (hbind : ∀ o, Keeps R (Context.bind o)) (wrt : List Operand) :
    Keeps (ContextBy R) (targetsOf wrt) := by
  refine Keeps.foldlM wrt _ fun targets o _ => Keeps.bind (bind_context (hbind o)) fun e => ?_
  exact Keeps.bind (expect_context .param e.index) fun _ => Keeps.pure _

/-- A pass binds its context and writes gradients into it, and nothing else. -/
theorem backward_context (hbind : ∀ o, Keeps R (Context.bind o))
    (hgrads : ∀ c grads, R c { c with grads }) (output : Operand) (seed : Option Operand)
    (wrt : Option (List Operand)) : Keeps (ContextBy R) (backward output seed wrt) := by
  refine Keeps.bind Keeps.get fun s => ?_
  dsimp only
  split
  · intro t
    exact Std.Refl.refl t
  · refine Keeps.bind (bind_context (hbind output)) fun e =>
      Keeps.bind (seedFor_context hbind e.index seed) fun g => ?_
    cases wrt with
    | none => exact run_context hgrads e.index g none
    | some ps =>
      refine Keeps.bind (Keeps.map _ (targetsOf_context hbind ps)) fun targets => ?_
      exact run_context hgrads e.index g targets

end Contexts

theorem backward_regraded (output : Operand) (seed : Option Operand) (wrt : Option (List Operand)) :
    Keeps (ContextBy Context.Regraded) (backward output seed wrt) := by
  refine backward_context (fun o c => ?_) (fun c grads => ⟨c.arena, grads, rfl⟩) output seed wrt
  rcases Context.bind_cases o c with ⟨e, -, h⟩ | ⟨-, err, h⟩
  · rw [h]
    exact ⟨some e.arena, c.grads, rfl⟩
  · rw [h]
    exact Std.Refl.refl c

end Differentiation

end TensorGraph
