import Mathlib.Data.List.Nodup
import TensorGraph.Proofs.Graph.Reach
import TensorGraph.Proofs.Workspace.Effect
import TensorGraph.Proofs.Workspace.Walking

/-!
# Below an expression

An expression has itself below it and all that its operands lead to. Where operands were given as
plain integers, its arena knows which parameters these are, and asking for them gives a new handle
of each.
-/

namespace TensorGraph.Workspace

/-- An expression is one that another one leads to through operands. -/
def Below (w : Workspace) (x e : Expr) : Prop :=
  e = x ∨ ∃ n, w.arenas.node? x = some n ∧ e.arena = x.arena ∧ ∃ c ∈ n.operands, ∃ j : Nat,
    e.index = j ∧ Reaches (w.arena x.arena).operands c j

/-- An expression refers to a parameter. -/
def IsParameter (w : Workspace) (e : Expr) : Prop :=
  ∃ n, w.arenas.node? e = some n ∧ n.kind = .param

/-- The parameters below an expression, as its arena tells them. -/
def parametersUnder (w : Workspace) (x : Expr) : List Expr :=
  (w.arenas.parametersOf x).toOption.getD []

variable {w : Workspace} {a : Address} {x e : Expr} {n : Node}

/-! ### What the arena tells -/

theorem of?_eq_arena (hn : w.arenas.node? x = some n) :
    w.arenas.of? x = some (w.arena x.arena) := by
  obtain ⟨b, hb, -⟩ := Option.bind_eq_some_iff.mp hn
  rw [Arenas.of?] at hb ⊢
  rw [arena, Array.getD_eq_getD_getElem?, hb, Option.getD_some]

theorem isParam_iff (k : ArenaId) (i : Int) :
    (w.arena k).isParam i = true ↔ w.IsParameter ⟨k, i⟩ := by
  simp only [IsParameter, node?_eq_at?, Arena.isParam]
  cases (w.arena k).at? i <;> simp

theorem below_of_isParameter (hx : w.IsParameter x) : w.Below x e ↔ e = x := by
  obtain ⟨n, hn, hkind⟩ := hx
  rw [Below, or_iff_left]
  rintro ⟨n', hn', -, c, hc, -⟩
  rw [hn] at hn'
  cases hn'
  rw [n.operands_of_param hkind] at hc
  cases hc

/-- All that is below an expression, operands first. -/
theorem exists_order (hw : (w.arena x.arena).WellFormed) (hn : w.arenas.node? x = some n) :
    ∃ order, (w.arena x.arena).toposort? x.index = some order ∧ order.Nodup ∧
      (∀ i, i ∈ order ↔ w.Below x ⟨x.arena, i⟩) ∧
      ∀ i ∈ order, ∃ m, w.arenas.node? ⟨x.arena, i⟩ = some m := by
  have hat : (w.arena x.arena).at? x.index = some n := (node?_eq_at? w x).symm.trans hn
  obtain ⟨order, horder, hnodup, hmem⟩ := Arena.toposort?_handle hw hat
  refine ⟨order, horder, hnodup, fun i => ?_, fun i hi => ?_⟩
  · rw [hmem, Below]
    simp only [hn, Option.some.injEq, exists_eq_left', true_and]
    refine or_congr_left ?_
    constructor
    · rintro rfl
      rfl
    · intro hi
      exact congrArg Expr.index hi
  · rw [node?_eq_at?]
    exact Option.isSome_iff_exists.mp (Arena.at?_isSome_of_toposort? hw horder i hi)

theorem parametersUnder_eq (hn : w.arenas.node? x = some n) {order : List Int}
    (horder : (w.arena x.arena).toposort? x.index = some order) :
    w.parametersUnder x =
      (order.filter (w.arena x.arena).isParam).map fun i => ⟨x.arena, i⟩ := by
  simp only [parametersUnder, Arenas.parametersOf, of?_eq_arena hn, Option.bind_some,
    Arena.parameters?, horder, Option.map_some]
  rfl

section Telling

variable (hw : (w.arena x.arena).WellFormed) (hn : w.arenas.node? x = some n)

include hw hn

theorem mem_parametersUnder : e ∈ w.parametersUnder x ↔ w.Below x e ∧ w.IsParameter e := by
  obtain ⟨order, horder, -, hmem, -⟩ := exists_order hw hn
  rw [parametersUnder_eq hn horder, List.mem_map]
  constructor
  · rintro ⟨i, hi, rfl⟩
    obtain ⟨hi, hparam⟩ := List.mem_filter.mp hi
    exact ⟨(hmem i).mp hi, (isParam_iff x.arena i).mp hparam⟩
  · rintro ⟨hbelow, hparam⟩
    obtain ⟨k, i⟩ := e
    have hk : k = x.arena := by
      rcases hbelow with rfl | ⟨-, -, hk, -⟩
      · rfl
      · exact hk
    subst hk
    exact ⟨i, List.mem_filter.mpr ⟨(hmem i).mpr hbelow, (isParam_iff _ i).mpr hparam⟩, rfl⟩

/-- A parameter has only itself below it. -/
theorem parametersUnder_of_isParameter (hx : w.IsParameter x) : w.parametersUnder x = [x] := by
  obtain ⟨order, horder, hnodup, -⟩ := exists_order hw hn
  have hmem : ∀ e, e ∈ w.parametersUnder x ↔ e = x := by
    intro e
    rw [mem_parametersUnder hw hn, below_of_isParameter hx]
    constructor
    · exact And.left
    · rintro rfl
      exact ⟨rfl, hx⟩
  have hdistinct : (w.parametersUnder x).Nodup := by
    rw [parametersUnder_eq hn horder]
    exact List.Nodup.map (fun i j hij => congrArg Expr.index hij) (hnodup.filter _)
  exact List.perm_singleton.mp ((List.perm_ext_iff_of_nodup hdistinct (by simp)).mpr (by simpa))

end Telling

/-! ### What is asked for -/

/-- A visitor meets a node in the group that its arena tells. -/
theorem visitGroup_ok {k : ArenaId} {i : Int} (hn : w.arenas.node? ⟨k, i⟩ = some n) :
    visitGroup (.arena k) (.int i) w = .ok ((w.arena k).visitOf i) w := by
  have hreferent : referent call ⟨.arena k, .int i⟩ w = .ok (.node ⟨k, i⟩ n) w :=
    map_of_ok (getNode_ok hn) (Referent.node ⟨k, i⟩)
  have hat : (w.arena k).at? i = some n := (node?_eq_at? w ⟨k, i⟩).symm.trans hn
  refine (bind_of_ok hreferent).trans ?_
  simp only [Arena.visitOf, hat, Option.map_some]
  by_cases hparam : n.kind = .param
  · rw [if_pos hparam, hparam]
    rfl
  · by_cases hzero : n.kind = .zero
    · rw [if_neg hparam, if_pos hzero, hzero]
      rfl
    · rw [if_neg hparam, if_neg hzero]
      split
      · rename_i hkind
        exact absurd (Option.some.inj hkind) hparam
      · rename_i hkind
        exact absurd (Option.some.inj hkind) hzero
      · rfl

theorem visitOf_eq_param (b : Arena) (i : Int) : (b.visitOf i == "param") = b.isParam i := by
  simp only [Arena.visitOf, Arena.isParam]
  cases (b.at? i).map Node.kind with
  | none => rfl
  | some kind => cases kind with
    | leaf l => cases l <;> rfl
    | unary u => rfl
    | binary u => rfl

theorem mapM_map_of_ok {α β γ : Type} {f : α → Work β} {h : γ → α} {g : γ → β} {xs : List γ}
    (hall : ∀ x ∈ xs, f (h x) w = .ok (g x) w) : (xs.map h).mapM f w = .ok (xs.map g) w := by
  induction xs with
  | nil => rfl
  | cons x xs ih =>
    rw [List.map_cons, List.mapM_cons]
    have hrest := ih fun y hy => hall y (List.mem_cons_of_mem x hy)
    exact (bind_of_ok (hall x (List.mem_cons_self ..))).trans (bind_of_ok hrest)

/-- New objects are stored one after the other. -/
theorem mapM_alloc {α : Type} {P : Object → Prop} {f : α → Work Address} {object : α → Object}
    (hf : ∀ x w, f x w = .ok w.heap.size { w with heap := (w.heap.alloc (object x)).2 })
    (hP : ∀ x, P (object x)) (xs : List α) (w : Workspace) :
    ∃ items w', xs.mapM f w = .ok items w' ∧ w.Adds P w' ∧
      List.Forall₂ (fun a x => w'.heap.get? a = some (object x)) items xs := by
  induction xs generalizing w with
  | nil => exact ⟨[], w, rfl, .refl P w, .nil⟩
  | cons x xs ih =>
    obtain ⟨items, w', hrest, hadds, hitems⟩ :=
      ih { w with heap := (w.heap.alloc (object x)).2 }
    refine ⟨w.heap.size :: items, w', ?_, .trans (.alloc w (hP x)) hadds, .cons ?_ hitems⟩
    · rw [List.mapM_cons]
      exact (bind_of_ok (hf x w)).trans (bind_of_ok hrest)
    · exact hadds.objects.get?_eq ((Heap.get?_alloc ..).trans (if_pos rfl))

theorem map_eq_map_of_forall₂ {α β γ : Type} {f : α → γ} {g : β → γ} {xs : List α} {ys : List β}
    (h : List.Forall₂ (fun x y => f x = g y) xs ys) : xs.map f = ys.map g := by
  rw [← List.forall₂_eq_eq_eq, List.forall₂_map_left_iff, List.forall₂_map_right_iff]
  exact h

/-- Expressions are held by new objects. -/
theorem mapM_holdHandle (es : List Expr) (w : Workspace) :
    ∃ items w', (es.map Handle.ofExpr).mapM holdHandle w = .ok items w' ∧
      w.Adds Object.IsBare w' ∧ items.map w'.heap.expr? = es.map some := by
  have hbare : ∀ e : Expr, Object.IsBare (.expr e) := fun e => .inr ⟨e, rfl⟩
  obtain ⟨items, w', hrun, hadds, hitems⟩ :=
    mapM_alloc (f := fun e => holdHandle (.ofExpr e)) hold_eq hbare es w
  refine ⟨items, w', ?_, hadds, map_eq_map_of_forall₂ (hitems.imp fun _ _ ha => ?_)⟩
  · rw [List.mapM_map]
    exact hrun
  · exact Heap.expr?_eq_some_iff.mpr ha

theorem orderInArena_ok (hn : w.arenas.node? x = some n) {known : Nat → Bool} {order : List Int}
    (horder : (w.arena x.arena).reach? known x.index = some order) :
    orderInArena x known w = .ok (order.map .int) w := by
  simp only [orderInArena, of?_eq_arena hn, Option.bind_some, horder]

section Asking

variable (hplain : w.operandForms.isEmpty = true) (hw : (w.arena x.arena).WellFormed)
  (hn : w.arenas.node? x = some n)

include hplain hw hn

omit hw in
/-- What is below an expression is in the order that its arena tells. -/
theorem orderBelow_ok {order : List Int}
    (horder : (w.arena x.arena).toposort? x.index = some order) :
    orderBelow (.ofExpr x) w = .ok (order.map .int) w := by
  have hforms : hasPlainOperands w = .ok true w := by rw [hasPlainOperands, hplain]
  exact (bind_of_ok hforms).trans (orderInArena_ok hn horder)

/-- A visitor meets what is below an expression in that order, each node in its group. -/
theorem visitsBelow_ok {order : List Int}
    (horder : (w.arena x.arena).toposort? x.index = some order) :
    visitsBelow (.ofExpr x) w =
      .ok (order.map fun i => ((w.arena x.arena).visitOf i, .int i)) w := by
  refine (bind_of_ok (orderBelow_ok hplain hn horder)).trans (mapM_map_of_ok fun i hi => ?_)
  have hthere := Arena.at?_isSome_of_toposort? hw horder i hi
  obtain ⟨m, hm⟩ := Option.isSome_iff_exists.mp hthere
  exact bind_of_ok (visitGroup_ok ((node?_eq_at? w ⟨x.arena, i⟩).trans hm))

/-- The parameters below an expression are those that its arena tells. -/
theorem parametersBelow_ok :
    parametersBelow (.ofExpr x) w = .ok ((w.parametersUnder x).map .ofExpr) w := by
  obtain ⟨order, horder, -⟩ := exists_order hw hn
  have hgroup : ((fun v : String × Index => v.1 == "param") ∘
      fun i => ((w.arena x.arena).visitOf i, Index.int i)) = (w.arena x.arena).isParam :=
    funext fun i => visitOf_eq_param (w.arena x.arena) i
  refine (bind_of_ok (visitsBelow_ok hplain hw hn horder)).trans ?_
  rw [List.filter_map, hgroup, List.map_map, parametersUnder_eq hn horder, List.map_map]
  rfl

/-- Asking a handle for the parameters below it gives a new handle of each. -/
theorem parametersOf_ok (ha : w.heap.get? a = some (.expr x)) : ∃ items w',
    parametersOf a w = .ok items w' ∧ w.Adds Object.IsBare w' ∧
      items.map w'.heap.expr? = (w.parametersUnder x).map some := by
  obtain ⟨items, w', hhold, hadds, hitems⟩ := mapM_holdHandle (w.parametersUnder x) w
  exact ⟨items, w', (bind_of_ok (asking_handle?_expr ha)).trans
    ((bind_of_ok (parametersBelow_ok hplain hw hn)).trans hhold), hadds, hitems⟩

end Asking

end TensorGraph.Workspace
