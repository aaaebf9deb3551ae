import TensorGraph.Proofs.Workspace.Call
import TensorGraph.Proofs.Workspace.Pile

/-!
# Traversals

However an arena was built, and whatever failed on the way, a node has a higher number than its
operands. So the numbers below a handle, ascending, have each node after all that it is computed
from and the handle itself at the end. A visitor meets the nodes in this order, and the parameters
are met in it, too.
-/

namespace TensorGraph

namespace Heap

variable {h : Heap} {l : Address}

theorem mapM_valueWithin? {depth : Nat} (hdepth : 0 < depth) {items : List Address}
    {vs : List Value} (hitems : List.Forall₂ (fun a v => h.get? a = some (.value v)) items vs) :
    items.mapM (h.valueWithin? depth) = some vs := by
  obtain ⟨depth, rfl⟩ := Nat.exists_eq_succ_of_ne_zero (Nat.ne_of_gt hdepth)
  induction hitems with
  | nil => rfl
  | cons ha _ ih =>
    rw [List.mapM_cons, ih]
    simp only [valueWithin?, ha, value?]
    rfl

/-- A list of values is read as these. -/
theorem wholeValue?_list {items : List Address} {vs : List Value}
    (hl : h.get? l = some (.list items))
    (hitems : List.Forall₂ (fun a v => h.get? a = some (.value v)) items vs) :
    h.wholeValue? l = some (.list vs) := by
  obtain ⟨hsize, -⟩ := Array.getElem?_eq_some_iff.mp hl
  have hread := mapM_valueWithin? (Nat.zero_lt_of_lt hsize) hitems
  simp only [wholeValue?, valueWithin?, hl]
  exact congrArg (Value.list <$> ·) hread

end Heap

namespace Workspace

variable {w : Workspace} {a : Address} {k : ArenaId} {x : Expr} {n : Node}

/-! ### What calls leave alone -/

/-- The objects are the same, and so is what is noted about operands. -/
def SameObjects (w w' : Workspace) : Prop :=
  w'.heap = w.heap ∧ w'.operandForms = w.operandForms

instance : IsPreorder Workspace SameObjects where
  refl _ := ⟨rfl, rfl⟩
  trans _ _ _ huv hvw := ⟨hvw.1.trans huv.1, hvw.2.trans huv.2⟩

/-- Calls on expressions touch no object. -/
theorem carryOut_objects (call : Call) : Keeps SameObjects call.carryOut := by
  have hbuild : ∀ (k : ArenaId) (x : Build Nat), Keeps SameObjects (Workspace.building k x) :=
    building_frame fun _ _ => ⟨rfl, rfl⟩
  have hemit : ∀ (p : ProgramId) (x : Emit Emission), Keeps SameObjects (emitting p x) :=
    emitting_frame fun _ _ _ => ⟨rfl, rfl⟩
  have hcontext : ∀ {α : Type} (c : ContextId) (x : EStateM Error Context α),
      Keeps SameObjects (inContext c x) := inContext_frame fun _ _ => ⟨rfl, rfl⟩
  have hlower : ∀ {α : Type} (c : ContextId) (x : Lower α), Keeps SameObjects (lowering c x) :=
    lowering_frame fun _ _ _ _ => ⟨rfl, rfl⟩
  cases call with
  | newArena => exact fun w => ⟨rfl, rfl⟩
  | newProgram => exact fun w => ⟨rfl, rfl⟩
  | newContext program requiresGrad =>
    cases program with
    | some p => exact fun w => ⟨rfl, rfl⟩
    | none => exact fun w => ⟨rfl, rfl⟩
  | setStrict strict => exact fun w => ⟨rfl, rfl⟩
  | param k shape name => exact Keeps.discard fun w => hbuild k _ w
  | zero k shape => exact Keeps.discard fun w => hbuild k _ w
  | addNode k kind operands shape name => exact Keeps.discard (hbuild k _)
  | unary k e => exact Keeps.discard (hbuild e.arena _)
  | binary op l r =>
    exact Keeps.discard (Keeps.bind (rightOperand_keeps l r) fun e => hbuild l.arena _)
  | alloc p shape isZero => exact Keeps.discard (hemit p _)
  | emit p op shape source1 source2 => exact Keeps.discard fun w => hemit p _ w
  | evaluate c o =>
    refine Keeps.discard (Keeps.bind (hcontext c _) fun e w => ?_)
    simp only [evaluateExpr]
    split
    · exact Std.Refl.refl w
    · exact hlower c _ w
  | backward c output seed wrt =>
    refine Keeps.discard fun w => ?_
    obtain ⟨_, _, hafter, _⟩ := differentiating_after c output.arena
      (Differentiation.backward output seed wrt) w
    rw [differentiate, hafter]
    exact ⟨rfl, rfl⟩
  | enter c id => exact hlower c _
  | exit c id => exact hlower c fun s => .ok () (s.exit id)
  | makeId c => exact Keeps.discard (hcontext c _)
  | reset c => exact Keeps.bind (fun w => ⟨rfl, rfl⟩) fun p w => ⟨rfl, rfl⟩

theorem after_objects (call : Call) (w : Workspace) : w.SameObjects (w.after call) := by
  simp only [after]
  split
  · exact carryOut_objects call w
  · exact Std.Refl.refl w

/-! ### Runs -/

/-- A call, or a new handle of an expression. -/
inductive Step where
  | call (call : Call)
  | hold (e : Expr)

/-- The workspace after a step, whatever its outcome. -/
def afterStep (w : Workspace) : Step → Workspace
  | .call call => w.after call
  | .hold e => stateAfter (hold e w)

/-- The workspace after one step after the other, from a new one. -/
def afterSteps (steps : List Step) : Workspace := steps.foldl afterStep start

/-- Arenas grow and objects stay, and nothing new is noted about operands. -/
structure Proceeds (w w' : Workspace) : Prop where
  arenas : w.ArenasBy Arena.Grows w'
  objects : ∀ a o, w.heap.get? a = some o → w'.heap.get? a = some o
  forms : w'.operandForms = w.operandForms

instance : IsPreorder Workspace Proceeds where
  refl w := ⟨Std.Refl.refl w, fun _ _ ho => ho, rfl⟩
  trans _ _ _ huv hvw := by
    constructor
    · exact IsTrans.trans _ _ _ huv.arenas hvw.arenas
    · intro a o ho
      exact hvw.objects a o (huv.objects a o ho)
    · exact hvw.forms.trans huv.forms

theorem afterStep_proceeds (step : Step) (w : Workspace) : w.Proceeds (w.afterStep step) := by
  cases step with
  | call call =>
    obtain ⟨hheap, hforms⟩ := after_objects call w
    refine ⟨after_grows call w, fun a o ho => ?_, hforms⟩
    rw [afterStep, hheap]
    exact ho
  | hold e =>
    have hadds := (Adds.alloc (P := Object.IsBare) w (.inr ⟨e, rfl⟩)).objects
    exact ⟨arenasBy_of_eq rfl, fun a o ho => hadds.get?_eq ho, rfl⟩

/-- A run only adds to what is there. -/
theorem foldl_proceeds (steps : List Step) (w : Workspace) :
    w.Proceeds (steps.foldl afterStep w) := by
  induction steps generalizing w with
  | nil => exact Std.Refl.refl w
  | cons step steps ih => exact IsTrans.trans _ _ _ (afterStep_proceeds step w) (ih _)

/-- All operands have numbers below those of their users, and were given as plain integers. -/
structure Traversable (w : Workspace) : Prop where
  wellFormed : ∀ k, (w.arena k).WellFormed
  plain : w.operandForms.isEmpty = true

theorem traversable_start : start.Traversable := by
  refine ⟨fun k => ?_, Std.HashMap.isEmpty_empty⟩
  rw [arena_start]
  exact Arena.wellFormed_empty

theorem Traversable.of_proceeds {w' : Workspace} (h : w.Traversable) (hw' : w.Proceeds w') :
    w'.Traversable := by
  refine ⟨fun k => (hw'.arenas k).2 (h.wellFormed k), ?_⟩
  rw [hw'.forms]
  exact h.plain

theorem afterSteps_traversable (steps : List Step) : (afterSteps steps).Traversable :=
  traversable_start.of_proceeds (foldl_proceeds steps start)

/-! ### What a handle answers -/

section Asking

variable (hplain : w.operandForms.isEmpty = true) (hw : (w.arena x.arena).WellFormed)
  (ha : w.heap.get? a = some (.expr x)) (hn : w.arenas.node? x = some n) {order : List Int}
  (horder : (w.arena x.arena).toposort? x.index = some order)

include hplain hw ha hn horder

omit hw in
/-- Asking a handle for what is below it gives a list of the numbers that its arena tells. -/
theorem toposort_ok : ∃ l w', toposort a w = .ok l w' ∧
    w'.heap.wholeValue? l = some (.list (order.map .int)) := by
  have hbelow := orderBelow_ok hplain hn horder
  obtain ⟨items, w', hstore, -, hitems⟩ :=
    mapM_alloc (P := Object.IsValue) (f := fun i : Int => indexObject (.int i))
      (fun _ _ => rfl) (fun i => ⟨.int i, rfl⟩) order w
  refine ⟨w'.heap.size, { w' with heap := (w'.heap.alloc (.list items)).2 }, ?_, ?_⟩
  · refine (bind_of_ok (asking_handle?_expr ha)).trans ((bind_of_ok hbelow).trans ?_)
    rw [List.mapM_map]
    exact bind_of_ok hstore
  · have hlist := Heap.get?_alloc w'.heap (.list items) w'.heap.size
    rw [if_pos rfl] at hlist
    apply Heap.wholeValue?_list hlist
    rw [List.forall₂_map_right_iff]
    apply hitems.imp
    intro b i hb
    have hbelow : b < w'.heap.size := (Array.getElem?_eq_some_iff.mp hb).1
    rw [Heap.get?_alloc, if_neg (Nat.ne_of_lt hbelow)]
    exact hb

/-- A visitor meets what is below a handle in that order, each node in its group. -/
theorem visits_ok :
    visits a w = .ok (order.map fun i => ((w.arena x.arena).visitOf i, .int i)) w :=
  (bind_of_ok (asking_handle?_expr ha)).trans (visitsBelow_ok hplain hw hn horder)

end Asking

/-! ### Exact traversals -/

/-- What is below the handle at `a`, of node `i` of an arena, is `order`, however it is asked for. -/
structure Traversal (w : Workspace) (a : Address) (k : ArenaId) (i : Nat) (order : List Nat) :
    Prop where
  ascending : order.Pairwise (· < ·)
  reached : ∀ j, j ∈ order ↔ Reaches (w.arena k).operands i j
  root_last : order.getLast? = some i
  operands_first : ∀ before j after, order = before ++ j :: after →
    ∀ c ∈ (w.arena k).operands j, c ∈ before
  listed : ∃ l w', toposort a w = .ok l w' ∧
    w'.heap.wholeValue? l = some (.list (order.map fun j : Nat => .int j))
  /-- A search by a pile ends, too, as soon as it may take a step for each node of the arena. -/
  searched : ∀ bound, (w.arena k).size < bound →
    orderByPile ⟨.arena k, .int i⟩ (fun _ => return false) bound w =
      .ok (order.map fun j : Nat => .int j) w
  visited : visits a w = .ok (order.map fun j : Nat => ((w.arena k).visitOf j, .int j)) w
  parameters : ∃ items w', parametersOf a w = .ok items w' ∧ items.map w'.heap.expr? =
    (order.filter fun j : Nat => (w.arena k).isParam j).map fun j => some ⟨k, j⟩

/-- A pile finds what is below a node in the order that the arena tells. -/
theorem Traversable.orderByPile_ok (h : w.Traversable) {i : Nat} (hi : i < (w.arena k).size)
    {order : List Nat} (horder : (w.arena k).toposort? i = some (order.map Int.ofNat)) {bound : Nat}
    (hbound : (w.arena k).size < bound) :
    orderByPile ⟨.arena k, .int i⟩ (fun _ => return false) bound w =
      .ok (order.map fun j : Nat => .int j) w := by
  obtain ⟨n, hn⟩ := Arena.exists_node? hi
  have hforms : ∀ j : Nat, w.operandForms[(⟨k, j⟩ : Expr)]? = none := fun j =>
    Std.HashMap.getElem?_of_isEmpty h.plain
  rw [orderByPile_eq (fun _ => rfl) (h.wellFormed k) hforms hi hbound,
    orderInArena_ok (x := ⟨k, i⟩) (node?_ofNat.mpr hn) horder, List.map_map]
  rfl

/-- After any run, also one in which calls failed, traversing a handle of a node is exact: it gives
the node and all that it is computed from, ascending, so that each comes after its operands. -/
theorem traversal_exact (steps : List Step) {i : Nat}
    (ha : (afterSteps steps).heap.get? a = some (.expr ⟨k, i⟩))
    (hi : i < ((afterSteps steps).arena k).size) :
    ∃ order, (afterSteps steps).Traversal a k i order := by
  have h := afterSteps_traversable steps
  -- of the run only this matters: operands are below their users
  generalize afterSteps steps = w at h ha hi ⊢
  obtain ⟨n, hn⟩ := Arena.exists_node? hi
  have hnode := (node?_ofNat (k := k)).mpr hn
  have hw := h.wellFormed k
  have hlt : ∀ j, ∀ c ∈ (w.arena k).operands j, c < j := fun j c hc => hw.operand_lt hc
  obtain ⟨order, horder, hascending, hmem⟩ := Arena.toposort?_spec hw hn
  refine ⟨order, ?_⟩
  constructor
  case ascending => exact hascending
  case reached => exact hmem
  case root_last => exact getLast?_of_reaches hlt hascending hmem
  case operands_first =>
    intro before j after hsplit c hc
    exact mem_before_of_reaches hlt hascending hmem hsplit hc
  case listed =>
    obtain ⟨l, w', hrun, hvalue⟩ := toposort_ok h.plain ha hnode horder
    refine ⟨l, w', hrun, ?_⟩
    rw [hvalue, List.map_map]
    rfl
  case searched =>
    intro bound hbound
    exact h.orderByPile_ok hi horder hbound
  case visited =>
    rw [visits_ok h.plain hw ha hnode horder, List.map_map]
    rfl
  case parameters =>
    obtain ⟨items, w', hrun, -, hitems⟩ := parametersOf_ok h.plain hw hnode ha
    refine ⟨items, w', hrun, ?_⟩
    rw [hitems, parametersUnder_eq hnode horder, List.filter_map, List.map_map, List.map_map]
    rfl

/-- A product of a parameter with itself, and a handle of it. -/
def heldSquare : List Step :=
  [.call (.param 0 (.shape ⟨[2]⟩) (some "x")),
    .call (.binary .mul ⟨0, 0⟩ (.expr ⟨0, 0⟩)),
    .hold ⟨0, 1⟩]

/-- A node with an operand that is not there is refused, and the product is differentiated. -/
def squareSteps : List Step :=
  heldSquare ++
    [.call (.addNode 0 (.binary .add) [1, 2] (.shape ⟨[2]⟩) none),
      .call (.newContext none true),
      .call (.backward 0 (.expr ⟨0, 1⟩) none none)]

theorem squareSteps_proceeds : (afterSteps heldSquare).Proceeds (afterSteps squareSteps) := by
  rw [afterSteps, afterSteps, squareSteps, List.foldl_append]
  exact foldl_proceeds _ _

/-- The handle that was held first has two nodes below it, whatever came after it. -/
theorem traversal_exact_square :
    (afterSteps squareSteps).heap.get? 2 = some (.expr ⟨0, (1 : Nat)⟩) ∧
      1 < ((afterSteps squareSteps).arena 0).size ∧
      (afterSteps squareSteps).Traversal 2 0 1 [0, 1] := by
  have hheld : (afterSteps heldSquare).heap.get? 2 = some (.expr ⟨0, (1 : Nat)⟩) := rfl
  have hlater := squareSteps_proceeds
  have ha := hlater.objects _ _ hheld
  have hsquare := (hlater.arenas 0).1 1 _ rfl
  have hi := Arena.lt_size_of_node? hsquare
  have hx : ((afterSteps squareSteps).arena 0).operands 0 = [] :=
    Arena.operands_of_node? ((hlater.arenas 0).1 0 _ rfl)
  have hproduct : ((afterSteps squareSteps).arena 0).operands 1 = [0, 0] :=
    Arena.operands_of_node? hsquare
  obtain ⟨order, horder⟩ := traversal_exact squareSteps ha hi
  have hmem : ∀ j, j ∈ order ↔ j ∈ [0, 1] := by
    intro j
    rw [horder.reached, reaches_iff, hproduct]
    simp only [List.mem_cons, List.not_mem_nil, or_false, or_self, exists_eq_left]
    rw [reaches_iff, hx]
    simp only [List.not_mem_nil, false_and, exists_false, or_false]
    omega
  have hsorted : order = [0, 1] := horder.ascending.sortedLT.eq_of_mem_iff (by decide) hmem
  subst hsorted
  exact ⟨ha, hi, horder⟩

end Workspace

end TensorGraph
