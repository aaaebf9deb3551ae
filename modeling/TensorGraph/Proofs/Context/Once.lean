import TensorGraph.Context.Journal
import TensorGraph.Proofs.Context.Visit
import TensorGraph.Proofs.Gradient.Growth
import TensorGraph.Proofs.Gradient.Liveness

/-!
# One evaluation of each node

A context that starts at rest, with an empty program, evaluates the nodes that it is asked for in
one order: a node is appended to it when it is visited, its id is its place in it, and its operands
are there already. What observers see and what the program counts is told by the order alone.
-/

namespace TensorGraph

def Node.isLeaf (n : Node) : Bool :=
  match n.form with
  | .leaf _ => true
  | _ => false

def Arena.isLeaf (a : Arena) (i : Nat) : Bool := (a.node? i).any Node.isLeaf

namespace Lowering

/-! ### Traces and counts -/

/-- What observers of entering and leaving saw. -/
def observed (history : Array Event) : List (String × Int) :=
  history.toList.filterMap Event.observed?

/-- The ids from 1 on are entered and left, one after the other. -/
def visits (count : Nat) : List (String × Int) :=
  (List.range' 1 count).flatMap fun id : Nat => [("enter", (id : Int)), ("exit", (id : Int))]

theorem observed_push (history : Array Event) (event : Event) :
    observed (history.push event) = observed history ++ event.observed?.toList := by
  simp only [observed, Array.toList_push, List.filterMap_append]
  cases h : event.observed? <;> simp [h]

theorem visits_succ (count : Nat) : visits (count + 1) =
    visits count ++ [("enter", (count : Int) + 1), ("exit", (count : Int) + 1)] := by
  simp only [visits]
  rw [List.range'_1_concat, List.flatMap_append, List.flatMap_singleton, Nat.add_comm 1]
  rfl

/-- What an emission counts as. -/
theorem counts_of_request {strict : Bool} {memo : Nat → Option Nat} {n : Node} {x : Emit Emission}
    {p q : Program} {e : Emission} (h : request? strict memo n = some x) (hx : x p = .ok e q) :
    q.leafCount = p.leafCount + (if n.isLeaf then 1 else 0) ∧
      q.instructionCount + q.hits =
        p.instructionCount + p.hits + (if !n.isLeaf then 1 else 0) := by
  obtain ⟨form, shape, name⟩ := n
  cases form with
  | leaf k =>
    cases h
    obtain ⟨hleaves, hinstructions, hhits⟩ := Program.counts_of_alloc hx
    simp [Node.isLeaf, hleaves, hinstructions, hhits]
  | unary k y =>
    obtain ⟨u, -, rfl⟩ := Option.map_eq_some_iff.mp h
    obtain ⟨hleaves, hinstructions⟩ := Program.counts_of_emit hx
    simp [Node.isLeaf, hleaves, hinstructions]
  | binary k l r =>
    obtain ⟨u, -, hr⟩ := Option.bind_eq_some_iff.mp h
    obtain ⟨v, -, rfl⟩ := Option.map_eq_some_iff.mp hr
    obtain ⟨hleaves, hinstructions⟩ := Program.counts_of_emit hx
    simp [Node.isLeaf, hleaves, hinstructions]

/-! ### Orders of nodes -/

theorem getElem?_concat_iff {xs : List Nat} {x y m : Nat} :
    (xs ++ [x])[m]? = some y ↔ xs[m]? = some y ∨ (m = xs.length ∧ y = x) := by
  rw [List.getElem?_append]
  split
  · rename_i hm
    simp [Nat.ne_of_lt hm]
  · rename_i hm
    rw [List.getElem?_eq_none (Nat.le_of_not_lt hm), List.getElem?_singleton]
    split
    · simp
      omega
    · simp
      omega

/-- Nodes of an arena, each once and after its operands. -/
structure Ordered (a : Arena) (order : List Nat) : Prop where
  nodup : order.Nodup
  lt_size : ∀ i ∈ order, i < a.size
  operands : ∀ m i : Nat, order[m]? = some i → ∀ x ∈ a.operands i, ∃ l < m, order[l]? = some x

/-- Each node is under its place, and nothing else is there. -/
def Numbers (order : List Nat) (ids : Std.HashMap Int Nat) : Prop :=
  ∀ (i : Int) id, ids[i]? = some id ↔ ∃ m j : Nat, order[m]? = some j ∧ i = j ∧ id = m + 1

section Orders

variable {a b : Arena} {order : List Nat} {i : Nat}

theorem Ordered.mem_of_reaches (h : Ordered a order) {j : Nat} (hi : i ∈ order)
    (hr : Reaches a.operands i j) : j ∈ order := by
  induction hr with
  | refl i => exact hi
  | step hc _ ih =>
    obtain ⟨m, hm⟩ := List.mem_iff_getElem?.mp hi
    obtain ⟨l, -, hl⟩ := h.operands m _ hm _ hc
    exact ih (List.mem_of_getElem? hl)

theorem Ordered.concat (h : Ordered a order) (hi : i ∉ order) {n : Node}
    (hn : a.node? i = some n) (hoperands : ∀ x ∈ n.operands, x ∈ order) :
    Ordered a (order ++ [i]) := by
  constructor
  case nodup =>
    rw [List.nodup_append]
    refine ⟨h.nodup, by simp, fun j hj k hk hjk => hi ?_⟩
    rw [← List.mem_singleton.mp hk, ← hjk]
    exact hj
  case lt_size =>
    intro j hj
    rcases List.mem_append.mp hj with hj | hj
    · exact h.lt_size j hj
    · rw [List.mem_singleton.mp hj]
      exact Arena.lt_size_of_node? hn
  case operands =>
    intro m j hj x hx
    rcases getElem?_concat_iff.mp hj with hj | ⟨rfl, rfl⟩
    · obtain ⟨l, hlm, hl⟩ := h.operands m j hj x hx
      exact ⟨l, hlm, getElem?_concat_iff.mpr (Or.inl hl)⟩
    · rw [Arena.operands_of_node? hn] at hx
      obtain ⟨l, hl⟩ := List.mem_iff_getElem?.mp (hoperands x hx)
      exact ⟨l, (List.getElem?_eq_some_iff.mp hl).1, getElem?_concat_iff.mpr (Or.inl hl)⟩

/-- Growth of the arena does not matter. -/
theorem Ordered.extends (h : Ordered a order) (hab : a.Extends b) : Ordered b order := by
  constructor
  case nodup => exact h.nodup
  case lt_size =>
    intro i hi
    obtain ⟨n, hn⟩ := Arena.exists_node? (h.lt_size i hi)
    exact Arena.lt_size_of_node? (hab i n hn)
  case operands =>
    intro m i hi x hx
    rw [Arena.operands_of_extends hab (h.lt_size i (List.mem_of_getElem? hi))] at hx
    exact h.operands m i hi x hx

theorem isLeaf_of_extends (hab : a.Extends b) (hi : i < a.size) : b.isLeaf i = a.isLeaf i := by
  obtain ⟨n, hn⟩ := Arena.exists_node? hi
  simp only [Arena.isLeaf, hn, hab i n hn]

theorem Numbers.none {ids : Std.HashMap Int Nat} (h : Numbers order ids) (hi : i ∉ order) :
    ids[(i : Int)]? = none := by
  cases hid : ids[(i : Int)]? with
  | none => rfl
  | some id =>
    obtain ⟨m, j, hj, hij, -⟩ := (h i id).mp hid
    obtain rfl := Int.natCast_inj.mp hij
    exact absurd (List.mem_of_getElem? hj) hi

theorem Numbers.concat {ids : Std.HashMap Int Nat} (h : Numbers order ids) (hi : i ∉ order) :
    Numbers (order ++ [i]) (ids.insert i (order.length + 1)) := by
  intro j id
  simp only [Std.HashMap.getElem?_insert, getElem?_concat_iff, beq_iff_eq]
  by_cases hj : (i : Int) = j
  · rw [if_pos hj, Option.some.injEq]
    constructor
    · rintro rfl
      exact ⟨order.length, i, Or.inr ⟨rfl, rfl⟩, hj.symm, rfl⟩
    · rintro ⟨m, k, hk | ⟨rfl, -⟩, hjk, rfl⟩
      · obtain rfl := Int.natCast_inj.mp (hj.trans hjk)
        exact absurd (List.mem_of_getElem? hk) hi
      · rfl
  · rw [if_neg hj, h j id]
    constructor
    · rintro ⟨m, k, hk, hjk, rfl⟩
      exact ⟨m, k, Or.inl hk, hjk, rfl⟩
    · rintro ⟨m, k, hk | ⟨rfl, rfl⟩, hjk, rfl⟩
      · exact ⟨m, k, hk, hjk, rfl⟩
      · exact absurd hjk.symm hj

end Orders

/-! ### Evaluation -/

/-- The nodes evaluated so far, in order, and what is known of them. -/
structure Once (a : Arena) (before : List (String × Int)) (order : List Nat) (s : Lowering) :
    Prop where
  ordered : Ordered a order
  known : ∀ i : Int, i ∈ s.context.values ↔ ∃ j : Nat, j ∈ order ∧ i = j
  ids : Numbers order s.context.ids
  counter : s.context.counter = order.length
  idle : s.context.Idle
  trace : observed s.history = before ++ visits order.length
  leaves : s.program.leafCount = order.countP a.isLeaf
  operators : s.program.instructionCount + s.program.hits = order.countP fun i => !a.isLeaf i

namespace Once

variable {a b : Arena} {before : List (String × Int)} {order : List Nat} {s t : Lowering}
  {strict : Bool}

theorem buffer?_isSome (h : Once a before order s) {i : Nat} :
    (s.context.buffer? i).isSome ↔ i ∈ order := by
  rw [Context.buffer?, Std.HashMap.isSome_getElem?_iff_mem, h.known]
  constructor
  · rintro ⟨j, hj, hij⟩
    exact Int.natCast_inj.mp hij ▸ hj
  · exact fun hi => ⟨i, hi, rfl⟩

/-- A new context over a new program. -/
theorem fresh (a : Arena) (requiresGrad : Bool) (history : Array Event) :
    Once a (observed history) [] ⟨.fresh requiresGrad, {}, history⟩ := by
  constructor
  case ordered => exact ⟨List.nodup_nil, by simp, by simp⟩
  case known =>
    intro i
    simp [Context.fresh]
  case ids =>
    intro i id
    simp [Context.fresh]
  case counter => rfl
  case idle =>
    intro id
    simp [Context.fresh]
  case trace => exact (List.append_nil _).symm
  case leaves => rfl
  case operators => rfl

/-- The id of a node is its place in the order. -/
theorem evalId (h : Once a before order s) {m i : Nat} (hi : order[m]? = some i) :
    s.context.evalId i = m + 1 := by
  have hid := (h.ids i (m + 1)).mpr ⟨m, i, hi, rfl, rfl⟩
  rw [Context.evalId, Std.HashMap.getD_eq_getD_getElem?, hid, Option.getD_some]

/-- A node that was not evaluated gets the next id. -/
theorem idOf_new (h : Once a before order s) {i : Nat} (hi : i ∉ order) :
    s.context.idOf i = (order.length + 1,
      { s.context with
        counter := order.length + 1
        ids := s.context.ids.insert i (order.length + 1) }) := by
  have hnone := h.ids.none hi
  have hcounter := h.counter
  simp only [Context.idOf, hnone, Context.makeId, hcounter]

/-- Evaluating a node that was not evaluated appends it. -/
theorem evaluateNode (h : Once a before order s) {i : Nat} (hi : i ∉ order)
    (hok : Lowering.evaluateNode strict a i s = .ok () t) : Once a before (order ++ [i]) t := by
  obtain ⟨n, x, e, q, hn, hask, hx, rfl⟩ := exists_of_evaluateNode_ok h.idle hok
  rw [Arena.at?_ofNat] at hn
  have hnew := h.idOf_new hi
  have hleaf : a.isLeaf i = n.isLeaf := by simp [Arena.isLeaf, hn]
  obtain ⟨hleaves, hoperators⟩ := counts_of_request hask hx
  constructor
  case ordered =>
    refine h.ordered.concat hi hn fun x hx => ?_
    exact h.buffer?_isSome.mp (operands_of_request hask x hx)
  case known =>
    intro j
    rw [values_visited, Std.HashMap.mem_insert, h.known]
    simp only [List.mem_append, List.mem_singleton, beq_iff_eq]
    grind
  case ids =>
    simp only [visited, exit, entered, numbered, hnew]
    exact h.ids.concat hi
  case counter =>
    simp only [visited, exit, entered, numbered, hnew, List.length_append, List.length_singleton]
  case idle => exact idle_visited i e q s h.idle
  case trace =>
    simp only [visited, exit, entered, numbered, hnew, observed_push, h.trace,
      List.length_append, List.length_singleton, visits_succ]
    simp [Event.observed?]
  case leaves =>
    rw [List.countP_append, List.countP_singleton, hleaf, ← h.leaves]
    exact hleaves
  case operators =>
    rw [List.countP_append, List.countP_singleton, hleaf, ← h.operators]
    exact hoperators

/-- Evaluating nodes that were not evaluated, each once, appends them. -/
theorem evaluateNodes (h : Once a before order s) {todo : List Nat} (hnodup : todo.Nodup)
    (hnew : ∀ i ∈ todo, i ∉ order)
    (hok : (todo.map Int.ofNat).forM (Lowering.evaluateNode strict a) s = .ok () t) :
    Once a before (order ++ todo) t := by
  induction todo generalizing order s with
  | nil =>
    cases hok
    rwa [List.append_nil]
  | cons i todo ih =>
    obtain ⟨hi, hnodup⟩ := List.nodup_cons.mp hnodup
    obtain ⟨u, s', hfirst, hrest⟩ := exists_of_bind_ok hok
    have hstep := h.evaluateNode (hnew i (List.mem_cons_self ..)) hfirst
    rw [List.append_cons]
    refine ih hstep hnodup (fun j hj hmem => ?_) hrest
    rcases List.mem_append.mp hmem with hmem | hmem
    · exact hnew j (List.mem_cons_of_mem i hj) hmem
    · rw [List.mem_singleton.mp hmem] at hj
      exact hi hj

/-- Evaluating an expression appends what it reaches, as far as that was not evaluated. -/
theorem evaluate (h : Once a before order s) (ha : a.WellFormed) {root : Nat} {b : Nat}
    (hok : Lowering.evaluate strict a root s = .ok b t) :
    ∃ order', Once a before order' t ∧
      ∀ i, i ∈ order' ↔ i ∈ order ∨ Reaches a.operands root i := by
  cases hroot : s.context.buffer? root with
  | some b' =>
    rw [evaluate_of_known hroot] at hok
    cases hok
    have hmem : root ∈ order := h.buffer?_isSome.mp (by rw [hroot]; rfl)
    refine ⟨order, h, fun i => ⟨Or.inl, ?_⟩⟩
    rintro (hi | hi)
    · exact hi
    · exact h.ordered.mem_of_reaches hmem hi
  | none =>
    obtain ⟨todo, htodo, hrun⟩ := exists_of_evaluate_ok ha hroot hok
    have hdone := h.evaluateNodes htodo.nodup
      (fun i hi hmem => by simpa [htodo.unknown i hi] using h.buffer?_isSome.mpr hmem) hrun
    refine ⟨order ++ todo, hdone, fun i => ?_⟩
    rw [List.mem_append]
    constructor
    · exact Or.imp_right (htodo.reached i)
    · rintro (hi | hi)
      · exact Or.inl hi
      · have hmem : root ∈ order ++ todo := List.mem_append.mpr (Or.inr htodo.root_mem)
        exact List.mem_append.mp (hdone.ordered.mem_of_reaches hmem hi)

/-- The arena may grow, and what else the context keeps may change. -/
theorem mono (h : Once a before order s) (hab : a.Extends b)
    (hcontext : s.context.KeepsEvaluations t.context) (hprogram : t.program = s.program)
    (hhistory : t.history = s.history) : Once b before order t := by
  have hleaf : ∀ i ∈ order, b.isLeaf i = a.isLeaf i := fun i hi =>
    isLeaf_of_extends hab (h.ordered.lt_size i hi)
  constructor
  case ordered => exact h.ordered.extends hab
  case known =>
    rw [hcontext.values]
    exact h.known
  case ids =>
    rw [hcontext.ids]
    exact h.ids
  case counter => rw [hcontext.counter, h.counter]
  case idle =>
    rw [Context.Idle, hcontext.active]
    exact h.idle
  case trace => rw [hhistory, h.trace]
  case leaves =>
    rw [hprogram, h.leaves]
    exact List.countP_congr fun i hi => by rw [hleaf i hi]
  case operators =>
    rw [hprogram, h.operators]
    exact List.countP_congr fun i hi => by rw [hleaf i hi]

end Once

end Lowering

end TensorGraph
