import TensorGraph.Proofs.Context.Visit
import TensorGraph.Proofs.Gradient.Ledger
import TensorGraph.Proofs.Gradient.Parallel

/-!
# Counterparts of contexts

A context has a counterpart over an arena in which its own one stands: what it keeps of a node, the
counterpart keeps of the place of the node. Evaluating corresponding nodes then visits corresponding
nodes in the same order, so both ask the same of their programs, and stay counterparts.
-/

namespace TensorGraph

namespace Embedding

variable {β γ : Type} {E F : Embedding} {S : β → γ → Prop} {m : Int → Option β}
  {m' : Int → Option γ} {i j : Int} {b : β} {c : γ}

/-- Tables have entries at corresponding nodes only, and these correspond. -/
structure Carries (E : Embedding) (S : β → γ → Prop) (m : Int → Option β) (m' : Int → Option γ) :
    Prop where
  forth : ∀ i b, m i = some b → ∃ j c, E.Matches i j ∧ S b c ∧ m' j = some c
  back : ∀ j c, m' j = some c → ∃ i b, E.Matches i j ∧ S b c ∧ m i = some b

namespace Carries

theorem empty (hm : ∀ i, m i = none) (hm' : ∀ i, m' i = none) : E.Carries S m m' where
  forth i _ hb := absurd ((hm i).symm.trans hb) nofun
  back j _ hc := absurd ((hm' j).symm.trans hc) nofun

/-- Entries of corresponding nodes correspond. -/
theorem rel (h : E.Carries S m m') (hij : E.Matches i j) : Option.Rel S (m i) (m' j) := by
  cases hb : m i with
  | some b =>
    obtain ⟨j', c, hij', hbc, hc⟩ := h.forth i b hb
    rw [E.biUnique.2 hij hij', hc]
    exact .some hbc
  | none =>
    cases hc : m' j with
    | none => exact .none
    | some c =>
      obtain ⟨i', b, hij', -, hb'⟩ := h.back j c hc
      rw [E.biUnique.1 hij' hij, hb] at hb'
      cases hb'

theorem eq {m' : Int → Option β} (h : E.Carries Eq m m') (hij : E.Matches i j) : m' j = m i := by
  have hrel := h.rel hij
  generalize m i = b at hrel
  generalize m' j = c at hrel
  cases hrel with
  | none => rfl
  | some heq => rw [heq]

theorem mono {S' : β → γ → Prop} (h : E.Carries S m m') (hEF : E.Extends F)
    (hS : ∀ b c, S b c → S' b c) : F.Carries S' m m' where
  forth i b hb := by
    obtain ⟨j, c, hij, hbc, hc⟩ := h.forth i b hb
    exact ⟨j, c, hij.mono hEF, hS b c hbc, hc⟩
  back j c hc := by
    obtain ⟨i, b, hij, hbc, hb⟩ := h.back j c hc
    exact ⟨i, b, hij.mono hEF, hS b c hbc, hb⟩

/-- Corresponding entries may be put in for corresponding nodes. -/
theorem insert {m m' : Std.HashMap Int β} (h : E.Carries Eq (m[·]?) (m'[·]?))
    (hij : E.Matches i j) (b : β) :
    E.Carries Eq ((m.insert i b)[·]?) ((m'.insert j b)[·]?) where
  forth x y hy := by
    simp only [Std.HashMap.getElem?_insert, beq_iff_eq] at hy ⊢
    by_cases hix : i = x
    · rw [if_pos hix] at hy
      exact ⟨j, y, hix ▸ hij, rfl, (if_pos rfl).trans hy⟩
    · rw [if_neg hix] at hy
      obtain ⟨z, y, hxz, rfl, hz⟩ := h.forth x y hy
      refine ⟨z, _, hxz, rfl, (if_neg fun hjz => hix ?_).trans hz⟩
      exact E.biUnique.1 hij (hjz ▸ hxz)
  back z y hy := by
    simp only [Std.HashMap.getElem?_insert, beq_iff_eq] at hy ⊢
    by_cases hjz : j = z
    · rw [if_pos hjz] at hy
      exact ⟨i, y, hjz ▸ hij, rfl, (if_pos rfl).trans hy⟩
    · rw [if_neg hjz] at hy
      obtain ⟨x, y, hxz, rfl, hx⟩ := h.back z y hy
      refine ⟨x, _, hxz, rfl, (if_neg fun hix => hjz ?_).trans hx⟩
      exact E.biUnique.2 hij (hix ▸ hxz)

end Carries

end Embedding

/-- A context and one over an arena in which its own one stands, which keeps the same of the places
of nodes. -/
structure Context.Counterpart (E : Embedding) (k : ArenaId) (c d : Context) : Prop where
  arena : d.arena = c.arena
  bound : ∀ b, c.arena = some b → b = k
  requiresGrad : d.requiresGrad = c.requiresGrad
  counter : d.counter = c.counter
  idle : c.Idle
  idle' : d.Idle
  ids : E.Carries Eq (c.ids[·]?) (d.ids[·]?)
  values : E.Carries Eq (c.values[·]?) (d.values[·]?)
  grads : E.Carries E.Matches c.grads.get? d.grads.get?
  keys : List.Forall₂ E.Matches c.grads.keys.toList d.grads.keys.toList
  shaped : E.inner.Shaped c.grads

namespace Context.Counterpart

variable {E F : Embedding} {k : ArenaId} {c d : Context} {i j : Int}

theorem fresh (E : Embedding) (k : ArenaId) (requiresGrad : Bool) :
    (Context.fresh requiresGrad).Counterpart E k (.fresh requiresGrad) where
  arena := rfl
  bound := nofun
  requiresGrad := rfl
  counter := rfl
  idle _ := Std.HashSet.not_mem_empty
  idle' _ := Std.HashSet.not_mem_empty
  ids := .empty (fun _ => Std.HashMap.getElem?_empty) fun _ => Std.HashMap.getElem?_empty
  values := .empty (fun _ => Std.HashMap.getElem?_empty) fun _ => Std.HashMap.getElem?_empty
  grads := .empty Table.get?_empty Table.get?_empty
  keys := .nil
  shaped i _ hg := absurd ((Table.get?_empty i).symm.trans hg) nofun

theorem mono (h : c.Counterpart E k d) (hEF : E.Extends F) : c.Counterpart F k d where
  arena := h.arena
  bound := h.bound
  requiresGrad := h.requiresGrad
  counter := h.counter
  idle := h.idle
  idle' := h.idle'
  ids := h.ids.mono hEF fun _ _ => id
  values := h.values.mono hEF fun _ _ => id
  grads := h.grads.mono hEF fun _ _ hgh => hgh.mono hEF
  keys := Embedding.forall₂_mono hEF h.keys
  shaped := h.shaped.of_extends hEF.inner

/-- Both contexts may be bound to the arena. -/
theorem bind (h : c.Counterpart E k d) :
    Counterpart E k { c with arena := some k } { d with arena := some k } :=
  { h with
    arena := rfl
    bound := fun _ hb => (Option.some.inj hb).symm }

/-- Corresponding nodes have the same id, also when it is new. -/
theorem idOf (h : c.Counterpart E k d) (hij : E.Matches i j) :
    (d.idOf j).1 = (c.idOf i).1 ∧ (c.idOf i).2.Counterpart E k (d.idOf j).2 := by
  have hid := h.ids.eq hij
  simp only [Context.idOf, hid, Context.makeId, h.counter]
  cases c.ids[i]? with
  | some id => exact ⟨rfl, h⟩
  | none => exact ⟨rfl, { h with counter := rfl, ids := h.ids.insert hij _ }⟩

/-- Corresponding nodes may be remembered with one buffer. -/
theorem memoize (h : c.Counterpart E k d) (hij : E.Matches i j) (b : Nat) :
    Counterpart E k { c with values := c.values.insert i b }
      { d with values := d.values.insert j b } :=
  { h with values := h.values.insert hij b }

/-- All ids may be left. -/
theorem rest (h : c.Counterpart E k d) {active active' : Std.HashSet Int}
    (hidle : ∀ id, id ∉ active) (hidle' : ∀ id, id ∉ active') :
    Counterpart E k { c with active } { d with active := active' } :=
  { h with idle := hidle, idle' := hidle' }

theorem buffer?_eq (h : c.Counterpart E k d) {i : Nat} (hi : i < E.inner.size) :
    d.buffer? (E.place i) = c.buffer? i :=
  h.values.eq (Embedding.matches_place hi)

theorem evalId_eq (h : c.Counterpart E k d) (hij : E.Matches i j) : d.evalId j = c.evalId i := by
  rw [evalId, evalId, Std.HashMap.getD_eq_getD_getElem?, Std.HashMap.getD_eq_getD_getElem?,
    h.ids.eq hij]

end Context.Counterpart

namespace Lowering

/-- Counterparts that evaluate into the same program, whatever happened before. -/
structure Counterpart (E : Embedding) (k : ArenaId) (s t : Lowering) : Prop where
  context : s.context.Counterpart E k t.context
  program : t.program = s.program

variable {E : Embedding} {k : ArenaId} {s t : Lowering}

/-- A renamed node asks for the same emission, its operands having the same buffers. -/
theorem request?_rename {strict : Bool} {memo memo' : Nat → Option Nat} {place : Nat → Nat}
    {n : Node} (h : ∀ x ∈ n.operands, memo' (place x) = memo x) :
    request? strict memo' (n.rename place) = request? strict memo n := by
  obtain ⟨form, shape, name⟩ := n
  cases form with
  | leaf k => rfl
  | unary k x =>
    have hx := h x (by simp [Node.operands, Form.operands])
    simp only [request?, Node.rename, Form.rename, hx]
  | binary k l r =>
    have hl := h l (by simp [Node.operands, Form.operands])
    have hr := h r (by simp [Node.operands, Form.operands])
    simp only [request?, Node.rename, Form.rename, hl, hr]

namespace Counterpart

theorem left (h : s.Counterpart E k t) {i j : Int} (hij : E.Matches i j) (q : Program) :
    Counterpart E k (left i q s) (left j q t) :=
  ⟨(h.context.idOf hij).2.rest (idle_left i q s h.context.idle)
    (idle_left j q t h.context.idle'), rfl⟩

theorem visited (h : s.Counterpart E k t) {i j : Int} (hij : E.Matches i j) (e : Emission)
    (q : Program) : Counterpart E k (visited i e q s) (visited j e q t) := by
  refine ⟨?_, rfl⟩
  rw [context_visited, context_visited]
  exact (h.left hij q).context.memoize hij e.id

/-- A node whose operands are remembered is evaluated as its place is. -/
theorem evaluateNode (h : s.Counterpart E k t) (strict : Bool) {i : Nat} (hi : i < E.inner.size)
    (hoperands : ∀ x ∈ E.inner.operands i, (s.context.buffer? x).isSome = true) :
    Agree Eq (Counterpart E k) (evaluateNode strict E.inner i s)
      (evaluateNode strict E.outer (E.place i) t) := by
  obtain ⟨n, hn⟩ := Arena.exists_node? hi
  rw [Arena.operands_of_node? hn] at hoperands
  obtain ⟨x, hask⟩ := exists_request strict hoperands
  have hask' : request? strict t.context.buffer? (n.rename E.place) = some x := by
    rw [← hask]
    exact request?_rename fun y hy => h.context.buffer?_eq
      (Nat.lt_trans (E.wellFormed i n hn y hy) hi)
  have hat : E.inner.at? i = some n := by rw [Arena.at?_ofNat, hn]
  have hat' : E.outer.at? (E.place i) = some (n.rename E.place) := by
    rw [Arena.at?_ofNat, E.node hn]
  have hij := Embedding.matches_place hi
  rw [evaluateNode_eq h.context.idle hat hask, evaluateNode_eq h.context.idle' hat' hask',
    h.program]
  cases x s.program with
  | ok e q => exact .ok rfl (h.visited hij e q)
  | error e q => exact .error e (h.left hij q)

/-- Nodes in ascending order whose operands are remembered or among them are evaluated as their
places are. -/
theorem evaluateNodes (h : s.Counterpart E k t) (strict : Bool) {todo : List Nat}
    (hascending : todo.Pairwise (· < ·)) (hlt : ∀ i ∈ todo, i < E.inner.size)
    (hclosed : ∀ i ∈ todo, ∀ x ∈ E.inner.operands i,
      (s.context.buffer? x).isSome = true ∨ x ∈ todo) :
    Agree Eq (Counterpart E k) ((todo.map Int.ofNat).forM (Lowering.evaluateNode strict E.inner) s)
      (((todo.map E.place).map Int.ofNat).forM (Lowering.evaluateNode strict E.outer) t) := by
  induction todo generalizing s t with
  | nil => exact .ok rfl h
  | cons i todo ih =>
    have hoperands := operands_of_least hclosed E.wellFormed hascending
    have hfirst := h.evaluateNode strict (hlt i (List.mem_cons_self ..)) hoperands
    rw [List.map_cons, List.map_cons, List.map_cons, Int.ofNat_eq_natCast, Int.ofNat_eq_natCast]
    generalize hrun : Lowering.evaluateNode strict E.inner i s = outcome at hfirst
    generalize hrun' : Lowering.evaluateNode strict E.outer (E.place i) t = outcome' at hfirst
    cases hfirst with
    | error e hafter =>
      rw [forM_cons_of_error hrun, forM_cons_of_error hrun']
      exact .error e hafter
    | ok _ hafter =>
      rw [forM_cons_of_ok hrun, forM_cons_of_ok hrun']
      refine ih hafter (List.pairwise_cons.mp hascending).2
        (fun j hj => hlt j (List.mem_cons_of_mem i hj))
        (closed_of_remembered hclosed fun x hx => ?_)
      have hone : ([i].map Int.ofNat).forM (Lowering.evaluateNode strict E.inner) s = .ok () _ :=
        forM_cons_of_ok hrun
      refine remembered_of_evaluateNodes_ok h.context.idle hone x (hx.imp_left ?_)
      exact List.mem_singleton.mpr

/-- What is not remembered of the operands of a node is so at its place. -/
theorem openOperands (h : s.Counterpart E k t) {i : Nat} (hi : i < E.inner.size) :
    E.outer.openOperands (fun x => (t.context.buffer? x).isSome) (E.place i) =
      (E.inner.openOperands (fun x => (s.context.buffer? x).isSome) i).map E.place := by
  simp only [Arena.openOperands, Embedding.operands_place hi, List.filter_map]
  refine congrArg (List.map E.place) (List.filter_congr fun x hx => ?_)
  rw [Function.comp_apply, h.context.buffer?_eq (Embedding.operand_lt hi hx)]

/-- The work list of a node lists at its place the places of the nodes. -/
theorem pending (h : s.Counterpart E k t) (hwell : E.outer.WellFormed) {i : Nat}
    (hi : i < E.inner.size) {order : List Nat}
    (horder : Lowering.pending s.context E.inner i = some (order.map Int.ofNat)) :
    Lowering.pending t.context E.outer (E.place i) =
      some ((order.map E.place).map Int.ofNat) := by
  obtain ⟨order₁, horder₁, hascending, hmem⟩ := pending_spec s.context E.wellFormed hi
  obtain rfl : order₁ = order := by
    rw [horder] at horder₁
    exact List.map_injective_iff.mpr Int.ofNat_injective (Option.some.inj horder₁).symm
  obtain ⟨order', horder', hascending', hmem'⟩ :=
    pending_spec t.context hwell (Embedding.place_lt hi)
  have hlt : ∀ j ∈ order₁, j < E.inner.size := fun j hj =>
    Embedding.lt_of_reaches hi (((hmem j).mp hj).mono (Arena.openOperands_subset _ _))
  rw [horder', eq_map_of_mem_iff hascending hascending' (fun _ _ j hj hij =>
    E.ascending hij (hlt j hj)) fun m => ?_]
  rw [hmem', reaches_place_iff (fun _ hx _ hc => Embedding.operand_lt hx
    (Arena.openOperands_subset _ _ _ _ hc)) (fun _ hx => h.openOperands hx) hi]
  exact exists_congr fun j => and_congr_left fun _ => (hmem j).symm

/-- Corresponding nodes are evaluated alike. -/
theorem evaluate (h : s.Counterpart E k t) (strict : Bool) (hwell : E.outer.WellFormed) {i : Nat}
    (hi : i < E.inner.size) :
    Agree Eq (Counterpart E k) (evaluate strict E.inner i s)
      (evaluate strict E.outer (E.place i) t) := by
  have hplace := h.context.buffer?_eq hi
  cases hb : s.context.buffer? i with
  | some b =>
    rw [hb] at hplace
    rw [evaluate_of_known hb, evaluate_of_known hplace]
    exact .ok rfl h
  | none =>
    rw [hb] at hplace
    obtain ⟨order, horder, hpending⟩ := exists_pending E.wellFormed hi hb
    have hlt : ∀ j ∈ order, j < E.inner.size := fun j hj =>
      Embedding.lt_of_reaches hi (hpending.reached j hj)
    have horder' := h.pending hwell hi horder
    have hall := h.evaluateNodes strict hpending.ascending hlt hpending.closed
    generalize hrun : (order.map Int.ofNat).forM (Lowering.evaluateNode strict E.inner) s = outcome
      at hall
    generalize hrun' : ((order.map E.place).map Int.ofNat).forM
      (Lowering.evaluateNode strict E.outer) t = outcome' at hall
    cases hall with
    | error e hafter =>
      rw [evaluate_of_error hb horder hrun, evaluate_of_error hplace horder' hrun']
      exact .error e hafter
    | ok _ hafter =>
      have hremembered := remembered_of_evaluateNodes_ok h.context.idle hrun i
        (Or.inl hpending.root_mem)
      obtain ⟨b, hb'⟩ := Option.isSome_iff_exists.mp hremembered
      rw [evaluate_of_pending hb horder hrun hb', evaluate_of_pending hplace horder' hrun'
        ((hafter.context.buffer?_eq hi).trans hb')]
      exact .ok rfl hafter

end Counterpart

end Lowering

end TensorGraph
