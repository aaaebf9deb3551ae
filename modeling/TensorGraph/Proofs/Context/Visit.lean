import TensorGraph.Proofs.Context.Lowering
import TensorGraph.Proofs.Program.Run

/-!
# Visits

In a context at rest the id of a node can be entered. What a visit of the node does then depends on
its operands and on what the program says to the emission that it asks for. The work list of an
expression holds its nodes without a buffer in ascending order, so operands are visited first.
-/

namespace TensorGraph

/-- No id was entered and not left. -/
def Context.Idle (c : Context) : Prop := ∀ id : Int, id ∉ c.active

/-- What a node asks of a program, its operands being remembered. -/
def Node.call? (strict : Bool) (memo : Nat → Option Nat) (n : Node) : Option Program.Call :=
  match n.form with
  | .leaf k => some (.alloc (.shape n.shape) (k == .zero))
  | .unary k x =>
    (memo x).map fun u : Nat => .emit strict (.op (Lowering.unaryOp k)) (.shape n.shape) u 0
  | .binary k l r =>
    (memo l).bind fun u : Nat => (memo r).map fun v : Nat =>
      .emit strict (.op (Lowering.binaryOp k)) (.shape n.shape) u v

namespace Lowering

open Number.Numeral (digitLimit)

/-- The emission that a node asks for, its operands being remembered. -/
def request? (strict : Bool) (memo : Nat → Option Nat) (n : Node) : Option (Emit Emission) :=
  match n.form with
  | .leaf k => some (Program.alloc (.shape n.shape) (k == .zero))
  | .unary k x =>
    (memo x).map fun u : Nat =>
      Program.emit (some digitLimit) strict (.op (unaryOp k)) (.shape n.shape) u 0
  | .binary k l r =>
    (memo l).bind fun u : Nat => (memo r).map fun v : Nat =>
      Program.emit (some digitLimit) strict (.op (binaryOp k)) (.shape n.shape) u v

theorem request?_eq (strict : Bool) (memo : Nat → Option Nat) (n : Node) :
    request? strict memo n =
      (n.call? strict memo).map (Program.Call.carryOut (some digitLimit)) := by
  obtain ⟨form, shape, name⟩ := n
  cases form with
  | leaf k => rfl
  | unary k x =>
    simp only [request?, Node.call?]
    cases memo x with
    | none => rfl
    | some u => rfl
  | binary k l r =>
    simp only [request?, Node.call?]
    cases memo l with
    | none => rfl
    | some u =>
      cases memo r with
      | none => rfl
      | some v => rfl

theorem valueOf_of_some {x u : Nat} {s : Lowering} (h : s.context.buffer? x = some u) :
    valueOf x s = .ok u s := by
  simp only [Context.buffer?] at h
  simp only [valueOf, h]

theorem valueOf_of_none {x : Nat} {s : Lowering} (h : s.context.buffer? x = none) :
    valueOf x s = .error (.missingOperand x) s := by
  simp only [Context.buffer?] at h
  simp only [valueOf, h]

/-- Lowering a node is the emission that it asks for. -/
theorem lowerNode_of_some {strict : Bool} {n : Node} {s : Lowering} {x : Emit Emission}
    (h : request? strict s.context.buffer? n = some x) : lowerNode strict n s = emitting x s := by
  obtain ⟨form, shape, name⟩ := n
  cases form with
  | leaf k =>
    cases h
    rfl
  | unary k x =>
    obtain ⟨u, hu, rfl⟩ := Option.map_eq_some_iff.mp h
    simp only [lowerNode]
    rw [bind_of_ok (valueOf_of_some hu)]
  | binary k l r =>
    obtain ⟨u, hu, hr⟩ := Option.bind_eq_some_iff.mp h
    obtain ⟨v, hv, rfl⟩ := Option.map_eq_some_iff.mp hr
    simp only [lowerNode]
    rw [bind_of_ok (valueOf_of_some hu), bind_of_ok (valueOf_of_some hv)]

/-- A node that asks for nothing misses an operand. -/
theorem lowerNode_of_none {strict : Bool} {n : Node} {s : Lowering}
    (h : request? strict s.context.buffer? n = none) : ∃ e, lowerNode strict n s = .error e s := by
  obtain ⟨form, shape, name⟩ := n
  cases form with
  | leaf k => cases h
  | unary k x =>
    have hx := Option.map_eq_none_iff.mp h
    exact ⟨_, bind_of_error (valueOf_of_none hx)⟩
  | binary k l r =>
    simp only [lowerNode]
    cases hl : s.context.buffer? l with
    | none => exact ⟨_, bind_of_error (valueOf_of_none hl)⟩
    | some u =>
      have hr : s.context.buffer? r = none := by simpa [request?, hl] using h
      rw [bind_of_ok (valueOf_of_some hl)]
      exact ⟨_, bind_of_error (valueOf_of_none hr)⟩

/-- A node whose operands are remembered asks for an emission. -/
theorem exists_request (strict : Bool) {memo : Nat → Option Nat} {n : Node}
    (h : ∀ x ∈ n.operands, (memo x).isSome) : ∃ x, request? strict memo n = some x := by
  obtain ⟨form, shape, name⟩ := n
  cases form with
  | leaf k => exact ⟨_, rfl⟩
  | unary k x =>
    obtain ⟨u, hu⟩ := Option.isSome_iff_exists.mp (h x (by simp [Node.operands, Form.operands]))
    exact ⟨_, congrArg (Option.map _) hu⟩
  | binary k l r =>
    obtain ⟨u, hu⟩ := Option.isSome_iff_exists.mp (h l (by simp [Node.operands, Form.operands]))
    obtain ⟨v, hv⟩ := Option.isSome_iff_exists.mp (h r (by simp [Node.operands, Form.operands]))
    refine ⟨Program.emit (some digitLimit) strict (.op (binaryOp k)) (.shape shape) u v, ?_⟩
    simp only [request?, hu, hv, Option.bind_some, Option.map_some]

theorem operands_of_request {strict : Bool} {memo : Nat → Option Nat} {n : Node} {x : Emit Emission}
    (h : request? strict memo n = some x) : ∀ y ∈ n.operands, (memo y).isSome := by
  obtain ⟨form, shape, name⟩ := n
  cases form with
  | leaf k => simp [Node.operands, Form.operands]
  | unary k y =>
    obtain ⟨u, hu, -⟩ := Option.map_eq_some_iff.mp h
    simp [Node.operands, Form.operands, hu]
  | binary k l r =>
    obtain ⟨u, hu, hr⟩ := Option.bind_eq_some_iff.mp h
    obtain ⟨v, hv, -⟩ := Option.map_eq_some_iff.mp hr
    simp [Node.operands, Form.operands, hu, hv]

/-! ### One node -/

/-- An id was entered. -/
def entered (id : Int) (s : Lowering) : Lowering :=
  ⟨{ s.context with active := s.context.active.insert id }, s.program, s.history.push (.enter id)⟩

section Within

variable {id : Int} {x : Lower Nat} {s t : Lowering}

theorem enter_of_notMem (h : id ∉ s.context.active) : enter id s = .ok () (entered id s) := by
  simp only [enter]
  rw [if_neg h, entered]

theorem within_of_ok {b : Nat} (h : id ∉ s.context.active) (hx : x (entered id s) = .ok b t) :
    within id x s = .ok b (exit id t) := by
  simp only [within, enter_of_notMem h, hx]

theorem within_of_error {e : Error} (h : id ∉ s.context.active)
    (hx : x (entered id s) = .error e t) : within id x s = .error e (exit id t) := by
  simp only [within, enter_of_notMem h, hx]

end Within

theorem emitting_of_ok {x : Emit Emission} {s : Lowering} {e : Emission} {q : Program}
    (h : x s.program = .ok e q) :
    emitting x s = .ok e.id ⟨s.context, q, s.history.push (.emission e)⟩ := by
  simp only [emitting, h]

theorem emitting_of_error {x : Emit Emission} {s : Lowering} {e : Error} {q : Program}
    (h : x s.program = .error e q) : emitting x s = .error e ⟨s.context, q, s.history⟩ := by
  simp only [emitting, h]

/-- The node has an evaluation id. -/
def numbered (i : Int) (s : Lowering) : Lowering :=
  ⟨(s.context.idOf i).2, s.program, s.history⟩

/-- A node has entered its id and left it, and the program is the one given. -/
def left (i : Int) (q : Program) (s : Lowering) : Lowering :=
  let id := (s.context.idOf i).1
  exit id { entered id (numbered i s) with program := q }

/-- A node was evaluated by an emission. -/
def visited (i : Int) (e : Emission) (q : Program) (s : Lowering) : Lowering :=
  let id := (s.context.idOf i).1
  let t := entered id (numbered i s)
  let t := exit id ⟨t.context, q, t.history.push (.emission e)⟩
  { t with context := { t.context with values := t.context.values.insert i e.id } }

/-- What the evaluation of a node can do where its id can be entered. -/
inductive Visit (strict : Bool) (a : Arena) (i : Int) (s : Lowering) : Prop
  | absent (node : a.at? i = none) (run : evaluateNode strict a i s = .error (.absent i) s)
  /-- An operand is not remembered. -/
  | blocked (n : Node) (e : Error) (node : a.at? i = some n)
      (ask : request? strict s.context.buffer? n = none)
      (run : evaluateNode strict a i s = .error e (left i s.program s))
  | refused (n : Node) (x : Emit Emission) (e : Error) (q : Program) (node : a.at? i = some n)
      (ask : request? strict s.context.buffer? n = some x) (answer : x s.program = .error e q)
      (run : evaluateNode strict a i s = .error e (left i q s))
  | granted (n : Node) (x : Emit Emission) (e : Emission) (q : Program) (node : a.at? i = some n)
      (ask : request? strict s.context.buffer? n = some x) (answer : x s.program = .ok e q)
      (run : evaluateNode strict a i s = .ok () (visited i e q s))

theorem active_idOf (c : Context) (i : Int) : (c.idOf i).2.active = c.active := by
  simp only [Context.idOf]
  cases c.ids[i]? with
  | some id => rfl
  | none => rfl

theorem visit_of_notMem (strict : Bool) (a : Arena) (i : Int) {s : Lowering}
    (h : ((s.context.idOf i).1 : Int) ∉ s.context.active) : Visit strict a i s := by
  cases hn : a.at? i with
  | none => exact .absent hn (by simp only [evaluateNode, hn]; rfl)
  | some n =>
    have hassign : assignId i s = .ok (s.context.idOf i).1 (numbered i s) := rfl
    have hout : ((s.context.idOf i).1 : Int) ∉ (numbered i s).context.active :=
      active_idOf s.context i ▸ h
    have hbuffer : (entered (s.context.idOf i).1 (numbered i s)).context.buffer? =
        s.context.buffer? := Context.buffer?_congr (idOf_same s.context i).1
    -- the emission is asked for after entering, with what was remembered before
    cases hask : request? strict s.context.buffer? n with
    | none =>
      obtain ⟨e, hlower⟩ := lowerNode_of_none (hbuffer ▸ hask)
      refine .blocked n e hn hask ?_
      simp only [evaluateNode, hn]
      rw [bind_of_ok hassign]
      exact bind_of_error (within_of_error hout hlower)
    | some x =>
      have hlower := lowerNode_of_some (hbuffer ▸ hask)
      cases hx : x s.program with
      | error e q =>
        refine .refused n x e q hn hask hx ?_
        simp only [evaluateNode, hn]
        rw [bind_of_ok hassign]
        exact bind_of_error (within_of_error hout (hlower.trans (emitting_of_error hx)))
      | ok e q =>
        refine .granted n x e q hn hask hx ?_
        simp only [evaluateNode, hn]
        rw [bind_of_ok hassign]
        rw [bind_of_ok (within_of_ok hout (hlower.trans (emitting_of_ok hx)))]
        rfl

theorem visit (strict : Bool) (a : Arena) (i : Int) {s : Lowering} (h : s.context.Idle) :
    Visit strict a i s := visit_of_notMem strict a i (h _)

section Evaluated

variable {strict : Bool} {a : Arena} {i : Int} {s t : Lowering}

/-- A node whose operands are remembered does what the program says to its emission. -/
theorem evaluateNode_eq (h : s.context.Idle) {n : Node} {x : Emit Emission}
    (hn : a.at? i = some n) (hask : request? strict s.context.buffer? n = some x) :
    evaluateNode strict a i s =
      match x s.program with
      | .ok e q => .ok () (visited i e q s)
      | .error e q => .error e (left i q s) := by
  cases visit strict a i h with
  | absent hnone _ =>
    rw [hn] at hnone
    cases hnone
  | blocked m e' hm hnone _ =>
    cases hn.symm.trans hm
    rw [hask] at hnone
    cases hnone
  | refused m x' e q hm hask' hx hrun =>
    cases hn.symm.trans hm
    cases hask.symm.trans hask'
    rw [hx, hrun]
  | granted m x' e q hm hask' hx hrun =>
    cases hn.symm.trans hm
    cases hask.symm.trans hask'
    rw [hx, hrun]

/-- A node is evaluated when what it asks for is granted. -/
theorem evaluateNode_of_granted (h : s.context.Idle) {n : Node} {x : Emit Emission} {e : Emission}
    {q : Program} (hn : a.at? i = some n) (hask : request? strict s.context.buffer? n = some x)
    (hx : x s.program = .ok e q) : evaluateNode strict a i s = .ok () (visited i e q s) := by
  rw [evaluateNode_eq h hn hask, hx]

/-- A node that was evaluated asked for something, which was granted. -/
theorem exists_of_evaluateNode_ok (h : s.context.Idle)
    (hok : evaluateNode strict a i s = .ok () t) :
    ∃ n x e q, a.at? i = some n ∧ request? strict s.context.buffer? n = some x ∧
      x s.program = .ok e q ∧ t = visited i e q s := by
  cases visit strict a i h with
  | absent _ hrun =>
    rw [hrun] at hok
    cases hok
  | blocked n e _ _ hrun =>
    rw [hrun] at hok
    cases hok
  | refused n x e q _ _ _ hrun =>
    rw [hrun] at hok
    cases hok
  | granted n x e q hn hask hx hrun =>
    rw [hrun] at hok
    cases hok
    exact ⟨n, x, e, q, hn, hask, hx, rfl⟩

end Evaluated

section Visited

variable (i : Int) (e : Emission) (q : Program) (s : Lowering)

theorem context_visited : (visited i e q s).context = { (left i q s).context with
    values := (left i q s).context.values.insert i e.id } := rfl

theorem values_visited :
    (visited i e q s).context.values = s.context.values.insert i e.id := by
  simp only [visited, exit, entered, numbered, (idOf_same s.context i).1]

theorem idle_left (h : s.context.Idle) : (left i q s).context.Idle := by
  intro id hid
  have hmem : id ∈ ((s.context.idOf i).2.active.insert
    ((s.context.idOf i).1 : Int)).erase ((s.context.idOf i).1 : Int) := hid
  simp only [Std.HashSet.mem_erase, Std.HashSet.mem_insert, active_idOf] at hmem
  have := h id
  grind

theorem idle_visited (h : s.context.Idle) : (visited i e q s).context.Idle :=
  idle_left i q s h

theorem buffer?_visited (j : Nat) : (visited i e q s).context.buffer? j =
    if i = (j : Int) then some e.id else s.context.buffer? j := by
  simp only [Context.buffer?, values_visited, Std.HashMap.getElem?_insert, beq_iff_eq]

end Visited

/-- Nodes that were evaluated are remembered, and nothing is forgotten. -/
theorem remembered_of_evaluateNodes_ok {strict : Bool} {a : Arena} {todo : List Nat}
    {s t : Lowering} (h : s.context.Idle)
    (hok : (todo.map Int.ofNat).forM (evaluateNode strict a) s = .ok () t) (j : Nat)
    (hj : j ∈ todo ∨ (s.context.buffer? j).isSome = true) :
    (t.context.buffer? j).isSome = true := by
  induction todo generalizing s with
  | nil =>
    cases hok
    exact hj.resolve_left List.not_mem_nil
  | cons i todo ih =>
    obtain ⟨u, s', hfirst, hrest⟩ := exists_of_bind_ok hok
    obtain ⟨n, x, e, q, -, -, -, rfl⟩ := exists_of_evaluateNode_ok h hfirst
    refine ih (idle_visited i e q s h) hrest ?_
    rw [buffer?_visited]
    by_cases hij : (i : Int) = j
    · exact Or.inr (by simp [hij])
    · rw [if_neg (by simpa using hij)]
      refine hj.imp_left fun hmem => List.mem_of_ne_of_mem ?_ hmem
      exact fun heq => hij (congrArg Nat.cast heq.symm)

/-! ### The work list -/

/-- The nodes that an evaluation has to visit, operands before their users. -/
structure Pending (c : Context) (a : Arena) (root : Nat) (order : List Nat) : Prop where
  ascending : order.Pairwise (· < ·)
  root_mem : root ∈ order
  reached : ∀ i ∈ order, Reaches a.operands root i
  unknown : ∀ i ∈ order, c.buffer? i = none
  closed : ∀ i ∈ order, ∀ x ∈ a.operands i, (c.buffer? x).isSome ∨ x ∈ order

theorem Pending.nodup {c : Context} {a : Arena} {root : Nat} {order : List Nat}
    (h : Pending c a root order) : order.Nodup :=
  List.nodup_iff_pairwise_ne.mpr (h.ascending.imp fun hlt => Nat.ne_of_lt hlt)

theorem pending_spec (c : Context) {a : Arena} (ha : a.WellFormed) {root : Nat}
    (hroot : root < a.size) :
    ∃ order : List Nat, pending c a root = some (order.map Int.ofNat) ∧
      order.Pairwise (· < ·) ∧ ∀ i, i ∈ order ↔
        Reaches (a.openOperands fun i : Nat => (c.buffer? i).isSome) root i := by
  have hknown : (fun i : Nat => c.values.contains (i : Int)) = fun i => (c.buffer? i).isSome :=
    funext fun _ => Std.HashMap.contains_eq_isSome_getElem?
  rw [← hknown]
  exact Arena.reach?_spec ha _ hroot

theorem exists_pending {c : Context} {a : Arena} (ha : a.WellFormed) {root : Nat}
    (hroot : root < a.size) (hnew : c.buffer? root = none) :
    ∃ order, pending c a root = some (order.map Int.ofNat) ∧ Pending c a root order := by
  obtain ⟨order, horder, hascending, hmem⟩ := pending_spec c ha hroot
  refine ⟨order, horder, hascending, (hmem root).mpr (.refl root), ?_, ?_, ?_⟩
  · intro i hi
    exact ((hmem i).mp hi).mono (a.openOperands_subset _)
  · intro i hi
    rcases Arena.eq_or_unknown ((hmem i).mp hi) with rfl | hunknown
    · exact hnew
    · simpa using hunknown
  · intro i hi x hx
    by_cases hb : (c.buffer? x).isSome
    · exact Or.inl hb
    · refine Or.inr ((hmem x).mpr (((hmem i).mp hi).trans (.step ?_ (.refl x))))
      rw [Arena.openOperands, List.mem_filter]
      exact ⟨hx, by simpa using hb⟩

section Closed

variable {a : Arena} {memo memo' : Nat → Option Nat} {i : Nat} {todo : List Nat}
  (hclosed : ∀ j ∈ i :: todo, ∀ x ∈ a.operands j, (memo x).isSome ∨ x ∈ i :: todo)

include hclosed

/-- The operands of the first of ascending nodes are remembered, when those of all nodes are
remembered or among them: the other nodes are above it. -/
theorem operands_of_least (ha : a.WellFormed) (hascending : (i :: todo).Pairwise (· < ·)) :
    ∀ x ∈ a.operands i, (memo x).isSome := by
  intro x hx
  have hlt := ha.operand_lt hx
  refine (hclosed i (List.mem_cons_self ..) x hx).resolve_right fun hin => ?_
  rcases List.mem_cons.mp hin with rfl | hin
  · omega
  · have := (List.pairwise_cons.mp hascending).1 x hin
    omega

/-- Nodes can be visited without the first one when it is remembered. -/
theorem closed_of_remembered
    (hmemo : ∀ x, x = i ∨ (memo x).isSome → (memo' x).isSome) :
    ∀ j ∈ todo, ∀ x ∈ a.operands j, (memo' x).isSome ∨ x ∈ todo := by
  intro j hj x hx
  rcases hclosed j (List.mem_cons_of_mem i hj) x hx with hsome | hin
  · exact .inl (hmemo x (.inr hsome))
  · exact (List.mem_cons.mp hin).imp_left fun heq => hmemo x (.inl heq)

end Closed

section Evaluate

variable {strict : Bool} {a : Arena} {root b : Nat} {s t : Lowering}

theorem evaluate_of_known (h : s.context.buffer? root = some b) :
    evaluate strict a root s = .ok b s := by
  simp only [Context.buffer?] at h
  simp only [evaluate, h]

theorem evaluate_of_pending {order : List Nat} (hnew : s.context.buffer? root = none)
    (horder : pending s.context a root = some (order.map Int.ofNat))
    (hrun : (order.map Int.ofNat).forM (evaluateNode strict a) s = .ok () t)
    (hb : t.context.buffer? root = some b) : evaluate strict a root s = .ok b t := by
  simp only [Context.buffer?] at hnew hb
  simp only [evaluate, hnew, horder, hrun, hb]

theorem evaluate_of_error {order : List Nat} {e : Error} (hnew : s.context.buffer? root = none)
    (horder : pending s.context a root = some (order.map Int.ofNat))
    (hrun : (order.map Int.ofNat).forM (evaluateNode strict a) s = .error e t) :
    evaluate strict a root s = .error e t := by
  simp only [Context.buffer?] at hnew
  simp only [evaluate, hnew, horder, hrun]

/-- An evaluation that succeeds carries out its work list. -/
theorem exists_of_evaluate_ok (ha : a.WellFormed) (hnew : s.context.buffer? root = none)
    (h : evaluate strict a root s = .ok b t) : ∃ order, Pending s.context a root order ∧
      (order.map Int.ofNat).forM (evaluateNode strict a) s = .ok () t := by
  have hnone : s.context.values[(root : Int)]? = none := hnew
  simp only [evaluate, hnone] at h
  by_cases hroot : root < a.size
  · obtain ⟨order, horder, hpending⟩ := exists_pending ha hroot hnew
    rw [horder] at h
    refine ⟨order, hpending, ?_⟩
    dsimp only at h
    split at h
    · cases h
    · rename_i hrun
      split at h
      · cases h
        exact hrun
      · cases h
  · have hnode : a.node? root = none := Array.getElem?_eq_none (Nat.le_of_not_lt hroot)
    simp [pending, Arena.reach?, hnode] at h

end Evaluate

end Lowering

end TensorGraph
