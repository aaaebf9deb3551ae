import Mathlib.Data.List.Basic
import TensorGraph.Proofs.Context.Numbering
import TensorGraph.Proofs.Context.Once
import TensorGraph.Proofs.Context.Shaped
import TensorGraph.Proofs.Program.Strictness

/-!
# Evaluations that stop

Nodes may have any shapes, and ids may have been entered from outside. Then an evaluation can stop
at a node, for one of two reasons: the id of the node is in use, or shapes are strict and the node
asks for a known instruction in another shape. What was done before stays done: the nodes below the
one at which it stops are remembered, so they are not visited again.
-/

namespace TensorGraph

/-- A conflict stays one when hits are counted. -/
theorem Program.Call.Conflict.count {digits : Option Nat} {p : Program} {call : Program.Call}
    {i : Instruction} {id : Nat} {s : Shape} (h : call.Conflict digits p i id s) (hits : Nat) :
    call.Conflict digits { p with hits } i id s :=
  ⟨h.asks, h.known, h.recorded, h.differs⟩

namespace Context.Faithful

variable {c : Context} {a : Arena} {p : Program} {i j : Nat}

/-- The operands of a remembered node are remembered. -/
theorem operands_remembered (h : c.Faithful a p) {b : Nat} (hi : c.buffer? i = some b) :
    ∃ n, a.node? i = some n ∧ ∀ x ∈ n.operands, (c.buffer? x).isSome := by
  obtain ⟨n, hn, hholds⟩ := h.holds i b hi
  refine ⟨n, hn, fun x hx => ?_⟩
  simp only [Program.Holds] at hholds
  simp only [Node.operands] at hx
  generalize n.form = form at hholds hx
  cases form with
  | leaf k => simp [Form.operands] at hx
  | unary k y =>
    obtain ⟨u, s, hu, -⟩ := hholds
    simp only [Form.operands, List.mem_singleton] at hx
    rw [hx, hu]
    rfl
  | binary k l r =>
    obtain ⟨u, v, s, hu, hv, -⟩ := hholds
    simp only [Form.operands, List.mem_cons, List.not_mem_nil, or_false] at hx
    rcases hx with rfl | rfl
    · rw [hu]
      rfl
    · rw [hv]
      rfl

/-- What a remembered node reaches is remembered. -/
theorem remembered_of_reaches (h : c.Faithful a p) (hr : Reaches a.operands i j)
    (hi : (c.buffer? i).isSome) : (c.buffer? j).isSome := by
  induction hr with
  | refl i => exact hi
  | step hx _ ih =>
    obtain ⟨b, hb⟩ := Option.isSome_iff_exists.mp hi
    obtain ⟨n, hn, hoperands⟩ := h.operands_remembered hb
    rw [Arena.operands_of_node? hn] at hx
    exact ih (hoperands _ hx)

/-- What is not remembered is reached through what is not remembered. -/
theorem reaches_open (h : c.Faithful a p) (hr : Reaches a.operands i j) (hj : c.buffer? j = none) :
    Reaches (a.openOperands fun x => (c.buffer? x).isSome) i j := by
  induction hr with
  | refl i => exact .refl i
  | step hx hr ih =>
    refine .step (List.mem_filter.mpr ⟨hx, ?_⟩) (ih hj)
    have hunknown := mt (h.remembered_of_reaches hr) (by simp [hj])
    simpa using hunknown

end Context.Faithful

namespace Lowering

open Number.Numeral (digitLimit)

/-! ### Refused nodes -/

/-- A node whose operands are in buffers is refused only where shapes are strict, and only for a
conflict. -/
theorem conflict_of_refused {strict : Bool} {memo : Nat → Option Nat} {n : Node}
    {call : Program.Call} {p q : Program} {e : Error}
    (hcells : ∀ x u, memo x = some u → ∃ cell, p.cell? u = some cell)
    (hask : n.call? strict memo = some call)
    (he : call.carryOut (some digitLimit) p = .error e q) :
    strict = true ∧ ∃ i id s, call.Conflict (some digitLimit) p i id s ∧
      e = Program.mismatch (some digitLimit) i.op.text i s ∧
      q = { p with hits := p.hits + 1 } := by
  have hshape : ∀ x u, memo x = some u → ∃ s, p.HasShape u s := by
    intro x u hu
    obtain ⟨cell, hcell⟩ := hcells x u hu
    exact ⟨cell.shape, cell, hcell, rfl⟩
  -- the instruction can be read and has a name, so nothing but a conflict is refused
  have hrefused : ∀ {op shape a b i}, p.newInstruction (some digitLimit) op shape a b = .ok i →
      i.op.Named (some digitLimit) → call = .emit strict op shape a b →
      strict = true ∧ ∃ i id s, call.Conflict (some digitLimit) p i id s ∧
        e = Program.mismatch (some digitLimit) i.op.text i s ∧
        q = { p with hits := p.hits + 1 } := by
    rintro op shape a b i hnew hnamed rfl
    by_cases hconflict : ∃ id s,
        (Program.Call.emit strict op shape a b).Conflict (some digitLimit) p i id s
    · obtain ⟨id, s, hconflict⟩ := hconflict
      have hrun := he.symm.trans (hconflict.carryOut_under hnamed strict)
      cases strict with
      | true =>
        cases hrun
        exact ⟨rfl, i, id, s, hconflict, rfl, rfl⟩
      | false => cases hrun
    · obtain ⟨e', q', hok⟩ := Program.emit_of_agreement hnew hnamed
        fun id s hc => hconflict ⟨id, s, hc⟩
      cases he.symm.trans (hok strict)
  obtain ⟨form, shape, name⟩ := n
  cases form with
  | leaf k =>
    cases hask
    simp only [Program.Call.carryOut, Program.alloc, Shape.ofValue_shape] at he
    cases he
  | unary k x =>
    obtain ⟨u, hu, hcall⟩ := Option.map_eq_some_iff.mp hask
    obtain ⟨s, hs⟩ := hshape x u hu
    exact hrefused (newInstruction_unary k hs) (named_unaryOp k) hcall.symm
  | binary k l r =>
    obtain ⟨u, hu, hr⟩ := Option.bind_eq_some_iff.mp hask
    obtain ⟨v, hv, hcall⟩ := Option.map_eq_some_iff.mp hr
    obtain ⟨s, hs⟩ := hshape l u hu
    obtain ⟨t, ht⟩ := hshape r v hv
    exact hrefused (newInstruction_binary k hs ht) (named_binaryOp k) hcall.symm

/-! ### What evaluating nodes leaves -/

/-- How evaluating nodes ends: all is done, or an id cannot be entered, or the program refuses what
is asked under an id. -/
inductive Ending where
  | completed
  | reentered (id : Nat)
  | refused (id : Nat)

namespace Ending

/-- What is recorded of a node at which it ends. -/
def events : Ending → List Event
  | completed => []
  | reentered id => [.refused id]
  | refused id => [.enter id, .exit id]

/-- A refused instruction was looked up, which counts as a hit. -/
def hits : Ending → Nat
  | completed | reentered _ => 0
  | refused _ => 1

end Ending

/-- What is recorded of a node that is evaluated. -/
def visitEvents (id : Nat) (e : Emission) : List Event := [.enter id, .emission e, .exit id]

/-- Nodes were evaluated in order, and nothing else was done but for how it ended. -/
structure Advances (a : Arena) (done : List Nat) (ending : Ending) (s t : Lowering) : Prop where
  lasts : s.context.Lasts t.context
  active : ∀ id, id ∈ t.context.active ↔ id ∈ s.context.active
  remembered : ∀ i : Int, i ∈ t.context.values ↔ i ∈ s.context.values ∨ ∃ j ∈ done, i = (j : Nat)
  numbered : ∀ j ∈ done, ∃ id, t.context.ids[(j : Int)]? = some id
  journal : ∃ entries : List (Nat × Emission), entries.map Prod.fst = done ∧
    (∀ entry ∈ entries, t.context.buffer? entry.1 = some entry.2.id) ∧
    t.history.toList = s.history.toList ++
      entries.flatMap (fun entry => visitEvents (t.context.evalId entry.1) entry.2) ++ ending.events
  leaves : t.program.leafCount = s.program.leafCount + done.countP a.isLeaf
  operators : t.program.instructionCount + t.program.hits = s.program.instructionCount +
    s.program.hits + done.countP (fun j => !a.isLeaf j) + ending.hits

section Advances

variable {a : Arena} {done done' : List Nat} {ending : Ending} {s t u : Lowering}

theorem advances_refl (a : Arena) (s : Lowering) : Advances a [] .completed s s where
  lasts := Std.Refl.refl s.context
  active _ := Iff.rfl
  remembered i := by simp
  numbered j h := absurd h List.not_mem_nil
  journal := ⟨[], rfl, by simp, by simp [Ending.events]⟩
  leaves := rfl
  operators := rfl

theorem evalId_of_lasts {c d : Context} (h : c.Lasts d) {i : Int} {id : Nat}
    (hi : c.ids[i]? = some id) : d.evalId i = c.evalId i := by
  have hd := h.ids i id hi
  simp only [Context.evalId, Std.HashMap.getD_eq_getD_getElem?, hi, hd]

/-- Evaluating nodes goes on where it was completed. -/
theorem Advances.trans (h : Advances a done .completed s t) (h' : Advances a done' ending t u) :
    Advances a (done ++ done') ending s u := by
  constructor
  case lasts => exact IsTrans.trans _ _ _ h.lasts h'.lasts
  case active => exact fun id => (h'.active id).trans (h.active id)
  case remembered =>
    intro i
    rw [h'.remembered, h.remembered]
    simp only [List.mem_append, or_and_right, exists_or, or_assoc]
  case numbered =>
    intro j hj
    rcases List.mem_append.mp hj with hj | hj
    · obtain ⟨id, hid⟩ := h.numbered j hj
      exact ⟨id, h'.lasts.ids _ id hid⟩
    · exact h'.numbered j hj
  case journal =>
    obtain ⟨entries, hdone, hbuffers, hhistory⟩ := h.journal
    obtain ⟨entries', hdone', hbuffers', hhistory'⟩ := h'.journal
    refine ⟨entries ++ entries', by rw [List.map_append, hdone, hdone'], ?_, ?_⟩
    · intro entry hentry
      rcases List.mem_append.mp hentry with hmem | hmem
      · exact h'.lasts.values _ _ (hbuffers entry hmem)
      · exact hbuffers' entry hmem
    · have hsame : entries.flatMap (fun entry => visitEvents (u.context.evalId entry.1) entry.2) =
          entries.flatMap fun entry => visitEvents (t.context.evalId entry.1) entry.2 := by
        refine List.flatMap_congr fun entry hentry => ?_
        obtain ⟨id, hid⟩ := h.numbered entry.1 (hdone ▸ List.mem_map_of_mem hentry)
        rw [evalId_of_lasts h'.lasts hid]
      rw [hhistory', hhistory, List.flatMap_append, hsame]
      simp [Ending.events]
  case leaves =>
    rw [h'.leaves, h.leaves, List.countP_append]
    omega
  case operators =>
    have hstart : _ = _ + 0 := h.operators
    rw [h'.operators, hstart, List.countP_append]
    omega

end Advances

/-! ### One node -/

section Visit

variable {a : Arena} {i : Nat} {s : Lowering}

theorem mem_active_left (q : Program) (h : ((s.context.idOf i).1 : Int) ∉ s.context.active)
    (id : Int) : id ∈ (left i q s).context.active ↔ id ∈ s.context.active := by
  have hactive : (left i q s).context.active = ((s.context.idOf i).2.active.insert
    ((s.context.idOf i).1 : Int)).erase ((s.context.idOf i).1 : Int) := rfl
  rw [hactive, active_idOf, Std.HashSet.mem_erase, Std.HashSet.mem_insert]
  grind

theorem mem_values_of_numbers {c d : Context} (h : d.values = c.values) (i : Int) :
    i ∈ d.values ↔ i ∈ c.values ∨ ∃ j ∈ ([] : List Nat), i = (j : Nat) := by
  simp [h]

/-- A node is visited, and nothing else. -/
theorem advances_visited {n : Node} {strict : Bool} {x : Emit Emission} {e : Emission} {q : Program}
    (hn : a.node? i = some n) (hask : request? strict s.context.buffer? n = some x)
    (hx : x s.program = .ok e q) (hnew : s.context.buffer? i = none)
    (hout : ((s.context.idOf i).1 : Int) ∉ s.context.active) :
    Advances a [i] .completed s (visited i e q s) := by
  have hids : (visited i e q s).context.ids[(i : Int)]? = some (s.context.idOf i).1 := by
    rw [ids_visited, Context.ids_idOf]
  have hvalues := values_visited i e q s
  have hleaf : a.isLeaf i = n.isLeaf := by simp [Arena.isLeaf, hn]
  obtain ⟨hleaves, hoperators⟩ := counts_of_request hask hx
  constructor
  case lasts => exact ((tabulates_visited i e q s).proceeds hnew).toLasts
  case active =>
    simp only [context_visited]
    exact mem_active_left q hout
  case remembered =>
    intro j
    rw [hvalues, Std.HashMap.mem_insert, or_comm]
    simp only [List.mem_singleton, exists_eq_left, beq_iff_eq, @eq_comm _ j]
  case numbered =>
    intro j hj
    obtain rfl := List.mem_singleton.mp hj
    exact ⟨_, hids⟩
  case journal =>
    refine ⟨[(i, e)], rfl, ?_, ?_⟩
    · intro entry hentry
      obtain rfl := List.mem_singleton.mp hentry
      rw [buffer?_visited, if_pos rfl]
    · have hid : (visited i e q s).context.evalId i = (s.context.idOf i).1 := by
        rw [Context.evalId, Std.HashMap.getD_eq_getD_getElem?, hids, Option.getD_some]
      have hhistory : (visited i e q s).history = ((s.history.push
        (.enter (s.context.idOf i).1)).push (.emission e)).push (.exit (s.context.idOf i).1) := rfl
      simp [hhistory, hid, visitEvents, Ending.events]
  case leaves =>
    rw [List.countP_singleton, hleaf]
    exact hleaves
  case operators =>
    rw [List.countP_singleton, hleaf]
    exact hoperators

/-- A node that the program refused was entered and left. -/
theorem advances_left (hnew : s.context.buffer? i = none)
    (hout : ((s.context.idOf i).1 : Int) ∉ s.context.active) :
    Advances a [] (.refused (s.context.idOf i).1) s
      (left i { s.program with hits := s.program.hits + 1 } s) where
  lasts := ((tabulates_left i _ s).proceeds hnew).toLasts
  active := mem_active_left _ hout
  remembered := mem_values_of_numbers (values_left i _ s)
  numbered j h := absurd h List.not_mem_nil
  journal := by
    refine ⟨[], rfl, by simp, ?_⟩
    have hhistory : (left i { s.program with hits := s.program.hits + 1 } s).history =
      (s.history.push (.enter (s.context.idOf i).1)).push (.exit (s.context.idOf i).1) := rfl
    simp [hhistory, Ending.events]
  leaves := rfl
  operators := rfl

/-- A node whose id cannot be entered is numbered. -/
theorem advances_barred (hnew : s.context.buffer? i = none) :
    Advances a [] (.reentered (s.context.idOf i).1) s (barred i s) where
  lasts := ((tabulates_barred i s).proceeds hnew).toLasts
  active id := by
    have hactive : (barred i s).context.active = s.context.active := active_idOf s.context i
    rw [hactive]
  remembered := mem_values_of_numbers (values_barred i s)
  numbered j h := absurd h List.not_mem_nil
  journal := by
    refine ⟨[], rfl, by simp, ?_⟩
    have hhistory : (barred i s).history = s.history.push (.refused (s.context.idOf i).1) := rfl
    simp [hhistory, Ending.events]
  leaves := rfl
  operators := rfl

end Visit

/-- Why an evaluation stops at a node: what it leaves shows it. -/
inductive Stops (strict : Bool) (a : Arena) (f : Nat) (t : Lowering) : Error → Ending → Prop
  /-- The id of the node was entered and not left. -/
  | reentered (id : Nat) (number : t.context.ids[(f : Int)]? = some id)
      (entered : (id : Int) ∈ t.context.active) : Stops strict a f t (.reentered id) (.reentered id)
  /-- Shapes are strict, and the node asks for a known instruction in another shape. -/
  | refused (id : Nat) (number : t.context.ids[(f : Int)]? = some id) (n : Node)
      (call : Program.Call) (i : Instruction) (b : Nat) (recorded : Shape)
      (isStrict : strict = true) (node : a.node? f = some n)
      (asks : n.call? strict t.context.buffer? = some call)
      (conflict : call.Conflict (some digitLimit) t.program i b recorded) :
      Stops strict a f t (Program.mismatch (some digitLimit) i.op.text i recorded) (.refused id)

section Evaluate

variable (strict : Bool) {a : Arena} {s : Lowering}

/-- A node whose operands are remembered is evaluated, or the evaluation stops at it. -/
theorem evaluateNode_advances (h : s.Ready a) {i : Nat} (hi : i < a.size)
    (hnew : s.context.buffer? i = none)
    (hoperands : ∀ x ∈ a.operands i, (s.context.buffer? x).isSome) :
    (∃ t, evaluateNode strict a i s = .ok () t ∧ Advances a [i] .completed s t) ∨
      ∃ e ending t, evaluateNode strict a i s = .error e t ∧ Stops strict a i t e ending ∧
        Advances a [] ending s t := by
  obtain ⟨n, hn⟩ := Arena.exists_node? hi
  rw [Arena.operands_of_node? hn] at hoperands
  have hat : a.at? i = some n := by rw [Arena.at?_ofNat, hn]
  by_cases hin : ((s.context.idOf i).1 : Int) ∈ s.context.active
  · have hactive : ((s.context.idOf i).1 : Int) ∈ (barred i s).context.active :=
      active_idOf s.context i ▸ hin
    have hids : (barred i s).context.ids[(i : Int)]? = some (s.context.idOf i).1 := by
      rw [ids_barred, Context.ids_idOf]
    exact .inr ⟨_, _, _, evaluateNode_barred strict hat hin, .reentered _ hids hactive,
      advances_barred hnew⟩
  obtain ⟨x, hask⟩ := exists_request strict hoperands
  cases visit_of_notMem strict a i hin with
  | absent hnone _ =>
    rw [hat] at hnone
    cases hnone
  | blocked m e hm hnone _ =>
    cases hat.symm.trans hm
    rw [hask] at hnone
    cases hnone
  | refused m y e q hm hask' hx hrun =>
    cases hat.symm.trans hm
    have hcall := hask'
    rw [request?_eq, Option.map_eq_some_iff] at hcall
    obtain ⟨call, hcall, rfl⟩ := hcall
    obtain ⟨hstrict, j, b, recorded, hconflict, rfl, rfl⟩ :=
      conflict_of_refused (fun x u hu => h.2.exists_cell hu) hcall hx
    have hbuffer := Context.buffer?_congr
      (values_left i { s.program with hits := s.program.hits + 1 } s)
    have hids : (left i { s.program with hits := s.program.hits + 1 } s).context.ids[(i : Int)]? =
        some (s.context.idOf i).1 := by rw [ids_left, Context.ids_idOf]
    exact .inr ⟨_, _, _, hrun, .refused _ hids n call j b recorded hstrict hn (hbuffer ▸ hcall)
      (hconflict.count _), advances_left hnew hin⟩
  | granted m y e q hm hask' hx hrun =>
    cases hat.symm.trans hm
    exact .inl ⟨_, hrun, advances_visited hn hask' hx hnew hin⟩

/-- Nodes in ascending order are evaluated up to the end, or up to one at which the evaluation
stops, when their operands are remembered or among them. -/
theorem evaluateNodes_advances (h : s.Ready a) (ha : a.WellFormed) {todo : List Nat}
    (hascending : todo.Pairwise (· < ·)) (hlt : ∀ i ∈ todo, i < a.size)
    (hnew : ∀ i ∈ todo, s.context.buffer? i = none)
    (hclosed : ∀ i ∈ todo, ∀ x ∈ a.operands i, (s.context.buffer? x).isSome ∨ x ∈ todo) :
    (∃ t, (todo.map Int.ofNat).forM (evaluateNode strict a) s = .ok () t ∧
      Advances a todo .completed s t) ∨
    ∃ done f rest e ending t, todo = done ++ f :: rest ∧
      (todo.map Int.ofNat).forM (evaluateNode strict a) s = .error e t ∧
      Stops strict a f t e ending ∧ Advances a done ending s t := by
  induction todo generalizing s with
  | nil => exact .inl ⟨s, rfl, advances_refl a s⟩
  | cons i todo ih =>
    have hoperands := operands_of_least hclosed ha hascending
    obtain ⟨hleast, hascending⟩ := List.pairwise_cons.mp hascending
    have hmem := List.mem_cons_self (a := i) (l := todo)
    have hfirst := evaluateNode_advances strict h (hlt i hmem) (hnew i hmem) hoperands
    rcases hfirst with ⟨s', hfirst, hstep⟩ | ⟨e, ending, t, hfirst, hstops, hstep⟩
    · have hready := (evaluateNode_evaluates strict a (hnew i hmem)).1 h
      rw [hfirst] at hready
      change s'.Ready a at hready
      have hknown : ∀ j : Nat, (s'.context.buffer? j).isSome ↔
          j = i ∨ (s.context.buffer? j).isSome := by
        intro j
        have hj := (hstep.remembered j).trans or_comm
        simp only [List.mem_singleton, exists_eq_left, Int.natCast_inj] at hj
        simpa only [Context.buffer?, Std.HashMap.isSome_getElem?_iff_mem] using hj
      have hrest := ih hready hascending (fun j hj => hlt j (List.mem_cons_of_mem i hj))
        (fun j hj => ?_) (closed_of_remembered hclosed fun x => (hknown x).mpr)
      · rcases hrest with ⟨t, hrun, hdone⟩ | ⟨done, f, rest, e, ending, t, rfl, hrun, hstops, hdone⟩
        · exact .inl ⟨t, (forM_cons_of_ok hfirst).trans hrun, hstep.trans hdone⟩
        · exact .inr ⟨i :: done, f, rest, e, ending, t, rfl, (forM_cons_of_ok hfirst).trans hrun,
            hstops, hstep.trans hdone⟩
      · have hne : j ≠ i := Nat.ne_of_gt (hleast j hj)
        have hnone := hnew j (List.mem_cons_of_mem i hj)
        rw [← Option.not_isSome_iff_eq_none, hknown, hnone]
        simpa using hne
    · exact .inr ⟨[], i, todo, e, ending, t, rfl, forM_cons_of_error hfirst, hstops, hstep⟩

/-- The nodes below a root that are not remembered, as far as they are looked at, ascending. -/
structure Uncached (c : Context) (a : Arena) (root : Nat) (P : Nat → Prop) (done : List Nat) :
    Prop where
  ascending : done.Pairwise (· < ·)
  mem_iff : ∀ i, i ∈ done ↔ Reaches a.operands root i ∧ c.buffer? i = none ∧ P i

/-- How an evaluation ends. If it stops at a node, then what it evaluated are the nodes below that
node in the arena; otherwise it evaluated all nodes that were not remembered. -/
inductive Ends {σ : Type} (view : σ → Lowering) (strict : Bool) (a : Arena) (root : Nat)
    (s : Lowering) : EStateM.Result Error σ Nat → Prop
  | completed {b : Nat} {t : σ} (done : List Nat)
      (order : Uncached s.context a root (fun _ => True) done)
      (advances : Advances a done .completed s (view t))
      (buffer : (view t).context.buffer? root = some b) : Ends view strict a root s (.ok b t)
  | stopped {e : Error} {t : σ} (f : Nat) (done : List Nat) (ending : Ending)
      (reached : Reaches a.operands root f) (unknown : s.context.buffer? f = none)
      (order : Uncached s.context a root (· < f) done)
      (stops : Stops strict a f (view t) e ending) (advances : Advances a done ending s (view t)) :
      Ends view strict a root s (.error e t)

/-- An evaluation of a node of the arena ends at a node for a reason, or with all nodes that it
reaches remembered. -/
theorem evaluate_ends (h : s.Ready a) (ha : a.WellFormed) {root : Nat} (hroot : root < a.size) :
    Ends id strict a root s (evaluate strict a root s) := by
  cases hb : s.context.buffer? root with
  | some b =>
    -- what the root reaches is remembered, too
    rw [evaluate_of_known hb]
    refine .completed [] ⟨List.Pairwise.nil, fun i => ?_⟩ (advances_refl a s) hb
    simp only [List.not_mem_nil, false_iff, not_and]
    intro hr hi
    have hknown := h.2.remembered_of_reaches hr (by rw [hb]; rfl)
    rw [hi] at hknown
    cases hknown
  | none =>
    obtain ⟨order, horder, hascending, hmem⟩ := pending_spec s.context ha hroot
    have hiff : ∀ i, i ∈ order ↔ Reaches a.operands root i ∧ s.context.buffer? i = none := by
      intro i
      rw [hmem]
      refine ⟨fun hr => ⟨hr.mono (a.openOperands_subset _), ?_⟩,
        fun hi => h.2.reaches_open hi.1 hi.2⟩
      rcases Arena.eq_or_unknown hr with rfl | hunknown
      · exact hb
      · simpa using hunknown
    have hlt : ∀ i ∈ order, i < a.size := fun i hi =>
      Nat.lt_of_le_of_lt (((hiff i).mp hi).1.le fun _ _ hx => ha.operand_lt hx) hroot
    have hclosed : ∀ i ∈ order, ∀ x ∈ a.operands i, (s.context.buffer? x).isSome ∨ x ∈ order := by
      intro i hi x hx
      rw [hiff]
      cases hx' : s.context.buffer? x with
      | some u => exact .inl rfl
      | none => exact .inr ⟨((hiff i).mp hi).1.trans (.step hx (.refl x)), rfl⟩
    rcases evaluateNodes_advances strict h ha hascending hlt (fun i hi => ((hiff i).mp hi).2)
      hclosed with ⟨t, hrun, hdone⟩ | ⟨done, f, rest, e, ending, t, rfl, hrun, hstops, hdone⟩
    · have hin := (hdone.remembered root).mpr (.inr ⟨root, (hiff root).mpr ⟨.refl root, hb⟩, rfl⟩)
      obtain ⟨b, hb'⟩ := Option.isSome_iff_exists.mp (Std.HashMap.isSome_getElem?_iff_mem.mpr hin)
      rw [evaluate_of_pending hb horder hrun hb']
      refine .completed order ⟨hascending, fun i => ?_⟩ hdone hb'
      rw [hiff, and_true]
    · obtain ⟨hreached, hunknown⟩ := (hiff f).mp (by simp)
      rw [evaluate_of_error hb horder hrun]
      obtain ⟨hbefore, hafter, hbetween⟩ := List.pairwise_append.mp hascending
      have hleast := (List.pairwise_cons.mp hafter).1
      refine .stopped f done ending hreached hunknown ⟨hbefore, fun i => ?_⟩ hstops hdone
      rw [← and_assoc, ← hiff, List.mem_append, List.mem_cons]
      constructor
      · intro hi
        exact ⟨.inl hi, hbetween i hi f (List.mem_cons_self ..)⟩
      · rintro ⟨hi | rfl | hi, hlt⟩
        · exact hi
        · omega
        · have := hleast i hi
          omega

end Evaluate

section Rebind

variable {strict : Bool} {a : Arena} {root : Nat} {s : Lowering} {arena : Option ArenaId}

/-- It does not matter to what arena the context was bound. -/
theorem Advances.rebind {done : List Nat} {ending : Ending} {t : Lowering}
    (h : Advances a done ending { s with context := { s.context with arena } } t) :
    Advances a done ending s t :=
  ⟨⟨h.lasts.values, h.lasts.ids⟩, h.active, h.remembered, h.numbered, h.journal, h.leaves,
    h.operators⟩

/-- An evaluation ends in the same way where its state is a part of a larger one. -/
theorem Ends.rebind {σ : Type} (view : σ → Lowering) (place : Lowering → σ)
    (hplace : ∀ t, view (place t) = t) {x : EStateM.Result Error Lowering Nat} :
    Ends id strict a root { s with context := { s.context with arena } } x →
    Ends view strict a root s
      (match x with
        | .ok b t => .ok b (place t)
        | .error e t => .error e (place t)) := by
  intro h
  cases h with
  | completed done order advances buffer =>
    refine .completed done ⟨order.ascending, order.mem_iff⟩ ?_ ?_
    · rw [hplace]
      exact advances.rebind
    · rw [hplace]
      exact buffer
  | stopped f done ending reached unknown order stops advances =>
    refine .stopped f done ending reached unknown ⟨order.ascending, order.mem_iff⟩ ?_ ?_
    · rw [hplace]
      exact stops
    · rw [hplace]
      exact advances.rebind

end Rebind

end Lowering

end TensorGraph
