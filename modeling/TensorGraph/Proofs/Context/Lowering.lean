import TensorGraph.Proofs.Context.Memo
import TensorGraph.Proofs.Graph.Reach

/-!
# Steps of lowering

Entering, leaving and numbering touch neither the program nor what is remembered. Lowering a node
emits into the program, and what it gives is a buffer that holds what the node computes. So
evaluation, also one that fails half-way, leaves a sound program and a faithful context.
-/

namespace TensorGraph.Lowering

open Number.Numeral (digitLimit)

/-- What is remembered stays the same, and the program grows. -/
structure Emits (s t : Lowering) : Prop where
  values : t.context.values = s.context.values
  bound : t.context.arena = s.context.arena
  grads : t.context.grads = s.context.grads
  grows : s.program.Grows t.program

instance : IsPreorder Lowering Emits where
  refl s := ⟨rfl, rfl, rfl, Std.Refl.refl s.program⟩
  trans _ _ _ hst htu :=
    ⟨htu.values.trans hst.values, htu.bound.trans hst.bound, htu.grads.trans hst.grads,
      IsTrans.trans _ _ _ hst.grows htu.grows⟩

theorem enter_keeps (id : Int) : Keeps Emits (enter id) := by
  rintro ⟨c, p, events⟩
  simp only [enter]
  split
  · exact ⟨rfl, rfl, rfl, Std.Refl.refl p⟩
  · exact ⟨rfl, rfl, rfl, Std.Refl.refl p⟩

theorem exit_emits (id : Int) (s : Lowering) : s.Emits (exit id s) :=
  ⟨rfl, rfl, rfl, Std.Refl.refl s.program⟩

theorem idOf_same (c : Context) (i : Int) :
    (c.idOf i).2.values = c.values ∧ (c.idOf i).2.arena = c.arena ∧
      (c.idOf i).2.grads = c.grads := by
  simp only [Context.idOf]
  cases c.ids[i]? with
  | some id => exact ⟨rfl, rfl, rfl⟩
  | none => exact ⟨rfl, rfl, rfl⟩

theorem assignId_keeps (i : Int) : Keeps Emits (assignId i) := by
  intro s
  obtain ⟨hvalues, hbound, hgrads⟩ := idOf_same s.context i
  exact ⟨hvalues, hbound, hgrads, Std.Refl.refl s.program⟩

theorem emitting_keeps {x : Emit Emission} (h : Keeps Program.Grows x) :
    Keeps Emits (emitting x) := by
  rintro ⟨c, p, events⟩
  have hp := h p
  simp only [emitting]
  cases hx : x p with
  | ok e q =>
    rw [hx] at hp
    exact ⟨rfl, rfl, rfl, hp⟩
  | error e q =>
    rw [hx] at hp
    exact ⟨rfl, rfl, rfl, hp⟩

theorem valueOf_keeps (x : Nat) : Keeps Emits (valueOf x) := by
  intro s
  simp only [valueOf]
  split
  · exact Std.Refl.refl s
  · exact Std.Refl.refl s

theorem lowerNode_keeps (strict : Bool) (n : Node) : Keeps Emits (lowerNode strict n) := by
  simp only [lowerNode]
  split
  · exact emitting_keeps (Program.alloc_keeps _ _)
  · refine Keeps.bind (valueOf_keeps _) fun u => ?_
    exact emitting_keeps (Program.emit_keeps _ _ _ _ _ _)
  · refine Keeps.bind (valueOf_keeps _) fun u => Keeps.bind (valueOf_keeps _) fun v => ?_
    exact emitting_keeps (Program.emit_keeps _ _ _ _ _ _)

theorem within_keeps (id : Int) {x : Lower Nat} (h : Keeps Emits x) :
    Keeps Emits (within id x) := by
  intro s
  have hs := enter_keeps id s
  simp only [within]
  cases henter : enter id s with
  | error e t =>
    rw [henter] at hs
    exact hs
  | ok u t =>
    rw [henter] at hs
    have ht := h t
    dsimp only
    cases hx : x t with
    | ok v t' =>
      rw [hx] at ht
      exact IsTrans.trans _ _ _ hs (IsTrans.trans _ _ _ ht (exit_emits id t'))
    | error e t' =>
      rw [hx] at ht
      exact IsTrans.trans _ _ _ hs (IsTrans.trans _ _ _ ht (exit_emits id t'))

/-! ### The buffer of a node -/

theorem emitting_ok {x : Emit Emission} {s t : Lowering} {b : Nat} (h : emitting x s = .ok b t) :
    ∃ e, x s.program = .ok e t.program ∧ b = e.id := by
  obtain ⟨c, p, events⟩ := s
  unfold emitting at h
  cases hx : x p with
  | error e q =>
    simp only [hx] at h
    cases h
  | ok e q =>
    simp only [hx] at h
    cases h
    exact ⟨e, rfl, rfl⟩

theorem valueOf_ok {x : Nat} {s t : Lowering} {b : Nat} (h : valueOf x s = .ok b t) :
    t = s ∧ s.context.buffer? x = some b := by
  unfold valueOf at h
  split at h
  · rename_i hb
    cases h
    exact ⟨rfl, hb⟩
  · cases h

/-- A primitive over one buffer is held by the buffer that emission gives. -/
theorem emit_unary {strict : Bool} {k : Unary} {shape : Shape} {u : Nat} {p q : Program}
    {e : Emission} (hp : p.Sound)
    (h : Program.emit (some digitLimit) strict (.op (unaryOp k)) (.shape shape) u 0 p = .ok e q) :
    ∃ s, q.cell? e.id = some (.instruction ⟨unaryOp k, s, .one u⟩) := by
  obtain ⟨i, j, hi, -, hj, hkey⟩ := Program.emit_ok hp h
  obtain ⟨hop, _, hread⟩ := Program.newInstruction_ok hi
  have hop : unaryOp k = i.op := Op.Candidate.op.inj hop
  obtain ⟨op, s, read⟩ := i
  dsimp only at hop hread
  subst hop
  rcases (Program.sources_ok hread).2 with ⟨hcount, _⟩ | ⟨_, x, hx, rfl⟩
  · cases k <;> simp [unaryOp, Op.sourceCount, Primitive.group] at hcount
  · have hx : u = x := by omega
    subst hx
    rw [unaryOp_eq] at hkey ⊢
    exact ⟨j.shape, by rw [hj, ← Instruction.eq_of_key hkey]⟩

theorem emit_binary {strict : Bool} {k : Binary} {shape : Shape} {u v : Nat} {p q : Program}
    {e : Emission} (hp : p.Sound)
    (h : Program.emit (some digitLimit) strict (.op (binaryOp k)) (.shape shape) u v p =
      .ok e q) :
    ∃ s, q.cell? e.id = some (.instruction ⟨binaryOp k, s, .two u v⟩) := by
  obtain ⟨i, j, hi, -, hj, hkey⟩ := Program.emit_ok hp h
  obtain ⟨hop, _, hread⟩ := Program.newInstruction_ok hi
  have hop : binaryOp k = i.op := Op.Candidate.op.inj hop
  obtain ⟨op, s, read⟩ := i
  dsimp only at hop hread
  subst hop
  rcases (Program.sources_ok hread).2 with ⟨_, x, y, hx, hy, rfl⟩ | ⟨hcount, _⟩
  · have hx : u = x := by omega
    have hy : v = y := by omega
    subst hx hy
    rw [binaryOp_eq] at hkey ⊢
    exact ⟨j.shape, by rw [hj, ← Instruction.eq_of_key hkey]⟩
  · cases k <;> simp [binaryOp, Op.sourceCount, Primitive.group] at hcount

/-- The buffer of a lowered node holds what the node computes; a leaf gets one that is new. -/
theorem lowerNode_ok {strict : Bool} {n : Node} {s t : Lowering} {b : Nat} (hs : s.program.Sound)
    (h : lowerNode strict n s = .ok b t) :
    t.program.Holds s.context.buffer? n b ∧
      ∀ shape z, t.program.cell? b = some (.leaf shape z) → s.program.cell? b = none := by
  obtain ⟨form, shape, name⟩ := n
  cases form with
  | leaf k =>
    replace h : emitting (Program.alloc (.shape shape) (k == .zero)) s = .ok b t := h
    obtain ⟨e, he, rfl⟩ := emitting_ok h
    obtain ⟨shape', hshape, hnone, hcell⟩ := Program.alloc_ok he
    rw [Shape.ofValue_shape] at hshape
    cases hshape
    exact ⟨hcell, fun _ _ _ => hnone⟩
  | unary k x =>
    simp only [lowerNode] at h
    obtain ⟨u, s', hu, hemit⟩ := exists_of_bind_ok h
    obtain ⟨rfl, hu⟩ := valueOf_ok hu
    obtain ⟨e, he, rfl⟩ := emitting_ok hemit
    obtain ⟨shape', hcell⟩ := emit_unary hs he
    refine ⟨⟨u, shape', hu, hcell⟩, fun _ _ hleaf => ?_⟩
    rw [hcell] at hleaf
    cases hleaf
  | binary k l r =>
    simp only [lowerNode] at h
    obtain ⟨u, s', hu, hrest⟩ := exists_of_bind_ok h
    obtain ⟨rfl, hu⟩ := valueOf_ok hu
    obtain ⟨v, s'', hv, hemit⟩ := exists_of_bind_ok hrest
    obtain ⟨rfl, hv⟩ := valueOf_ok hv
    obtain ⟨e, he, rfl⟩ := emitting_ok hemit
    obtain ⟨shape', hcell⟩ := emit_binary hs he
    refine ⟨⟨u, v, shape', hu, hv, hcell⟩, fun _ _ hleaf => ?_⟩
    rw [hcell] at hleaf
    cases hleaf

/-! ### Evaluation -/

/-- A sound program with a context that is faithful to it. -/
def Ready (a : Arena) (s : Lowering) : Prop := s.program.Sound ∧ s.context.Faithful a s.program

/-- The context stays bound and keeps its gradients, and the program grows. -/
structure Lowers (s t : Lowering) : Prop where
  bound : t.context.arena = s.context.arena
  grads : t.context.grads = s.context.grads
  grows : s.program.Grows t.program

instance : IsPreorder Lowering Lowers where
  refl s := ⟨rfl, rfl, Std.Refl.refl s.program⟩
  trans _ _ _ hst htu :=
    ⟨htu.bound.trans hst.bound, htu.grads.trans hst.grads,
      IsTrans.trans _ _ _ hst.grows htu.grows⟩

theorem Emits.lowers {s t : Lowering} (h : s.Emits t) : s.Lowers t := ⟨h.bound, h.grads, h.grows⟩

theorem evaluateNode_keeps (strict : Bool) (a : Arena) (i : Int) :
    Keeps Lowers (evaluateNode strict a i) := by
  simp only [evaluateNode]
  split
  · exact Keeps.throw _
  · refine Keeps.bind (fun s => (assignId_keeps i s).lowers) fun id => ?_
    refine Keeps.bind (fun s => (within_keeps id (lowerNode_keeps strict _) s).lowers) fun b => ?_
    exact fun s => ⟨rfl, rfl, Std.Refl.refl s.program⟩

theorem evaluate_lowers (strict : Bool) (a : Arena) (root : Int) :
    Keeps Lowers (evaluate strict a root) := by
  intro s
  simp only [evaluate]
  split
  · exact Std.Refl.refl s
  · split
    · exact Std.Refl.refl s
    · rename_i order _
      have hall := Keeps.forM order (fun i _ => evaluateNode_keeps strict a i) s
      split
      · rename_i hrun
        rw [hrun] at hall
        exact hall
      · rename_i hrun
        rw [hrun] at hall
        split
        · exact hall
        · exact hall

/-- A ready state is followed by a ready one. -/
def Evaluates (a : Arena) (s t : Lowering) : Prop := s.Ready a → t.Ready a

instance (a : Arena) : IsPreorder Lowering (Evaluates a) where
  refl _ h := h
  trans _ _ _ hst htu h := htu (hst h)

theorem Emits.evaluates {s t : Lowering} (h : s.Emits t) (a : Arena) : s.Evaluates a t := by
  intro hs
  exact ⟨h.grows.2 hs.1, hs.2.mono h.values (Arena.Extends.refl a) h.grows.1⟩

theorem within_ok {id : Int} {x : Lower Nat} {s t : Lowering} {b : Nat}
    (h : within id x s = .ok b t) : ∃ s' t', s.Emits s' ∧ x s' = .ok b t' ∧ t = exit id t' := by
  unfold within at h
  cases henter : enter id s with
  | error e s' =>
    rw [henter] at h
    cases h
  | ok u s' =>
    rw [henter] at h
    dsimp only at h
    cases hx : x s' with
    | error e t' =>
      rw [hx] at h
      cases h
    | ok v t' =>
      rw [hx] at h
      cases h
      exact ⟨s', t', (enter_keeps id).of_ok henter, hx, rfl⟩

theorem buffer?_memoize (i : Int) (b : Nat) (s : Lowering) (j : Nat) :
    (stateAfter (memoize i b s)).context.buffer? j =
      if (j : Int) = i then some b else s.context.buffer? j := by
  change (s.context.values.insert i b)[(j : Int)]? = _
  rw [Std.HashMap.getElem?_insert]
  by_cases hj : (j : Int) = i
  · simp [hj]
  · simp [hj, Ne.symm hj, Context.buffer?]

/-- A buffer for a node that was not remembered can be remembered. -/
theorem memoize_evaluates {a : Arena} {s t : Lowering} {i : Int} {n : Node} {b : Nat}
    (hst : s.Emits t) (hnew : s.context.values[i]? = none) (hn : a.at? i = some n)
    (hholds : s.program.Sound → t.program.Holds s.context.buffer? n b ∧
      ∀ shape z, t.program.cell? b = some (.leaf shape z) → s.program.cell? b = none) :
    s.Evaluates a (stateAfter (memoize i b t)) := by
  intro hs
  refine ⟨hst.grows.2 hs.1, ?_⟩
  obtain ⟨hholds, hleaf⟩ := hholds hs.1
  have ht : t.context.Faithful a t.program :=
    hs.2.mono hst.values (Arena.Extends.refl a) hst.grows.1
  have hbuffer := Context.buffer?_congr hst.values
  have hinsert := buffer?_memoize i b t
  by_cases hneg : 0 ≤ i
  · obtain ⟨j, rfl⟩ := Int.eq_ofNat_of_zero_le hneg
    refine ht.insert (i := j) (b := b) (n := n) ?_ ?_ ?_ (by rw [hbuffer]; exact hholds) ?_
    · intro k
      rw [hinsert]
      simp only [Int.natCast_inj]
    · rw [hbuffer]
      exact hnew
    · rw [← Arena.at?_ofNat, hn]
    · intro shape z hcell k hk
      rw [hbuffer] at hk
      obtain ⟨cell, hcell'⟩ := hs.2.exists_cell hk
      rw [hleaf shape z hcell] at hcell'
      cases hcell'
  · -- a handle that counts from the end is no node's index
    have hsame : (stateAfter (memoize i b t)).context.buffer? = t.context.buffer? := by
      funext j
      rw [hinsert, if_neg (by omega)]
    exact ht.congr hsame

/-- Evaluating a node that is not remembered; of what is remembered only this node changes. -/
theorem evaluateNode_evaluates (strict : Bool) (a : Arena) {i : Int} {s : Lowering}
    (hnew : s.context.values[i]? = none) :
    s.Evaluates a (stateAfter (evaluateNode strict a i s)) ∧
      ∀ k, k ≠ i → (stateAfter (evaluateNode strict a i s)).context.values[k]? =
        s.context.values[k]? := by
  simp only [evaluateNode]
  cases hn : a.at? i with
  | none => exact ⟨Std.Refl.refl s, fun _ _ => rfl⟩
  | some n =>
    have hid := assignId_keeps i s
    dsimp only
    cases h1 : assignId i s with
    | error e s1 =>
      rw [h1] at hid
      rw [bind_of_error h1]
      exact ⟨hid.evaluates a, fun k _ => by rw [← hid.values]; rfl⟩
    | ok id s1 =>
      rw [h1] at hid
      have hlower := within_keeps id (lowerNode_keeps strict n) s1
      rw [bind_of_ok h1]
      cases h2 : within id (lowerNode strict n) s1 with
      | error e s2 =>
        rw [h2] at hlower
        have hall : s.Emits s2 := IsTrans.trans _ _ _ hid hlower
        rw [bind_of_error h2]
        exact ⟨hall.evaluates a, fun k _ => by rw [← hall.values]; rfl⟩
      | ok b s2 =>
        rw [h2] at hlower
        have hall : s.Emits s2 := IsTrans.trans _ _ _ hid hlower
        rw [bind_of_ok h2]
        refine ⟨memoize_evaluates hall hnew hn fun hs => ?_, ?_⟩
        · obtain ⟨s', t', hs', ht', rfl⟩ := within_ok h2
          have hs' : s.Emits s' := IsTrans.trans _ _ _ hid hs'
          obtain ⟨hholds, hleaf⟩ := lowerNode_ok (hs'.grows.2 hs) ht'
          rw [Context.buffer?_congr hs'.values] at hholds
          refine ⟨hholds, fun shape z hcell => ?_⟩
          have hnone := hleaf shape z hcell
          cases hold : s.program.cell? b with
          | none => rfl
          | some cell =>
            rw [hs'.grows.1 b cell hold] at hnone
            cases hnone
        · intro k hk
          change (s2.context.values.insert i b)[k]? = _
          rw [Std.HashMap.getElem?_insert, hall.values]
          simp [Ne.symm hk]

section Induction

variable {R : Lowering → Lowering → Prop} [IsPreorder Lowering R] {strict : Bool} {a : Arena}

/-- Evaluating nodes that are not remembered, each once, keeps what evaluating one of them keeps. -/
theorem evaluateNodes_induct {order : List Int} {s : Lowering} (hnodup : order.Nodup)
    (hnew : ∀ i ∈ order, s.context.values[i]? = none)
    (hR : ∀ i ∈ order, ∀ t : Lowering, t.context.values[i]? = none →
      R t (stateAfter (evaluateNode strict a i t))) :
    R s (stateAfter (order.forM (evaluateNode strict a) s)) := by
  induction order generalizing s with
  | nil => exact Std.Refl.refl s
  | cons i rest ih =>
    obtain ⟨hi, hrest⟩ := List.nodup_cons.mp hnodup
    have hmem := List.mem_cons_self (a := i) (l := rest)
    have hstep := hR i hmem s (hnew i hmem)
    have hothers := (evaluateNode_evaluates strict a (hnew i hmem)).2
    cases h : evaluateNode strict a i s with
    | error e t =>
      rw [h] at hstep
      rw [forM_cons_of_error h]
      exact hstep
    | ok u t =>
      rw [h] at hstep hothers
      rw [forM_cons_of_ok h]
      refine IsTrans.trans _ _ _ hstep (ih hrest (fun k hk => ?_) fun k hk => ?_)
      · have hne : k ≠ i := fun hki => hi (hki ▸ hk)
        exact (hothers k hne).trans (hnew k (List.mem_cons_of_mem i hk))
      · exact hR k (List.mem_cons_of_mem i hk)

/-- Evaluation keeps what evaluating a node that is not remembered keeps, whatever its outcome. -/
theorem evaluate_induct (ha : a.WellFormed) {root : Int}
    (hR : ∀ i (s : Lowering), s.context.values[i]? = none → (0 ≤ root → 0 ≤ i) →
      R s (stateAfter (evaluateNode strict a i s))) : Keeps R (evaluate strict a root) := by
  intro s
  simp only [evaluate]
  cases hroot : s.context.values[root]? with
  | some b => exact Std.Refl.refl s
  | none =>
    dsimp only
    cases hpending : pending s.context a root with
    | none => exact Std.Refl.refl s
    | some order =>
      dsimp only
      obtain ⟨hnodup, hfresh⟩ := Arena.reach?_fresh ha hpending
      have hnew : ∀ i ∈ order, s.context.values[i]? = none := by
        intro i hi
        rcases hfresh i hi with rfl | ⟨j, rfl, hj⟩
        · exact hroot
        · exact Std.HashMap.getElem?_eq_none_of_contains_eq_false hj
      have hpos : ∀ i ∈ order, 0 ≤ root → 0 ≤ i := by
        intro i hi
        rcases hfresh i hi with rfl | ⟨j, rfl, -⟩
        · exact id
        · exact fun _ => Int.natCast_nonneg j
      have hall := evaluateNodes_induct hnodup hnew fun i hi t ht => hR i t ht (hpos i hi)
      cases hrun : order.forM (evaluateNode strict a) s with
      | error e t =>
        rw [hrun] at hall
        exact hall
      | ok u t =>
        rw [hrun] at hall
        dsimp only
        split
        · exact hall
        · exact hall

end Induction

/-- Evaluation keeps a ready state ready, whatever its outcome. -/
theorem evaluate_keeps (strict : Bool) {a : Arena} (ha : a.WellFormed) (root : Int) :
    Keeps (Evaluates a) (evaluate strict a root) :=
  evaluate_induct ha fun _ _ hnew _ => (evaluateNode_evaluates strict a hnew).1

end TensorGraph.Lowering
