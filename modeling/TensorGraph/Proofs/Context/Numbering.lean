import TensorGraph.Proofs.Context.Visit

/-!
# Numbers of nodes

A context numbers a node before it evaluates it, and remembers it only afterwards. So whatever it
is asked, also where evaluations fail or ids are entered from outside, remembered nodes have ids,
no two nodes have one, and ids are those that were handed out. What is remembered and numbered
stays.
-/

namespace TensorGraph

namespace Context

/-- What a context remembers, and how it numbered nodes, stays. -/
structure Lasts (c d : Context) : Prop where
  values : ∀ (i : Int) b, c.values[i]? = some b → d.values[i]? = some b
  ids : ∀ (i : Int) id, c.ids[i]? = some id → d.ids[i]? = some id

structure WellNumbered (c : Context) : Prop where
  /-- What is remembered has an id. -/
  remembered : ∀ i ∈ c.values, (c.ids[i]?).isSome
  injective : ∀ (i j : Int) id, c.ids[i]? = some id → c.ids[j]? = some id → i = j
  range : ∀ (i : Int) id, c.ids[i]? = some id → 1 ≤ id ∧ id ≤ c.counter

instance : IsPreorder Context Lasts where
  refl _ := ⟨fun _ _ h => h, fun _ _ h => h⟩
  trans _ _ _ hcd hde :=
    ⟨fun i b h => hde.values i b (hcd.values i b h), fun i id h => hde.ids i id (hcd.ids i id h)⟩

variable {c d : Context}

theorem lasts_of_same (hvalues : d.values = c.values) (hids : d.ids = c.ids) : c.Lasts d :=
  ⟨fun _ _ h => hvalues ▸ h, fun _ _ h => hids ▸ h⟩

theorem wellNumbered_fresh (requiresGrad : Bool) : (fresh requiresGrad).WellNumbered where
  remembered i h := by simp [fresh] at h
  injective i j id h := by simp [fresh] at h
  range i id h := by simp [fresh] at h

/-- More ids may be handed out without a node. -/
theorem WellNumbered.mono (h : c.WellNumbered) (hvalues : d.values = c.values)
    (hids : d.ids = c.ids) (hcounter : c.counter ≤ d.counter) : d.WellNumbered where
  remembered := by
    rw [hvalues, hids]
    exact h.remembered
  injective := by
    rw [hids]
    exact h.injective
  range i id hi := by
    rw [hids] at hi
    have hrange := h.range i id hi
    omega

/-- A node that has an id may be remembered. -/
theorem WellNumbered.insert (h : c.WellNumbered) {i : Int} (hi : (c.ids[i]?).isSome) {b : Nat}
    (hvalues : d.values = c.values.insert i b) (hids : d.ids = c.ids)
    (hcounter : d.counter = c.counter) : d.WellNumbered where
  remembered j hj := by
    rw [hvalues, Std.HashMap.mem_insert] at hj
    rw [hids]
    rcases hj with hij | hj
    · rw [← eq_of_beq hij]
      exact hi
    · exact h.remembered j hj
  injective := by
    rw [hids]
    exact h.injective
  range := by
    rw [hids, hcounter]
    exact h.range

/-- A node has its id, or gets the next one. -/
theorem idOf_cases (c : Context) (i : Int) :
    (c.ids[i]? = some (c.idOf i).1 ∧ (c.idOf i).2 = c) ∨
      (c.ids[i]? = none ∧ (c.idOf i).1 = c.counter + 1 ∧ (c.idOf i).2 =
        { c with counter := c.counter + 1, ids := c.ids.insert i (c.counter + 1) }) := by
  simp only [idOf]
  cases hi : c.ids[i]? with
  | some id => exact .inl ⟨rfl, rfl⟩
  | none => exact .inr ⟨rfl, rfl, rfl⟩

theorem ids_idOf (c : Context) (i : Int) : (c.idOf i).2.ids[i]? = some (c.idOf i).1 := by
  rcases c.idOf_cases i with ⟨hi, hc⟩ | ⟨-, hid, hc⟩
  · rw [hc, hi]
  · rw [hc, hid]
    exact Std.HashMap.getElem?_insert_self

theorem lasts_idOf (c : Context) (i : Int) : c.Lasts (c.idOf i).2 := by
  rcases c.idOf_cases i with ⟨-, hc⟩ | ⟨hi, -, hc⟩
  · rw [hc]
    exact Std.Refl.refl c
  · rw [hc]
    refine ⟨fun _ _ h => h, fun j id hj => ?_⟩
    have hne : (i == j) = false := by
      rw [beq_eq_false_iff_ne]
      rintro rfl
      rw [hi] at hj
      cases hj
    rw [Std.HashMap.getElem?_insert, hne]
    exact hj

theorem WellNumbered.idOf (h : c.WellNumbered) (i : Int) : (c.idOf i).2.WellNumbered := by
  rcases c.idOf_cases i with ⟨-, hc⟩ | ⟨hi, -, hc⟩
  · rw [hc]
    exact h
  have hids : ∀ j id, (c.ids.insert i (c.counter + 1))[j]? = some id ↔
      if i = j then id = c.counter + 1 else c.ids[j]? = some id := by
    intro j id
    rw [Std.HashMap.getElem?_insert]
    by_cases hij : i = j
    · simp [hij, eq_comm]
    · simp [hij]
  rw [hc]
  constructor
  case remembered =>
    intro j hj
    obtain ⟨id, hid⟩ := Option.isSome_iff_exists.mp (h.remembered j hj)
    have hne : i ≠ j := by
      rintro rfl
      rw [hi] at hid
      cases hid
    exact Option.isSome_iff_exists.mpr ⟨id, (hids j id).mpr (by rw [if_neg hne, hid])⟩
  case injective =>
    -- the next id was handed out to no node before
    intro j k id hj hk
    rw [hids] at hj hk
    split at hj
    · rename_i hij
      split at hk
      · rename_i hik
        rw [← hij, ← hik]
      · have := h.range k id hk
        omega
    · split at hk
      · have := h.range j id hj
        omega
      · exact h.injective j k id hj hk
  case range =>
    intro j id hj
    rw [hids] at hj
    split at hj
    · exact ⟨by omega, Nat.le_of_eq hj⟩
    · have hrange := h.range j id hj
      exact ⟨hrange.1, Nat.le_succ_of_le hrange.2⟩

/-- Nothing is forgotten, and numbers stay in order. -/
structure Proceeds (c d : Context) : Prop extends Lasts c d where
  wellNumbered : c.WellNumbered → d.WellNumbered

instance : IsPreorder Context Proceeds where
  refl c := ⟨Std.Refl.refl c, id⟩
  trans _ _ _ hcd hde :=
    ⟨IsTrans.trans _ _ _ hcd.toLasts hde.toLasts, fun h => hde.wellNumbered (hcd.wellNumbered h)⟩

theorem proceeds_of_same (hvalues : d.values = c.values) (hids : d.ids = c.ids)
    (hcounter : c.counter ≤ d.counter) : c.Proceeds d :=
  ⟨lasts_of_same hvalues hids, fun h => h.mono hvalues hids hcounter⟩

/-- What is remembered are indices, and no handles that count from the end. -/
def NaturalKeys (c : Context) : Prop := ∀ i ∈ c.values, 0 ≤ i

theorem naturalKeys_fresh (requiresGrad : Bool) : (fresh requiresGrad).NaturalKeys := by
  intro i h
  simp [fresh] at h

/-- What a context remembers keeps to indices. -/
def StaysNatural (c d : Context) : Prop := c.NaturalKeys → d.NaturalKeys

instance : IsPreorder Context StaysNatural where
  refl _ h := h
  trans _ _ _ hcd hde h := hde (hcd h)

end Context

namespace Lowering

/-! ### One node -/

/-- A node was numbered, and its id could not be entered. -/
def barred (i : Int) (s : Lowering) : Lowering :=
  { numbered i s with history := s.history.push (.refused (s.context.idOf i).1) }

theorem evaluateNode_barred (strict : Bool) {a : Arena} {i : Int} {n : Node} {s : Lowering}
    (hn : a.at? i = some n) (h : ((s.context.idOf i).1 : Int) ∈ s.context.active) :
    evaluateNode strict a i s = .error (.reentered (s.context.idOf i).1) (barred i s) := by
  have hassign : assignId i s = .ok (s.context.idOf i).1 (numbered i s) := rfl
  have hin : ((s.context.idOf i).1 : Int) ∈ (numbered i s).context.active :=
    active_idOf s.context i ▸ h
  have henter : enter (s.context.idOf i).1 (numbered i s) =
      .error (.reentered (s.context.idOf i).1) (barred i s) := by
    simp only [enter]
    rw [if_pos hin]
    rfl
  simp only [evaluateNode, hn]
  rw [bind_of_ok hassign]
  refine bind_of_error ?_
  simp only [within, henter]

/-- What the evaluation of a node does to the tables of a context: nothing, or the node is numbered,
or remembered, too. -/
inductive Tabulates (i : Int) (c d : Context) : Prop
  | nothing (same : d = c)
  | numbers (ids : d.ids = (c.idOf i).2.ids) (counter : d.counter = (c.idOf i).2.counter)
      (values : d.values = c.values)
  | remembers (b : Nat) (ids : d.ids = (c.idOf i).2.ids)
      (counter : d.counter = (c.idOf i).2.counter) (values : d.values = c.values.insert i b)

section Tabulates

variable (i : Int) (e : Emission) (q : Program) (s : Lowering)

theorem ids_left : (left i q s).context.ids = (s.context.idOf i).2.ids := by
  simp only [left, exit, entered, numbered]

theorem ids_barred : (barred i s).context.ids = (s.context.idOf i).2.ids := by
  simp only [barred, numbered]

theorem ids_visited : (visited i e q s).context.ids = (s.context.idOf i).2.ids := by
  rw [context_visited, ids_left]

theorem counter_left : (left i q s).context.counter = (s.context.idOf i).2.counter := by
  simp only [left, exit, entered, numbered]

theorem values_left : (left i q s).context.values = s.context.values := by
  simp only [left, exit, entered, numbered, (idOf_same s.context i).1]

theorem values_barred : (barred i s).context.values = s.context.values := by
  simp only [barred, numbered, (idOf_same s.context i).1]

theorem tabulates_left : Tabulates i s.context (left i q s).context :=
  .numbers (ids_left i q s) (counter_left i q s) (values_left i q s)

theorem tabulates_visited : Tabulates i s.context (visited i e q s).context := by
  refine .remembers e.id (ids_visited i e q s) ?_ (values_visited i e q s)
  rw [context_visited, counter_left]

theorem tabulates_barred : Tabulates i s.context (barred i s).context := by
  refine .numbers (ids_barred i s) ?_ (values_barred i s)
  simp only [barred, numbered]

end Tabulates

theorem evaluateNode_tabulates (strict : Bool) (a : Arena) (i : Int) (s : Lowering) :
    Tabulates i s.context (stateAfter (evaluateNode strict a i s)).context := by
  by_cases hin : ((s.context.idOf i).1 : Int) ∈ s.context.active
  · cases hn : a.at? i with
    | none =>
      have hrun : evaluateNode strict a i s = .error (.absent i) s := by
        simp only [evaluateNode, hn]
        rfl
      rw [hrun]
      exact .nothing rfl
    | some n =>
      rw [evaluateNode_barred strict hn hin]
      exact tabulates_barred i s
  · cases visit_of_notMem strict a i hin with
    | absent _ hrun =>
      rw [hrun]
      exact .nothing rfl
    | blocked n e _ _ hrun =>
      rw [hrun]
      exact tabulates_left i s.program s
    | refused n x e q _ _ _ hrun =>
      rw [hrun]
      exact tabulates_left i q s
    | granted n x e q _ _ _ hrun =>
      rw [hrun]
      exact tabulates_visited i e q s

/-- Evaluating a node that is not remembered forgets nothing. -/
theorem Tabulates.proceeds {i : Int} {c d : Context} (h : Tabulates i c d)
    (hnew : c.values[i]? = none) : c.Proceeds d := by
  cases h with
  | nothing hsame =>
    rw [hsame]
    exact Std.Refl.refl c
  | numbers hids hcounter hvalues =>
    have hnext := c.lasts_idOf i
    refine ⟨⟨fun j b hj => hvalues ▸ hj, fun j id hj => ?_⟩, fun h => ?_⟩
    · rw [hids]
      exact hnext.ids j id hj
    · exact (h.idOf i).mono (hvalues.trans (idOf_same c i).1.symm) hids (Nat.le_of_eq hcounter.symm)
  | remembers b hids hcounter hvalues =>
    have hnext := c.lasts_idOf i
    have hid := Option.isSome_iff_exists.mpr ⟨_, c.ids_idOf i⟩
    refine ⟨⟨fun j u hj => ?_, fun j id hj => ?_⟩, fun h => ?_⟩
    · have hne : (i == j) = false := by
        rw [beq_eq_false_iff_ne]
        rintro rfl
        rw [hnew] at hj
        cases hj
      rw [hvalues, Std.HashMap.getElem?_insert, hne]
      exact hj
    · rw [hids]
      exact hnext.ids j id hj
    · exact (h.idOf i).insert hid (hvalues.trans (by rw [(idOf_same c i).1])) hids hcounter

theorem Tabulates.staysNatural {i : Int} {c d : Context} (h : Tabulates i c d) (hi : 0 ≤ i) :
    c.StaysNatural d := by
  intro hc
  cases h with
  | nothing hsame => exact hsame ▸ hc
  | numbers _ _ hvalues =>
    rw [Context.NaturalKeys, hvalues]
    exact hc
  | remembers b _ _ hvalues =>
    intro j hj
    rw [hvalues, Std.HashMap.mem_insert] at hj
    rcases hj with hij | hj
    · exact eq_of_beq hij ▸ hi
    · exact hc j hj

/-- What relates the context before to the one after. -/
def ContextBy (R : Context → Context → Prop) (s t : Lowering) : Prop := R s.context t.context

instance (R : Context → Context → Prop) [IsPreorder Context R] :
    IsPreorder Lowering (ContextBy R) where
  refl s := Std.Refl.refl s.context
  trans _ _ _ hst htu := IsTrans.trans (r := R) _ _ _ hst htu

/-- Evaluation relates contexts as evaluating one node does that is not remembered. -/
theorem evaluate_contextBy {R : Context → Context → Prop} [IsPreorder Context R] (strict : Bool)
    {a : Arena} (ha : a.WellFormed) {root : Int}
    (hR : ∀ i c d, c.values[i]? = none → (0 ≤ root → 0 ≤ i) → Tabulates i c d → R c d) :
    Keeps (ContextBy R) (evaluate strict a root) :=
  evaluate_induct ha fun i s hnew hpos =>
    hR i _ _ hnew hpos (evaluateNode_tabulates strict a i s)

theorem evaluate_proceeds (strict : Bool) {a : Arena} (ha : a.WellFormed) (root : Int) :
    Keeps (ContextBy Context.Proceeds) (evaluate strict a root) :=
  evaluate_contextBy strict ha fun _ _ _ hnew _ htabulates => htabulates.proceeds hnew

theorem evaluate_staysNatural (strict : Bool) {a : Arena} (ha : a.WellFormed) {root : Int}
    (hroot : 0 ≤ root) : Keeps (ContextBy Context.StaysNatural) (evaluate strict a root) :=
  evaluate_contextBy strict ha fun _ _ _ _ hpos htabulates => htabulates.staysNatural (hpos hroot)

end Lowering

end TensorGraph
