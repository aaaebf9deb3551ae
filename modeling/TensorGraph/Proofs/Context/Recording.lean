import TensorGraph.Proofs.Context.Visit

/-!
# What evaluating records

Evaluating a node records at most one emission, of the operation of its kind. So the operations that
an evaluation asks a program for are those of the nodes that it has to visit.
-/

namespace TensorGraph

/-- The operation that computes a kind of nodes. -/
def Kind.op? : Kind → Option Op
  | .leaf _ => none
  | .unary k => some (Lowering.unaryOp k)
  | .binary k => some (Lowering.binaryOp k)

/-- The operation that was asked for, unless it was a leaf. -/
def Emission.op? : Emission → Option Op
  | .leaf .. => none
  | .fresh _ i | .hit _ i => some i.op

theorem Program.op?_of_alloc {shape : Value} {zero : Bool} {p q : Program} {e : Emission}
    (h : alloc shape zero p = .ok e q) : e.op? = none := by
  unfold alloc at h
  split at h
  · cases h
  · cases h
    rfl

theorem Program.op?_of_emit {strict : Bool} {op : Op} {shape : Value} {a b : Int} {p q : Program}
    {e : Emission} {digits : Option Nat} (h : emit digits strict (.op op) shape a b p = .ok e q) :
    e.op? = some op := by
  rcases emit_cases digits strict (.op op) shape a b p with
    ⟨e', he⟩ | ⟨i, hi, ⟨id, -, he⟩ | ⟨-, he⟩⟩
  · cases he.symm.trans h
  · obtain ⟨hop, -⟩ := newInstruction_ok hi
    rcases hit_cases digits strict i id p with ⟨e', hhit⟩ | ⟨-, hhit⟩
    · cases (he.trans hhit).symm.trans h
    · cases (he.trans hhit).symm.trans h
      exact congrArg some (Op.Candidate.op.inj hop).symm
  · obtain ⟨hop, -⟩ := newInstruction_ok hi
    by_cases hnamed : i.op.Named digits
    · cases (he.trans (fresh_of_named hnamed p)).symm.trans h
      exact congrArg some (Op.Candidate.op.inj hop).symm
    · obtain ⟨e', he'⟩ := fresh_of_unnamed hnamed p
      cases (he.trans he').symm.trans h

/-- The history goes on with emissions of certain operations. -/
def Records (P : Op → Prop) (before after : Array Event) : Prop :=
  ∃ events : List Event, after.toList = before.toList ++ events ∧
    ∀ e, .emission e ∈ events → ∀ op, e.op? = some op → P op

variable {P : Op → Prop}

instance : IsPreorder (Array Event) (Records P) where
  refl history := ⟨[], by simp, by simp⟩
  trans _ _ _ := by
    rintro ⟨events, hevents, hP⟩ ⟨later, hlater, hP'⟩
    refine ⟨events ++ later, by rw [hlater, hevents, List.append_assoc], fun e he => ?_⟩
    rcases List.mem_append.mp he with he | he
    · exact hP e he
    · exact hP' e he

theorem records_push (history : Array Event) {event : Event}
    (h : ∀ e, event = .emission e → ∀ op, e.op? = some op → P op) :
    Records P history (history.push event) :=
  ⟨[event], Array.toList_push, fun e he => h e (List.mem_singleton.mp he).symm⟩

namespace Lowering

open Number.Numeral (digitLimit)

/-- Lowering goes on with emissions of certain operations. -/
def RecordsIn (P : Op → Prop) (s t : Lowering) : Prop := Records P s.history t.history

instance : IsPreorder Lowering (RecordsIn P) where
  refl s := Std.Refl.refl s.history
  trans _ _ _ hst htu := IsTrans.trans (r := Records P) _ _ _ hst htu

theorem enter_records (id : Int) : Keeps (RecordsIn P) (enter id) := by
  rintro ⟨c, p, history⟩
  simp only [enter]
  split
  · exact records_push history (by simp)
  · exact records_push history (by simp)

theorem valueOf_records (x : Nat) : Keeps (RecordsIn P) (valueOf x) := by
  intro s
  simp only [valueOf]
  split
  · exact Std.Refl.refl s
  · exact Std.Refl.refl s

theorem emitting_records {x : Emit Emission}
    (h : ∀ p e q, x p = .ok e q → ∀ op, e.op? = some op → P op) :
    Keeps (RecordsIn P) (emitting x) := by
  rintro ⟨c, p, history⟩
  simp only [emitting]
  cases hx : x p with
  | ok e q =>
    refine records_push history ?_
    rintro _ ⟨⟩
    exact h p e q hx
  | error e q => exact Std.Refl.refl (α := Array Event) history

/-- Lowering a node records an emission of the operation of its kind. -/
theorem lowerNode_records (strict : Bool) {n : Node} (hn : ∀ op, n.kind.op? = some op → P op) :
    Keeps (RecordsIn P) (lowerNode strict n) := by
  have hemit : ∀ (op : Op) (u v : Int), n.kind.op? = some op →
      Keeps (RecordsIn P)
        (emitting (Program.emit (some digitLimit) strict (.op op) (.shape n.shape) u v)) := by
    intro op u v hop
    refine emitting_records fun p e q he op' hop' => ?_
    cases (Program.op?_of_emit he).symm.trans hop'
    exact hn op hop
  simp only [lowerNode]
  cases hform : n.form with
  | leaf k =>
    refine emitting_records fun p e q he op hop => ?_
    cases (Program.op?_of_alloc he).symm.trans hop
  | unary k x =>
    refine Keeps.bind (valueOf_records x) fun u => hemit _ _ _ ?_
    rw [Node.kind, hform]
    rfl
  | binary k l r =>
    refine Keeps.bind (valueOf_records l) fun u => Keeps.bind (valueOf_records r) fun v =>
      hemit _ _ _ ?_
    rw [Node.kind, hform]
    rfl

theorem within_records (id : Int) {x : Lower Nat} (h : Keeps (RecordsIn P) x) :
    Keeps (RecordsIn P) (within id x) := by
  intro s
  have hs := enter_records (P := P) id s
  simp only [within]
  cases henter : enter id s with
  | error e t =>
    rw [henter] at hs
    exact hs
  | ok u t =>
    rw [henter] at hs
    have ht := h t
    dsimp only
    cases hx : x t with
    | ok v t' =>
      rw [hx] at ht
      have hexit : RecordsIn P t' (exit id t') := records_push t'.history (by simp)
      exact IsTrans.trans _ _ _ hs (IsTrans.trans _ _ _ ht hexit)
    | error e t' =>
      rw [hx] at ht
      have hexit : RecordsIn P t' (exit id t') := records_push t'.history (by simp)
      exact IsTrans.trans _ _ _ hs (IsTrans.trans _ _ _ ht hexit)

theorem evaluateNode_records (strict : Bool) {a : Arena} {i : Int}
    (hi : ∀ n, a.at? i = some n → ∀ op, n.kind.op? = some op → P op) :
    Keeps (RecordsIn P) (evaluateNode strict a i) := by
  simp only [evaluateNode]
  split
  · exact Keeps.throw _
  · rename_i n hn
    refine Keeps.bind (fun s => Std.Refl.refl s.history) fun id => ?_
    refine Keeps.bind (within_records id (lowerNode_records strict (hi n hn))) fun b => ?_
    exact fun s => Std.Refl.refl s.history

/-- The operations that an evaluation asks for are those of the nodes below the root that are not
remembered. -/
theorem evaluate_records (strict : Bool) {a : Arena} (ha : a.WellFormed) {root : Nat}
    (hroot : root < a.size) {s : Lowering}
    (hnodes : ∀ i n, Reaches a.operands root i → s.context.buffer? i = none → a.node? i = some n →
      ∀ op, n.kind.op? = some op → P op) :
    RecordsIn P s (stateAfter (evaluate strict a root s)) := by
  cases hb : s.context.buffer? root with
  | some b =>
    rw [evaluate_of_known hb]
    exact Std.Refl.refl s.history
  | none =>
    obtain ⟨order, horder, hpending⟩ := exists_pending ha hroot hb
    have hall : RecordsIn P s
        (stateAfter ((order.map Int.ofNat).forM (evaluateNode strict a) s)) := by
      refine Keeps.forM _ (fun i hi => ?_) s
      obtain ⟨j, hj, rfl⟩ := List.mem_map.mp hi
      refine evaluateNode_records strict fun n hn => ?_
      change a.at? (j : Int) = some n at hn
      rw [Arena.at?_ofNat] at hn
      exact hnodes j n (hpending.reached j hj) (hpending.unknown j hj) hn
    have hnone : s.context.values[(root : Int)]? = none := hb
    simp only [evaluate, hnone, horder]
    split
    · rename_i hrun
      rw [hrun] at hall
      exact hall
    · rename_i hrun
      rw [hrun] at hall
      split
      · exact hall
      · exact hall

end Lowering

end TensorGraph
