import TensorGraph.Proofs.Gradient.Shadow
import TensorGraph.Proofs.Workspace.Evaluation
import TensorGraph.Proofs.Workspace.Gradients

/-!
# What refused calls leave behind

Operators and passes look at their arguments one after the other, and what was appended before the
look that fails stays. By then a difference has negated its right operand, a quotient has taken the
reciprocal of it, and a pass may have made its default seed. A sum or a product has appended
nothing.
-/

namespace TensorGraph

namespace Arena

/-- An arena is as it was, but for some nodes at its end. -/
def Leaves (a b : Arena) (nodes : List Node) : Prop := b.nodes.toList = a.nodes.toList ++ nodes

@[simp] theorem leaves_nil {a b : Arena} : a.Leaves b [] ↔ b = a := by
  obtain ⟨xs⟩ := a
  obtain ⟨ys⟩ := b
  simp [Leaves]

theorem leaves_push (a : Arena) (n : Node) : a.Leaves (a.push n) [n] := Array.toList_push

/-- The node that a unary operator makes of a handle. A handle that counts from the end is looked
up, but it is no operand. -/
def unaryNode? (a : Arena) (k : Unary) : Int → Option Node
  | .ofNat x => (a.node? x).map fun n => ⟨.unary k x, n.shape, none⟩
  | .negSucc _ => none

theorem unary_cases (k : Unary) (x : Int) (a : Arena) :
    (a.unaryNode? k x = none ∧ ∃ e, unary k x a = .error e a) ∨
      ∃ n, a.unaryNode? k x = some n ∧ unary k x a = .ok a.size (a.push n) := by
  cases hx : a.at? x with
  | none =>
    have habsent : unary k x a = .error (.absent x) a := by
      simp only [unary, nodeAt, bind, EStateM.bind, hx]
    refine Or.inl ⟨?_, _, habsent⟩
    cases x with
    | ofNat y => simp [unaryNode?, (at?_ofNat a y).symm.trans hx]
    | negSucc y => rfl
  | some m =>
    cases x with
    | ofNat y =>
      have hy : a.node? y = some m := (at?_ofNat a y).symm.trans hx
      exact Or.inr ⟨_, by rw [unaryNode?, hy, Option.map_some], unary_run hy⟩
    | negSucc y =>
      refine Or.inl ⟨rfl, ?_⟩
      simp only [unary, nodeAt, bind, EStateM.bind, hx]
      rcases add_cases (.unary k) [.negSucc y] (.shape m.shape) none a with herror | ⟨n, hn, -⟩
      · exact herror
      · -- operands of an accepted node are natural numbers
        obtain ⟨-, hoperands, -⟩ := newNode_ok hn
        obtain ⟨z, -, hz⟩ := List.mem_map.mp (hoperands ▸ List.mem_singleton_self (Int.negSucc y))
        cases hz

/-- Two operands that do not meet leave nothing. -/
theorem binary_of_error {k : Binary} {l r : Int} {a b : Arena} {e : Error}
    (h : binary k l r a = .error e b) : b = a := by
  simp only [binary, nodeAt, bind, EStateM.bind] at h
  cases hl : a.at? l with
  | none =>
    rw [hl] at h
    cases h
    rfl
  | some m =>
    cases hr : a.at? r with
    | none =>
      simp only [hl, hr] at h
      cases h
      rfl
    | some n =>
      simp only [hl, hr] at h
      split at h
      · cases h
        rfl
      · rcases add_cases (.binary k) [l, r] (.shape m.shape) none a with ⟨e', h'⟩ | ⟨x, -, h'⟩
        · cases h'.symm.trans h
          rfl
        · cases h'.symm.trans h

/-- An operator that turns its right operand first leaves it turned. -/
theorem turned_of_error {k : Unary} {j : Binary} {l r : Int} {a b : Arena} {e : Error}
    (h : (do let turned ← unary k r; binary j l turned : Build Nat) a = .error e b) :
    a.Leaves b (a.unaryNode? k r).toList := by
  rcases unary_cases k r a with ⟨hnone, e', hturn⟩ | ⟨n, hn, hturn⟩
  · rw [hnone]
    cases (bind_of_error hturn).symm.trans h
    exact leaves_nil.mpr rfl
  · rw [hn, binary_of_error ((bind_of_ok hturn).symm.trans h)]
    exact leaves_push a n

end Arena

/-- What an operator makes of its right operand before both meet. -/
def Operator.turned? : Operator → Option Unary
  | .sub => some .neg
  | .div => some .reciprocal
  | .add | .mul => none

/-- What an operator that is refused leaves in the arena of its left operand: the right one as it
was turned, when it is a node there. -/
def Operator.leftover (op : Operator) (a : Arena) (l : Expr) : Operand → List Node
  | .expr r =>
    if r.arena = l.arena then (op.turned?.bind fun k => a.unaryNode? k r.index).toList else []
  | .other _ => []

namespace Differentiation

/-- The default seed of a pass from a node, when no seed is given. -/
def defaultSeed (a : Arena) (i : Int) : Option Operand → List Node
  | none => ((a.at? i).map fun n => ⟨.leaf .param, n.shape, some "grad"⟩).toList
  | some _ => []

/-- What a pass leaves whose arguments are refused: the default seed, when none was given and the
output is a node that the context may ask about. -/
def leftover (s : Differentiation) (output : Operand) (seed : Option Operand) : List Node :=
  match output with
  | .expr e =>
    if s.context.requiresGrad ∧ s.context.arena.all (· = e.arena) then
      defaultSeed s.arena e.index seed
    else []
  | .other _ => []

/-- Nothing is appended. -/
def SameArena (s t : Differentiation) : Prop := t.arena = s.arena

instance : IsPreorder Differentiation SameArena where
  refl _ := rfl
  trans _ _ _ hst htu := htu.trans hst

theorem inContext_sameArena {α : Type} (x : EStateM Error Context α) :
    Keeps SameArena (inContext x) := by
  rintro ⟨a, c⟩
  simp only [inContext]
  cases x c with
  | ok v c' => rfl
  | error e c' => rfl

theorem nodeAt_sameArena (i : Int) : Keeps SameArena (building (Arena.nodeAt i)) := by
  intro s
  cases hi : s.arena.at? i with
  | none => exact (nodeAt_error hi).symm ▸ rfl
  | some n => exact (nodeAt_ok hi).symm ▸ rfl

theorem expect_sameArena (kind : Kind) (i : Int) : Keeps SameArena (expect kind i) := by
  intro s
  simp only [expect]
  cases s.arena.expect kind i with
  | ok u => rfl
  | error e => rfl

/-- A seed that is given is only looked at. -/
theorem seedFor_sameArena (i : Int) (o : Operand) : Keeps SameArena (seedFor i (some o)) := by
  refine Keeps.bind (inContext_sameArena _) fun e => ?_
  refine Keeps.bind (nodeAt_sameArena _) fun m => Keeps.bind (nodeAt_sameArena _) fun n => ?_
  split
  · exact Keeps.bind (Keeps.throw _) fun _ => Keeps.pure _
  · exact Keeps.bind (Keeps.pure _) fun _ => Keeps.pure _

theorem targets?_sameArena (wrt : Option (List Operand)) : Keeps SameArena (targets? wrt) := by
  cases wrt with
  | none => exact Keeps.pure none
  | some ps =>
    refine Keeps.map _ (Keeps.foldlM ps _ fun targets o _ => ?_)
    refine Keeps.bind (inContext_sameArena _) fun e => ?_
    exact Keeps.bind (expect_sameArena .param _) fun _ => Keeps.pure _

variable {s t : Differentiation} {k : ArenaId} {i : Int} {n : Node} {output : Operand}
  {seed : Option Operand} {wrt : Option (List Operand)}

theorem leaves_seeded (hn : s.arena.at? i = some n) :
    s.arena.Leaves (seeded s.arena n.shape seed) (defaultSeed s.arena i seed) := by
  cases seed with
  | none =>
    rw [defaultSeed, hn]
    exact Arena.leaves_push _ _
  | some o => exact Arena.leaves_nil.mpr rfl

/-- A seed that is refused leaves nothing, and without a node for output there is none. -/
theorem leaves_of_seedFor_error {err : Error} (h : seedFor i seed s = .error err t) :
    s.arena.Leaves t.arena (defaultSeed s.arena i seed) := by
  cases seed with
  | some o => exact Arena.leaves_nil.mpr ((seedFor_sameArena i o).of_error h)
  | none =>
    simp only [seedFor] at h
    cases hi : s.arena.at? i with
    | none =>
      cases (bind_of_error (nodeAt_error hi)).symm.trans h
      rw [defaultSeed, hi]
      exact Arena.leaves_nil.mpr rfl
    | some n =>
      have hparam := building_of_ok (s := s) (param_run s.arena n.shape (some "grad"))
      cases ((bind_of_ok (nodeAt_ok hi)).trans (bind_of_ok hparam)).symm.trans h

/-- A pass that is refused once the context is bound leaves its default seed. -/
theorem pass_leaves (hk : s.context.arena = some k)
    (hno : ∀ n, s.arena.at? i = some n → SeedFits s.arena k n.shape seed →
      ¬∀ ps, wrt = some ps → ∀ o ∈ ps, IsTarget (seeded s.arena n.shape seed) k o) :
    s.arena.Leaves (stateAfter (pass i seed wrt s)).arena (defaultSeed s.arena i seed) := by
  have hrefused : ∀ err t, seedFor i seed s = .error err t →
      s.arena.Leaves (stateAfter (pass i seed wrt s)).arena (defaultSeed s.arena i seed) := by
    intro err t herror
    rw [pass, bind_of_error herror]
    exact leaves_of_seedFor_error herror
  rcases hi : s.arena.at? i with _ | n
  · obtain ⟨err, t, herror⟩ := seedFor_absent hk hi seed
    exact hrefused err t herror
  · rcases seedFor_cases hk hi seed with ⟨hfits, hok⟩ | ⟨-, err, t, herror⟩
    · rcases targets?_cases (s := ⟨seeded s.arena n.shape seed, s.context⟩) hk wrt with
        ⟨hall, -⟩ | ⟨-, err, t, herror⟩
      · exact absurd hall (hno n hi hfits)
      · have hsame : t.arena = seeded s.arena n.shape seed :=
          (targets?_sameArena wrt).of_error herror
        rw [pass, bind_of_ok hok, bind_of_error herror, stateAfter, hsame]
        exact leaves_seeded hi
    · exact hrefused err t herror

theorem leftover_of_not (h : ∀ e, ¬(s.context.requiresGrad = true ∧ s.context.Admits output e)) :
    s.leftover output seed = [] := by
  cases output with
  | other type => rfl
  | expr e =>
    refine if_neg fun ⟨henabled, hall⟩ => h e ⟨henabled, rfl, fun a ha => ?_⟩
    rw [ha] at hall
    exact of_decide_eq_true hall

theorem leftover_of_absent (h : ∀ i, s.arena.at? i = none) : s.leftover output seed = [] := by
  cases output with
  | other type => rfl
  | expr e =>
    cases seed with
    | none => simp [leftover, defaultSeed, h]
    | some o => simp [leftover, defaultSeed]

/-- A pass whose arguments are refused leaves its default seed and nothing else. -/
theorem backward_leaves (hno : ∀ e n, ¬s.Accepts output seed wrt e n) :
    s.arena.Leaves (stateAfter (backward output seed wrt s)).arena (s.leftover output seed) := by
  by_cases hgrad : s.context.requiresGrad = true
  · rw [backward_eq output seed wrt hgrad]
    rcases bind_cases output s with ⟨e, hadmits, hbind⟩ | ⟨hforeign, err, hbind⟩
    · obtain ⟨rfl, hbound⟩ := hadmits
      have hall : s.context.arena.all (· = e.arena) = true :=
        Option.all_eq_true _ _ |>.mpr fun a ha => decide_eq_true (hbound a ha)
      rw [bind_of_ok hbind, leftover, if_pos ⟨hgrad, hall⟩]
      exact pass_leaves (s := ⟨s.arena, { s.context with arena := some e.arena }⟩) rfl
        fun n hn hfits htargets => hno e n ⟨hgrad, ⟨rfl, hbound⟩, hn, hfits, htargets⟩
    · rw [bind_of_error hbind, leftover_of_not fun e h => hforeign e h.2]
      exact Arena.leaves_nil.mpr rfl
  · rw [backward_disabled output seed wrt (by simpa using hgrad),
      leftover_of_not fun e h => hgrad h.1]
    exact Arena.leaves_nil.mpr rfl

/-- A pass that is carried out has met its output first. -/
theorem exists_of_run_ok {a : Arena} {c : Context} {y : Nat} {node : Node} {g : Int}
    {targets : Option (Std.HashSet Int)} {o : Outcome} (hwell : a.WellFormed)
    (hnode : a.node? y = some node) (h : run y g targets ⟨a, c⟩ = .ok o t) :
    ∃ (live : Std.HashSet Int) (p : Pass),
      (∀ j : Nat, (j : Int) ∈ live ↔ a.Live (Arena.AskedIn targets) y j) ∧
      Pass.meet live y (opening ⟨a, c.grads, y, g, Arena.AskedIn targets⟩) = .ok () p := by
  obtain ⟨order, horder, hasc, hmem⟩ := Arena.toposort?_spec hwell hnode
  have hle : ∀ j ∈ order.reverse, j ≤ y := fun j hj =>
    ((hmem j).mp (List.mem_reverse.mp hj)).le fun _ _ hc => hwell.operand_lt hc
  have hdesc := List.pairwise_reverse.mpr hasc
  have hy : y ∈ order.reverse := List.mem_reverse.mpr ((hmem y).mpr (.refl y))
  refine ⟨a.live targets (order.map Int.ofNat), ?_⟩
  simp only [run, horder, ← List.map_reverse] at h
  cases hrest : order.reverse with
  | nil =>
    rw [hrest] at hy
    cases hy
  | cons x rest =>
    rw [hrest] at hy hle hdesc h
    obtain rfl : x = y := by
      rcases List.mem_cons.mp hy with rfl | hy
      · rfl
      · have hlt := (List.pairwise_cons.mp hdesc).1 y hy
        exact absurd (hle x (List.mem_cons_self ..)) (Nat.not_le_of_lt hlt)
    rw [List.map_cons] at h
    cases hmeet : Pass.meet (a.live targets (order.map Int.ofNat)) x
        (opening ⟨a, c.grads, x, g, Arena.AskedIn targets⟩) with
    | ok u p =>
      refine ⟨p, Arena.mem_live_of_toposort? hwell targets ?_ hasc hmem, rfl⟩
      exact Arena.lt_size_of_node? hnode
    | error e p =>
      rw [opening] at hmeet
      simp only [Int.ofNat_eq_natCast, forM_cons_of_error hmeet] at h
      cases h

end Differentiation

namespace Workspace

/-- The arenas are as they were, but for some nodes at the end of one. -/
def Leaves (w w' : Workspace) (k : ArenaId) (nodes : List Node) : Prop :=
  (w.arena k).Leaves (w'.arena k) nodes ∧ ∀ j, j ≠ k → w'.arena j = w.arena j

variable {w w' : Workspace} {k : ArenaId} {err : Error}

@[simp] theorem leaves_nil : w.Leaves w' k [] ↔ ∀ j, w'.arena j = w.arena j := by
  rw [Leaves, Arena.leaves_nil]
  constructor
  · rintro ⟨hk, helse⟩ j
    by_cases hj : j = k
    · exact hj ▸ hk
    · exact helse j hj
  · exact fun h => ⟨h k, fun j _ => h j⟩

/-- An action on an arena fails because the arena is absent, or as the action does. -/
theorem inArena_error {α : Type} {x : Build α} (h : inArena k x w = .error err w') :
    (w.arena k = .empty ∧ w' = w) ∨ x (w.arena k) = .error err (w'.arena k) := by
  by_cases hk : k < w.arenas.size
  · refine Or.inr ?_
    have hget : w.arenas[k]? = some (w.arena k) := by
      rw [arena, Array.getD_eq_getD_getElem?, Array.getElem?_eq_getElem hk, Option.getD_some]
    simp only [inArena, hget] at h
    cases hx : x (w.arena k) with
    | ok v a =>
      rw [hx] at h
      cases h
    | error e a =>
      rw [hx] at h
      cases h
      simp only [arena, getD_refill, hk, and_self, if_true]
  · refine Or.inl ⟨getD_of_size_le (Nat.le_of_not_lt hk) _, ?_⟩
    simp only [inArena, Array.getElem?_eq_none (Nat.le_of_not_lt hk)] at h
    cases h
    rfl

/-- Building that fails leaves what it left in its arena. -/
theorem leaves_of_building_error {x : Build Nat} (nodes : Arena → List Node)
    (hempty : nodes .empty = []) (hx : ∀ {a b e}, x a = .error e b → a.Leaves b (nodes a))
    (h : Workspace.building k x w = .error err w') : w.Leaves w' k (nodes (w.arena k)) := by
  have hin : inArena k x w = .error err w' := by
    rw [Workspace.building] at h
    cases hr : inArena k x w with
    | ok i v =>
      rw [bind_of_ok hr] at h
      cases h
    | error e v =>
      rw [bind_of_error hr] at h
      cases h
      rfl
  rcases inArena_error hin with ⟨habsent, rfl⟩ | herror
  · rw [habsent, hempty]
    exact leaves_nil.mpr fun _ => rfl
  · refine ⟨hx herror, fun j hj => ?_⟩
    have helsewhere := building_elsewhere (Ne.symm hj) x w
    rwa [h] at helsewhere

/-- An operator that fails leaves its right operand turned, or nothing. -/
theorem binary_leaves {op : Operator} {l : Expr} {o : Operand}
    (h : binary op l o w = .error err w') :
    w.Leaves w' l.arena (op.leftover (w.arena l.arena) l o) := by
  cases o with
  | other type =>
    cases h
    exact leaves_nil.mpr fun _ => rfl
  | expr r =>
    by_cases hr : r.arena = l.arena
    · have hright : rightOperand l (.expr r) w = .ok r w := by
        rw [rightOperand, if_pos hr]
        rfl
      rw [binary, bind_of_ok hright] at h
      rw [Operator.leftover, if_pos hr]
      refine leaves_of_building_error
        (fun a => (op.turned?.bind fun k => a.unaryNode? k r.index).toList) ?_ ?_ h
      · have hempty : ∀ k i, Arena.unaryNode? .empty k i = none := by
          intro k i
          cases i with
          | ofNat x => rfl
          | negSucc x => rfl
        cases op <;> simp [Operator.turned?, hempty]
      · intro a b e herror
        cases op with
        | add => exact Arena.leaves_nil.mpr (Arena.binary_of_error herror)
        | sub => exact Arena.turned_of_error herror
        | mul => exact Arena.leaves_nil.mpr (Arena.binary_of_error herror)
        | div => exact Arena.turned_of_error herror
    · have hright : rightOperand l (.expr r) w = .error .foreignOperand w := by
        rw [rightOperand, if_neg hr]
        rfl
      cases (bind_of_error hright).symm.trans h
      rw [Operator.leftover, if_neg hr]
      exact leaves_nil.mpr fun _ => rfl

variable {c : ContextId} {output : Operand} {seed : Option Operand} {wrt : Option (List Operand)}

/-- A pass whose arguments are refused leaves its default seed, or nothing. -/
theorem differentiate_leaves
    (hno : ∀ e n, ¬(w.differentiation c output.arena).Accepts output seed wrt e n)
    (h : differentiate c output seed wrt w = .error err w') :
    w.Leaves w' output.arena ((w.differentiation c output.arena).leftover output seed) := by
  have hleaves := Differentiation.backward_leaves hno
  obtain ⟨evaluators, arenas, hafter, -, -, harenas⟩ :=
    differentiating_after c output.arena (Differentiation.backward output seed wrt) w
  have hstate : w' = { w with evaluators, arenas } := (congrArg stateAfter h).symm.trans hafter
  have hw' : ∀ j, w'.arena j = arenas.getD j .empty := fun j => by rw [hstate, arena]
  simp only [harenas] at hw'
  refine ⟨?_, fun j hj => by rw [hw', if_neg fun hk => hj hk.1]⟩
  by_cases hk : output.arena < w.arenas.size
  · rw [hw', if_pos ⟨rfl, hk⟩]
    exact hleaves
  · have habsent : w.arena output.arena = .empty := getD_of_size_le (Nat.le_of_not_lt hk) _
    rw [hw', if_neg fun hk' => hk hk'.2, Differentiation.leftover_of_absent fun i => ?_]
    · exact Arena.leaves_nil.mpr rfl
    · rw [differentiation, habsent]
      simp [Arena.at?, Arena.empty, Arena.node?, Arena.size]

/-- Only - and / leave something when they fail: the negation or the reciprocal of a right operand
that is a node of the arena. A pass that is refused leaves the default seed, when none was given and
the output is a node that the context may ask about. In an arena that operators build no pass fails
that is not refused. -/
theorem refused_calls_leave_helpers :
    (∀ (w w' : Workspace) (op : Operator) (l : Expr) (o : Operand) (err : Error),
      binary op l o w = .error err w' →
        w.Leaves w' l.arena (op.leftover (w.arena l.arena) l o)) ∧
    (∀ (w w' : Workspace) (c : ContextId) (output : Operand) (seed : Option Operand)
        (wrt : Option (List Operand)) (err : Error),
      differentiate c output seed wrt w = .error err w' →
      (∀ e n, ¬(w.differentiation c output.arena).Accepts output seed wrt e n) →
        w.Leaves w' output.arena ((w.differentiation c output.arena).leftover output seed)) ∧
    ∀ (calls : List Call) (w' : Workspace) (c : ContextId) (output : Operand)
        (seed : Option Operand) (wrt : Option (List Operand)) (err : Error),
      (∀ call ∈ calls, call.RegularIn output.arena) →
      output.Natural → (∀ o, seed = some o → o.Natural) →
      differentiate c output seed wrt (afterAll calls) = .error err w' →
        (afterAll calls).Leaves w' output.arena
          (((afterAll calls).differentiation c output.arena).leftover output seed) := by
  refine ⟨fun w w' op l o err h => binary_leaves h,
    fun w w' c output seed wrt err h hno => differentiate_leaves hno h, ?_⟩
  intro calls w' c output seed wrt err hcalls hnatural hseed h
  refine differentiate_leaves (fun e n haccepts => ?_) h
  -- an accepted pass would have been carried out
  obtain rfl := haccepts.admits.1
  obtain ⟨y, hy⟩ := Int.eq_ofNat_of_zero_le (hnatural e rfl)
  have htallied := afterAll_tallied (R := Int) ⟨id, id, id, id⟩ (fun _ => 0) hcalls c
  obtain ⟨-, p, count, -, -, -, hok, -⟩ :=
    htallied.pass_ok haccepts (y := y) (congrArg (Expr.mk e.arena) hy) hseed
  obtain ⟨v, hv⟩ := differentiating_of_ok hok
  exact nomatch hv.symm.trans h

/-- Two parameters that do not meet, their product all the same, and a context. -/
def mismatched : List Call :=
  [.newContext none true, .param 0 (.shape ⟨[2]⟩) none, .param 0 (.shape ⟨[3]⟩) none,
    .addNode 0 .mul [0, 1] (.shape ⟨[2]⟩) none]

/-- The pass from the product, which its default seed has been made for. -/
def mismatchedPlan : Plan :=
  ⟨Differentiation.seeded ((afterAll mismatched).arena 0) ⟨[2]⟩ none, {}, 2, (3 : Nat),
    fun _ => True⟩

theorem mismatchedPlan_wellFormed : mismatchedPlan.arena.WellFormed := by
  refine Arena.WellFormed.push ((afterAll_coherent mismatched).arenas 0) ?_
  simp [Node.operands, Form.operands]

/-- The gradient of the product does not meet the second parameter. -/
theorem mismatchedPlan_fails {live : Std.HashSet Int} (hproduct : ((2 : Nat) : Int) ∈ live)
    (hleft : ((0 : Nat) : Int) ∈ live) (p : Pass) :
    Pass.meet live (2 : Nat) (Differentiation.opening mismatchedPlan) ≠ .ok () p := by
  intro hmeet
  have hwait : (Differentiation.opening mismatchedPlan).waiting 2 = [((3 : Nat) : Int)] := by
    rw [Differentiation.waiting_opening]
    rfl
  obtain ⟨g, k, b, d, n, m, hsum, htotal, hn, hm, hforward⟩ :=
    Pass.exists_of_meet_ok hproduct (by simp [hwait]) hmeet
  have hnone : (Differentiation.opening mismatchedPlan).grads.get? ((2 : Nat) : Int) = none :=
    Table.get?_empty _
  rw [hwait] at hsum
  cases hsum
  rw [hnone] at htotal
  cases htotal
  cases hn
  cases hm
  -- the seed is no zero leaf, so it is sent on by the rules of a product
  change Pass.sendByRules live (2 : Nat) (3 : Nat) (Form.binary .mul 0 1).rules _ = _ at hforward
  obtain ⟨u, s, hfirst, -⟩ := exists_of_bind_ok hforward
  dsimp only at hfirst
  rw [if_pos hleft] at hfirst
  obtain ⟨h, t, hbuilding, -⟩ := exists_of_bind_ok hfirst
  obtain ⟨a, hmul, -⟩ := Pass.exists_of_building_ok hbuilding
  obtain ⟨e, herror⟩ := Embedding.binary_mismatch (a := mismatchedPlan.arena) (k := .mul) (l := 3)
    (r := 1) rfl rfl (by decide)
  change Arena.handle (Arena.binary .mul (3 : Nat) (1 : Nat)) mismatchedPlan.arena = _ at hmul
  rw [Arena.handle, herror] at hmul
  cases hmul

theorem mismatched_accepts : ((afterAll mismatched).differentiation 0 0).Accepts
    (.expr ⟨0, (2 : Nat)⟩) none none ⟨0, (2 : Nat)⟩ ⟨.binary .mul 0 1, ⟨[2]⟩, none⟩ := by
  refine Differentiation.accepts_default rfl ⟨rfl, fun a ha => ?_⟩ rfl
  cases ha

theorem mismatched_fails : ∃ err t,
    Differentiation.backward (.expr ⟨0, (2 : Nat)⟩) none none
      ((afterAll mismatched).differentiation 0 0) = .error err t ∧
    ((afterAll mismatched).arena 0).size < t.arena.size := by
  obtain ⟨targets, hasked, hrun⟩ := mismatched_accepts.backward_eq_run rfl
  replace hrun : _ = Differentiation.run (2 : Nat) (3 : Nat) targets
    ⟨mismatchedPlan.arena, { Context.fresh true with arena := some 0 }⟩ := hrun
  rw [hrun]
  cases hx : Differentiation.run (2 : Nat) (3 : Nat) targets
      ⟨mismatchedPlan.arena, { Context.fresh true with arena := some 0 }⟩ with
  | error err t =>
    have hkept := ((Differentiation.run_keeps _ _ _).of_error hx).1.1.1
    exact ⟨err, t, rfl, Arena.lt_size_of_node? (hkept 3 _ rfl)⟩
  | ok o t =>
    obtain ⟨live, p, hlive, hmeet⟩ :=
      Differentiation.exists_of_run_ok mismatchedPlan_wellFormed rfl hx
    have hleads : ∀ n : Nat, Reaches mismatchedPlan.arena.operands 2 n →
        Reaches mismatchedPlan.arena.operands n 0 → (n : Int) ∈ live := fun n hn h0 =>
      (hlive n).mpr ⟨hn, 0, h0, rfl, (hasked 0).mp (Differentiation.askedFor_none 0)⟩
    have hleft : Reaches mismatchedPlan.arena.operands 2 0 :=
      .step (List.mem_cons_self ..) (.refl 0)
    have hproduct := hleads 2 (.refl 2) hleft
    exact absurd hmeet (mismatchedPlan_fails hproduct (hleads 0 hleft (.refl 0)) p)

theorem difference_fails : ∃ err w',
    binary .sub ⟨0, 0⟩ (.expr ⟨0, 1⟩) (afterAll mismatched) = .error err w' := ⟨_, _, rfl⟩

theorem exponential_not_asked_for : ∃ err w',
    differentiate 0 (.expr ⟨0, 1⟩) none (some [.expr ⟨0, 1⟩]) (afterAll exponential) =
      .error err w' := ⟨_, _, rfl⟩

/-- Calls that fail leave nodes: a difference the negated operand, a refused pass the default seed,
and an accepted pass over nodes that no operator would build what it built until then. -/
theorem refused_calls_leave_nodes :
    (∃ err w', binary .sub ⟨0, 0⟩ (.expr ⟨0, 1⟩) (afterAll mismatched) = .error err w' ∧
      ((afterAll mismatched).arena 0).size < (w'.arena 0).size) ∧
    (∃ err w', differentiate 0 (.expr ⟨0, 1⟩) none (some [.expr ⟨0, 1⟩]) (afterAll exponential) =
        .error err w' ∧
      ((afterAll exponential).arena 0).size < (w'.arena 0).size) ∧
    ∃ err w', differentiate 0 (.expr ⟨0, (2 : Nat)⟩) none none (afterAll mismatched) =
        .error err w' ∧
      ((afterAll mismatched).arena 0).size < (w'.arena 0).size := by
  refine ⟨⟨_, _, rfl, by decide⟩, ⟨_, _, rfl, by decide⟩, ?_⟩
  obtain ⟨err, t, hfails, hsize⟩ := mismatched_fails
  obtain ⟨w', h⟩ := differentiating_of_error hfails
  refine ⟨err, w', h, ?_⟩
  have hafter := differentiate_arena (w := afterAll mismatched) (c := 0)
    (.expr ⟨0, (2 : Nat)⟩) (by decide) none none
  have hw' : differentiate 0 (.expr ⟨0, (2 : Nat)⟩) none none (afterAll mismatched) =
    .error err w' := h
  have harena : w'.arena 0 = t.arena := by
    rw [hw'] at hafter
    exact hafter.trans (congrArg (fun r => (stateAfter r).arena) hfails)
  rwa [harena]

/-- The difference leaves the negation of the second parameter, and a pass that asks for an
exponential its default seed. -/
theorem refused_calls_leave_helpers_mismatched :
    (∃ err w', binary .sub ⟨0, 0⟩ (.expr ⟨0, 1⟩) (afterAll mismatched) = .error err w' ∧
      (afterAll mismatched).Leaves w' 0 [⟨.unary .neg 1, ⟨[3]⟩, none⟩]) ∧
    ∃ err w', differentiate 0 (.expr ⟨0, 1⟩) none (some [.expr ⟨0, 1⟩]) (afterAll exponential) =
        .error err w' ∧
      (afterAll exponential).Leaves w' 0 [⟨.leaf .param, ⟨[]⟩, some "grad"⟩] := by
  obtain ⟨hbinary, -, hpass⟩ := refused_calls_leave_helpers
  obtain ⟨err, w', h⟩ := difference_fails
  obtain ⟨err', v, h'⟩ := exponential_not_asked_for
  refine ⟨⟨err, w', h, hbinary _ _ _ _ _ _ h⟩, err', v, h', ?_⟩
  exact hpass exponential v 0 (.expr ⟨0, 1⟩) none _ err' exponential_regular
    (by simp [Operand.Natural]) nofun h'

end Workspace

end TensorGraph
