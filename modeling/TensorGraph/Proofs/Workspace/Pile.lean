import Mathlib.Data.List.Perm.Subperm
import Mathlib.Data.List.Sort
import TensorGraph.Proofs.Graph.Embedding
import TensorGraph.Proofs.Workspace.Below

/-!
# Searching by a pile

Below a handle of any store indices are found by a pile: one index after the other is taken from it,
and those of its operands that were not met are met and put on it. In an arena whose operands were
given as plain integers each node is on the pile once, so the search ends after as many steps, and
what it met, sorted, is the order that the arena tells.
-/

namespace TensorGraph

variable {next : Nat → List Nat} {root size i j : Nat} {met new pile : List Nat}

/-- What a search below a root has met, and what of it is still on the pile. -/
structure Searching (next : Nat → List Nat) (root : Nat) (met pile : List Nat) : Prop where
  nodup : met.Nodup
  root_met : root ∈ met
  sound : ∀ i ∈ met, Reaches next root i
  pile_met : ∀ i ∈ pile, i ∈ met
  /-- All that comes next after what was taken from the pile is met. -/
  closed : ∀ i ∈ met, i ∉ pile → ∀ c ∈ next i, c ∈ met

namespace Searching

theorem start (next : Nat → List Nat) (root : Nat) : Searching next root [root] [root] where
  nodup := List.nodup_singleton root
  root_met := List.mem_singleton_self root
  sound i hi := by
    rw [List.mem_singleton.mp hi]
    exact .refl root
  pile_met _ hi := hi
  closed _ hi hpile := absurd hi hpile

/-- An index is taken from the pile, and what comes next after it is met. -/
theorem take (h : Searching next root met (i :: pile)) (hnew : new.Nodup)
    (hmem : ∀ c, c ∈ new ↔ c ∈ next i ∧ c ∉ met) :
    Searching next root (new ++ met) (new ++ pile) where
  nodup := by
    apply hnew.append h.nodup
    intro c hc hmet
    exact ((hmem c).mp hc).2 hmet
  root_met := List.mem_append_right new h.root_met
  sound c hc := by
    rcases List.mem_append.mp hc with hc | hc
    · have hi : Reaches next root i := h.sound i (h.pile_met i (List.mem_cons_self ..))
      exact hi.trans (.step ((hmem c).mp hc).1 (.refl c))
    · exact h.sound c hc
  pile_met c hc := by
    rcases List.mem_append.mp hc with hc | hc
    · exact List.mem_append_left met hc
    · exact List.mem_append_right new (h.pile_met c (List.mem_cons_of_mem i hc))
  closed c hc hpile d hd := by
    have hmet : c ∈ met := (List.mem_append.mp hc).resolve_left fun hc =>
      hpile (List.mem_append_left pile hc)
    by_cases hd' : d ∈ met
    · exact List.mem_append_right new hd'
    by_cases hci : c = i
    · subst hci
      exact List.mem_append_left met ((hmem d).mpr ⟨hd, hd'⟩)
    · -- it was taken before
      refine absurd (h.closed c hmet ?_ d hd) hd'
      intro hcons
      rcases List.mem_cons.mp hcons with hc | hc
      · exact hci hc
      · exact hpile (List.mem_append_right new hc)

theorem mem_of_reaches (h : Searching next root met []) (hi : i ∈ met) (hr : Reaches next i j) :
    j ∈ met := by
  induction hr with
  | refl => exact hi
  | step hc _ ih => exact ih (h.closed _ hi List.not_mem_nil _ hc)

/-- When nothing is left on the pile, exactly what the root reaches was met. -/
theorem mem_iff (h : Searching next root met []) : i ∈ met ↔ Reaches next root i :=
  ⟨h.sound i, h.mem_of_reaches h.root_met⟩

theorem length_le (h : Searching next root met pile) (hlt : ∀ i, Reaches next root i → i < size) :
    met.length ≤ size := by
  have hsub : met ⊆ List.range size := fun i hi => List.mem_range.mpr (hlt i (h.sound i hi))
  have hle := (h.nodup.subperm hsub).length_le
  rwa [List.length_range] at hle

end Searching

namespace Workspace

/-- The indices below a handle that are not known, found by a pile in at most `bound` steps. -/
def orderByPile (x : Handle) (known : Index → Work Bool) (bound : Nat) : Work (List Index) := do
  let root ← KeySet.push {} call x.index
  let seen ← reachFrom x.store known bound root [x.index]
  seen.sort call

variable {w : Workspace} {k : ArenaId}

/-! ### Sets of natural numbers -/

/-- The keys that stand for natural numbers, the last one first. -/
def KeySet.ofNumbers (met : List Nat) : KeySet where
  numbers := met.foldr (fun i numbers => numbers.insert (i : Int)) ∅
  items := met.map fun i : Nat => .int i

theorem KeySet.contains_ofNumbers (met : List Nat) (i : Nat) :
    (KeySet.ofNumbers met).numbers.contains (i : Int) = decide (i ∈ met) := by
  induction met with
  | nil => simp [ofNumbers]
  | cons j met ih =>
    have hinsert : (ofNumbers (j :: met)).numbers = (ofNumbers met).numbers.insert (j : Int) := rfl
    rw [hinsert, Std.HashSet.contains_insert, ih]
    by_cases hij : i = j
    · simp [hij]
    · have hne : (j : Int) ≠ i := by omega
      simp [hij, hne]

theorem KeySet.push_ofNumbers (met : List Nat) (i : Nat) :
    (KeySet.ofNumbers met).push call (.int i) w = .ok (.ofNumbers (i :: met)) w := rfl

theorem KeySet.has_ofNumbers (met : List Nat) (i : Nat) :
    (KeySet.ofNumbers met).has call (.int i) w = .ok (decide (i ∈ met)) w := by
  have hfind : findNumber call (ofNumbers met).numbers.contains (ofNumbers met).codes (.int i) w =
      .ok (if i ∈ met then some (i : Int) else none) w := by
    simp only [findNumber, contains_ofNumbers, decide_eq_true_eq]
    split
    · rfl
    · rfl
  refine (bind_of_ok hfind).trans ?_
  by_cases hi : i ∈ met
  · rw [if_pos hi, decide_eq_true hi]
    rfl
  · rw [if_neg hi, decide_eq_false hi]
    rfl

/-- Integers are ranked by their order. -/
theorem ranked_int (m n : Int) :
    (Quantity.compare? (.int m) (.int n) != some .gt) = decide (m ≤ n) := by
  have hcompare : Quantity.compare? (.int m) (.int n) = some (compare m n) := by
    simp [Quantity.compare?, Quantity.ratioBeside?]
  rw [hcompare, Bool.eq_iff_iff]
  simp only [compare, compareOfLessAndEq]
  grind

theorem ranked?_ofNumbers (h : Heap) (met : List Nat) :
    ranked? h ((met.map fun i : Nat => Index.int i).map fun i => (i, ())) =
      some ((met.mergeSort fun i j => decide (i ≤ j)).map fun i : Nat => (.int i, ())) := by
  have hquantities : ((met.map fun i : Nat => Index.int i).map fun i => (i, ())).mapM
      (fun e => (quantityOf? h e.1).map fun q => (q, e)) =
        some (met.map fun i : Nat => (Quantity.int i, (Index.int i, ()))) := by
    induction met with
    | nil => rfl
    | cons i met ih =>
      rw [List.map_cons, List.map_cons, List.mapM_cons, ih]
      rfl
  simp only [ranked?, hquantities, Option.map_some]
  rw [← List.map_mergeSort fun i _ j _ => ?_, List.map_map]
  · rfl
  · simp only [ranked_int, Int.ofNat_le]

/-- Sorting gives the ascending list of the same numbers. -/
theorem KeySet.sort_ofNumbers {met order : List Nat} (hmet : met.Nodup)
    (horder : order.Pairwise (· < ·)) (hmem : ∀ i, i ∈ met ↔ i ∈ order) :
    (KeySet.ofNumbers met).sort call w = .ok (order.map fun i : Nat => .int i) w := by
  have hperm := met.mergeSort_perm fun i j => decide (i ≤ j)
  have hsorted : (met.mergeSort fun i j => decide (i ≤ j)).Pairwise (· < ·) := by
    have hle := List.pairwise_mergeSort' (· ≤ ·) met
    have hne : (met.mergeSort fun i j => decide (i ≤ j)).Pairwise (· ≠ ·) :=
      hperm.nodup_iff.mpr hmet
    exact (hle.and hne).imp fun h => Nat.lt_of_le_of_ne h.1 h.2
  have heq : met.mergeSort (fun i j => decide (i ≤ j)) = order :=
    hsorted.sortedLT.eq_of_mem_iff horder.sortedLT fun i => (hperm.mem_iff).trans (hmem i)
  have hranked : asking (fun h => ranked? h ((ofNumbers met).items.map fun i => (i, ()))) w =
      .ok (some (order.map fun i : Nat => (.int i, ()))) w := by
    rw [asking, ← heq]
    exact congrArg (EStateM.Result.ok · w) (ranked?_ofNumbers w.heap met)
  refine (bind_of_ok hranked).trans ?_
  simp only [List.map_map]
  rfl

/-! ### Searching in an arena -/

/-- The operand is met and put on the pile, unless it was met before or is known. -/
def meetOperand (known : Index → Work Bool) (s : KeySet × List Index) (c : Index) :
    Work (KeySet × List Index) := do
  if (← s.1.has call c) || (← known c) then return s
  else return (← s.1.push call c, c :: s.2)

theorem reachFrom_cons (store : Store) (known : Index → Work Bool) (bound : Nat) (seen : KeySet)
    (i : Index) (pile : List Index) :
    reachFrom store known (bound + 1) seen (i :: pile) = (do
      let operands ← operandIndices call ⟨store, i⟩
      let s ← operands.foldlM (meetOperand known) (seen, pile)
      reachFrom store known bound s.1 s.2) := rfl

section Arena

variable {known : Nat → Bool} {isKnown : Index → Work Bool}
  (hknown : ∀ i : Nat, isKnown (.int i) w = .ok (known i) w)

include hknown

theorem meetOperand_ok (met pile : List Nat) (c : Nat) :
    meetOperand isKnown (.ofNumbers met, pile.map fun i : Nat => .int i) (.int c) w =
      if c ∈ met ∨ known c = true then
        .ok (.ofNumbers met, pile.map fun i : Nat => .int i) w
      else .ok (.ofNumbers (c :: met), (c :: pile).map fun i : Nat => .int i) w := by
  refine (bind_of_ok (KeySet.has_ofNumbers met c)).trans ((bind_of_ok (hknown c)).trans ?_)
  simp only [Bool.or_eq_true, decide_eq_true_eq]
  split
  · rfl
  · rfl

/-- Of the operands those are met that were not met and are not known. -/
theorem meetOperands_ok (cs met pile : List Nat) : ∃ new : List Nat,
    (cs.map fun c : Nat => .int c).foldlM (meetOperand isKnown)
        (.ofNumbers met, pile.map fun i : Nat => .int i) w =
      .ok (.ofNumbers (new ++ met), (new ++ pile).map fun i : Nat => .int i) w ∧
    new.Nodup ∧ ∀ c, c ∈ new ↔ c ∈ cs.filter (fun c => !known c) ∧ c ∉ met := by
  induction cs generalizing met pile with
  | nil => exact ⟨[], rfl, List.nodup_nil, by simp⟩
  | cons d cs ih =>
    have hstep := meetOperand_ok hknown met pile d
    rw [List.map_cons, List.foldlM_cons]
    by_cases hd : d ∈ met ∨ known d = true
    · rw [if_pos hd] at hstep
      obtain ⟨new, hrun, hnodup, hmem⟩ := ih met pile
      refine ⟨new, (bind_of_ok hstep).trans hrun, hnodup, fun c => ?_⟩
      rw [hmem]
      grind
    · rw [if_neg hd] at hstep
      obtain ⟨new, hrun, hnodup, hmem⟩ := ih (d :: met) (d :: pile)
      have hdnew : d ∉ new := fun h => ((hmem d).mp h).2 (List.mem_cons_self ..)
      refine ⟨new ++ [d], ?_, ?_, fun c => ?_⟩
      · rw [List.append_assoc, List.append_assoc]
        exact (bind_of_ok hstep).trans hrun
      · exact List.nodup_append.mpr ⟨hnodup, List.nodup_singleton d, by grind⟩
      · rw [List.mem_append, hmem]
        grind

omit hknown in
/-- The operands of a node, where they were given as plain integers. -/
theorem operandIndices_ok {i : Nat} {n : Node} (hforms : w.operandForms[(⟨k, i⟩ : Expr)]? = none)
    (hn : (w.arena k).node? i = some n) :
    operandIndices call ⟨.arena k, .int i⟩ w =
      .ok (((w.arena k).operands i).map fun c : Nat => .int c) w := by
  have hreferent : referent call ⟨.arena k, .int i⟩ w = .ok (.node ⟨k, i⟩ n) w :=
    map_of_ok (getNode_ok (node?_ofNat.mpr hn)) (Referent.node ⟨k, i⟩)
  refine (bind_of_ok hreferent).trans ?_
  simp only [operandsAt, hforms, Option.getD_none, Arena.operands_of_node? hn]

variable (hw : (w.arena k).WellFormed) (hforms : ∀ i : Nat, w.operandForms[(⟨k, i⟩ : Expr)]? = none)

include hw hforms

/-- With a step for each node that is on the pile or not met, a search comes to its end. -/
theorem reachFrom_ok {root bound : Nat} (hroot : root < (w.arena k).size) {met pile : List Nat}
    (h : Searching ((w.arena k).openOperands known) root met pile)
    (hbound : (w.arena k).size - met.length + pile.length < bound) : ∃ met',
      reachFrom (.arena k) isKnown bound (.ofNumbers met) (pile.map fun i : Nat => .int i) w =
        .ok (.ofNumbers met') w ∧
      Searching ((w.arena k).openOperands known) root met' [] := by
  have hlt : ∀ i, Reaches ((w.arena k).openOperands known) root i → i < (w.arena k).size :=
    fun i hr => Nat.lt_of_le_of_lt (hr.le (hw.openOperands_lt known)) hroot
  -- a step takes one index from the pile, and whatever it puts there it has met
  induction bound generalizing met pile with
  | zero => exact absurd hbound (Nat.not_lt_zero _)
  | succ bound ih =>
    cases pile with
    | nil => exact ⟨met, rfl, h⟩
    | cons i pile =>
      obtain ⟨n, hn⟩ := Arena.exists_node? (hlt i (h.sound i (h.pile_met i (List.mem_cons_self ..))))
      obtain ⟨new, hmeet, hnodup, hmem⟩ :=
        meetOperands_ok hknown ((w.arena k).operands i) met pile
      have htaken := h.take hnodup hmem
      have hlength := htaken.length_le hlt
      rw [List.length_append] at hlength
      rw [List.length_cons] at hbound
      obtain ⟨met', hrun, hdone⟩ := ih htaken (by rw [List.length_append, List.length_append]; omega)
      refine ⟨met', ?_, hdone⟩
      rw [List.map_cons, reachFrom_cons]
      exact (bind_of_ok (operandIndices_ok (hforms i) hn)).trans ((bind_of_ok hmeet).trans hrun)

/-- A pile finds the order that the arena tells, as soon as it may take a step for each node. -/
theorem orderByPile_eq {root bound : Nat} (hroot : root < (w.arena k).size)
    (hbound : (w.arena k).size < bound) :
    orderByPile ⟨.arena k, .int root⟩ isKnown bound w = orderInArena ⟨k, root⟩ known w := by
  obtain ⟨order, horder, hascending, hmem⟩ := Arena.reach?_spec hw known hroot
  obtain ⟨n, hn⟩ := Arena.exists_node? hroot
  have hstart := Searching.start ((w.arena k).openOperands known) root
  have hsteps : (w.arena k).size - [root].length + [root].length < bound := by
    rw [List.length_singleton]
    omega
  obtain ⟨met, hrun, hdone⟩ := reachFrom_ok hknown hw hforms hroot hstart hsteps
  have hsort := KeySet.sort_ofNumbers (w := w) hdone.nodup hascending fun i =>
    hdone.mem_iff.trans (hmem i).symm
  rw [orderInArena_ok (x := ⟨k, root⟩) (node?_ofNat.mpr hn) horder, List.map_map]
  exact (bind_of_ok (KeySet.push_ofNumbers [] root)).trans ((bind_of_ok hrun).trans hsort)

end Arena

end Workspace

end TensorGraph
