import Std.Data.HashSet
import TensorGraph.Graph.Arena

/-!
# Reachable nodes

The nodes below a root, in ascending order: since operands have smaller indices, that order puts
them before their users. One sweep from the root's index down to zero finds them, for a node is
reached only from nodes above it.
-/

namespace TensorGraph

/-- `Reaches next i j`: following `next` from `i` leads to `j`. -/
inductive Reaches (next : Nat → List Nat) : Nat → Nat → Prop
  | refl (i : Nat) : Reaches next i i
  | step {i c j : Nat} : c ∈ next i → Reaches next c j → Reaches next i j

/-- The indices below the bound that are marked or reached from marked ones, in front of the list
given. -/
def sweep (next : Nat → List Nat) : Nat → Std.HashSet Nat → List Nat → List Nat
  | 0, _, found => found
  | i + 1, marked, found =>
    if i ∈ marked then sweep next i (marked.insertMany (next i)) (i :: found)
    else sweep next i marked found

/-- The indices reached from the roots, all of them below the bound. -/
def reached (next : Nat → List Nat) (bound : Nat) (roots : List Nat) : List Nat :=
  sweep next bound (Std.HashSet.ofList roots) []

namespace Arena

/-- The operands of a node that are not `known`. -/
def openOperands (a : Arena) (known : Nat → Bool) (i : Nat) : List Nat :=
  (a.operands i).filter fun c => !known c

/-- The root and all nodes reached from it through operands that are not `known`, ascending. A
handle that counts from the end is below every operand. -/
def reach? (a : Arena) (known : Nat → Bool) (root : Int) : Option (List Int) :=
  match a.at? root with
  | none => none
  | some node =>
    if 0 ≤ root then
      some ((reached (a.openOperands known) (root.toNat + 1) [root.toNat]).map Int.ofNat)
    else
      let start := node.operands.filter fun c => !known c
      some (root :: (reached (a.openOperands known) a.size start).map Int.ofNat)

/-- All nodes below a root, operands before their users. -/
def toposort? (a : Arena) (root : Int) : Option (List Int) := a.reach? (fun _ => false) root

/-- The group in which a visitor meets a node. -/
def visitOf (a : Arena) (i : Int) : String :=
  match (a.at? i).map Node.kind with
  | some .param => "param"
  | some .zero => "zero"
  | _ => "op"

def isParam (a : Arena) (i : Int) : Bool := (a.at? i).map Node.kind == some .param

def isZero (a : Arena) (i : Int) : Bool := (a.at? i).map Node.kind == some .zero

/-- The parameters below a root, ascending. -/
def parameters? (a : Arena) (root : Int) : Option (List Int) :=
  (a.toposort? root).map fun order => order.filter a.isParam

end Arena

theorem Reaches.le {next : Nat → List Nat} (descends : ∀ i, ∀ c ∈ next i, c < i) {i j : Nat}
    (h : Reaches next i j) : j ≤ i := by
  induction h with
  | refl => exact Nat.le_refl _
  | step hc _ ih => exact Nat.le_of_lt (Nat.lt_of_le_of_lt ih (descends _ _ hc))

theorem Reaches.trans {next : Nat → List Nat} {i j k : Nat} (h : Reaches next i j)
    (h' : Reaches next j k) : Reaches next i k := by
  induction h with
  | refl => exact h'
  | step hc _ ih => exact .step hc (ih h')

/-- What the sweep finds below its bound: the marked indices and what they reach. -/
theorem mem_sweep {next : Nat → List Nat} (descends : ∀ i, ∀ c ∈ next i, c < i) (n : Nat)
    (marked : Std.HashSet Nat) (found : List Nat) (j : Nat) :
    j ∈ sweep next n marked found ↔
      j ∈ found ∨ ∃ i, i < n ∧ i ∈ marked ∧ Reaches next i j := by
  induction n generalizing marked found with
  | zero => simp [sweep]
  | succ n ih =>
    rw [sweep]
    split
    · rename_i hn
      rw [ih]
      constructor
      · rintro (hj | ⟨i, hi, him, hr⟩)
        · rcases List.mem_cons.mp hj with rfl | hj
          · exact Or.inr ⟨_, Nat.lt_succ_self _, hn, .refl _⟩
          · exact Or.inl hj
        · rcases Std.HashSet.mem_insertMany_list.mp him with him | him
          · exact Or.inr ⟨i, Nat.lt_succ_of_lt hi, him, hr⟩
          · exact Or.inr ⟨n, Nat.lt_succ_self _, hn, .step (by simpa using him) hr⟩
      · rintro (hj | ⟨i, hi, him, hr⟩)
        · exact Or.inl (List.mem_cons_of_mem _ hj)
        · rcases Nat.lt_succ_iff_lt_or_eq.mp hi with hlt | rfl
          · exact Or.inr ⟨i, hlt, Std.HashSet.mem_insertMany_list.mpr (Or.inl him), hr⟩
          · cases hr with
            | refl => exact Or.inl (List.mem_cons_self ..)
            | step hc hr =>
              refine Or.inr ⟨_, descends _ _ hc, Std.HashSet.mem_insertMany_list.mpr ?_, hr⟩
              exact Or.inr (by simpa using hc)
    · rename_i hn
      rw [ih]
      constructor
      · rintro (hj | ⟨i, hi, him, hr⟩)
        · exact Or.inl hj
        · exact Or.inr ⟨i, Nat.lt_succ_of_lt hi, him, hr⟩
      · rintro (hj | ⟨i, hi, him, hr⟩)
        · exact Or.inl hj
        · rcases Nat.lt_succ_iff_lt_or_eq.mp hi with hlt | rfl
          · exact Or.inr ⟨i, hlt, him, hr⟩
          · exact absurd him hn

/-- The sweep puts ascending indices in front of a list that starts at its bound or above. -/
theorem sweep_ascending (next : Nat → List Nat) (n : Nat) (marked : Std.HashSet Nat)
    (found : List Nat) (h : found.Pairwise (· < ·)) (hn : ∀ j ∈ found, n ≤ j) :
    (sweep next n marked found).Pairwise (· < ·) := by
  induction n generalizing marked found with
  | zero => exact h
  | succ n ih =>
    rw [sweep]
    split
    · refine ih _ _ (List.pairwise_cons.mpr ⟨fun j hj => hn j hj, h⟩) ?_
      intro j hj
      rcases List.mem_cons.mp hj with rfl | hj
      · exact Nat.le_refl _
      · exact Nat.le_of_succ_le (hn j hj)
    · exact ih _ _ h fun j hj => Nat.le_of_succ_le (hn j hj)

theorem mem_reached {next : Nat → List Nat} (descends : ∀ i, ∀ c ∈ next i, c < i) {bound : Nat}
    {roots : List Nat} (hroots : ∀ r ∈ roots, r < bound) (j : Nat) :
    j ∈ reached next bound roots ↔ ∃ r ∈ roots, Reaches next r j := by
  rw [reached, mem_sweep descends]
  simp only [List.not_mem_nil, false_or, Std.HashSet.mem_ofList, List.contains_iff_mem]
  exact ⟨fun ⟨i, _, hi, hr⟩ => ⟨i, hi, hr⟩, fun ⟨i, hi, hr⟩ => ⟨i, hroots i hi, hi, hr⟩⟩

theorem reached_ascending (next : Nat → List Nat) (bound : Nat) (roots : List Nat) :
    (reached next bound roots).Pairwise (· < ·) :=
  sweep_ascending next bound _ [] List.Pairwise.nil (by simp)

theorem reached_nil (next : Nat → List Nat) (bound : Nat) : reached next bound [] = [] := by
  have hsweep : ∀ n, sweep next n (∅ : Std.HashSet Nat) [] = [] := by
    intro n
    induction n with
    | zero => rfl
    | succ n ih => rw [sweep, if_neg Std.HashSet.not_mem_empty, ih]
  rw [reached, Std.HashSet.ofList_nil]
  exact hsweep bound

theorem Arena.toposort?_ofNat {a : Arena} {i : Nat} {n : Node} (h : a.node? i = some n) :
    a.toposort? i = some ((reached a.operands (i + 1) [i]).map Int.ofNat) := by
  have hopen : a.openOperands (fun _ => false) = a.operands := by
    funext j
    simp [Arena.openOperands]
  simp [Arena.toposort?, Arena.reach?, h, hopen]

end TensorGraph
