import Mathlib.Data.List.Sort
import TensorGraph.Proofs.Gradient.Liveness

/-!
# Embeddings of arenas

An arena stands in another one when each of its nodes has a place there, in the same order and with
operands at their places. What lies below a node, and in which order it is listed, is then the same
in both up to the places.
-/

namespace TensorGraph

/-- A form with its operands renamed. -/
def Form.rename (place : Nat → Nat) : Form → Form
  | .leaf k => .leaf k
  | .unary k x => .unary k (place x)
  | .binary k l r => .binary k (place l) (place r)

def Node.rename (place : Nat → Nat) (n : Node) : Node := { n with form := n.form.rename place }

section Rename

variable {p q : Nat → Nat}

@[simp] theorem Form.kind_rename (f : Form) : (f.rename p).kind = f.kind := by
  cases f with
  | leaf k => rfl
  | unary k x => rfl
  | binary k l r => rfl

@[simp] theorem Form.operands_rename (f : Form) : (f.rename p).operands = f.operands.map p := by
  cases f with
  | leaf k => rfl
  | unary k x => rfl
  | binary k l r => rfl

theorem Form.rename_congr {f : Form} (h : ∀ x ∈ f.operands, p x = q x) :
    f.rename p = f.rename q := by
  cases f with
  | leaf k => rfl
  | unary k x => rw [rename, rename, h x (by simp [operands])]
  | binary k l r => rw [rename, rename, h l (by simp [operands]), h r (by simp [operands])]

theorem Form.rename_id (f : Form) : f.rename id = f := by
  cases f with
  | leaf k => rfl
  | unary k x => rfl
  | binary k l r => rfl

@[simp] theorem Node.kind_rename (n : Node) : (n.rename p).kind = n.kind := Form.kind_rename n.form

@[simp] theorem Node.shape_rename (n : Node) : (n.rename p).shape = n.shape := rfl

@[simp] theorem Node.operands_rename (n : Node) : (n.rename p).operands = n.operands.map p :=
  Form.operands_rename n.form

theorem Node.rename_congr {n : Node} (h : ∀ x ∈ n.operands, p x = q x) :
    n.rename p = n.rename q := by
  rw [rename, rename, Form.rename_congr h]

theorem Node.rename_id (n : Node) : n.rename id = n := by
  rw [rename, Form.rename_id]

end Rename

/-- An arena in another one. -/
structure Embedding where
  inner : Arena
  outer : Arena
  /-- Where the nodes of the inner arena are. -/
  place : Nat → Nat
  wellFormed : inner.WellFormed
  ascending : ∀ {i j}, i < j → j < inner.size → place i < place j
  node : ∀ {i n}, inner.node? i = some n → outer.node? (place i) = some (n.rename place)

namespace Embedding

variable (E F G : Embedding)

/-- Handles of one node in both arenas. -/
def Matches (g h : Int) : Prop := ∃ i < E.inner.size, g = i ∧ h = E.place i

/-- Both arenas have grown, and what had a place has kept it. -/
structure Extends : Prop where
  inner : E.inner.Extends F.inner
  outer : E.outer.Extends F.outer
  place : ∀ i < E.inner.size, F.place i = E.place i

variable {E F G} {i j n : Nat} {g h : Int}

theorem Extends.refl (E : Embedding) : E.Extends E :=
  ⟨Arena.Extends.refl _, Arena.Extends.refl _, fun _ _ => rfl⟩

theorem size_le_of_extends {a b : Arena} (h : a.Extends b) : a.size ≤ b.size := by
  refine Nat.le_of_not_lt fun hlt => ?_
  obtain ⟨n, hn⟩ := Arena.exists_node? hlt
  exact Nat.lt_irrefl _ (Arena.lt_size_of_node? (h _ n hn))

theorem Extends.trans (hEF : E.Extends F) (hFG : F.Extends G) : E.Extends G where
  inner := hEF.inner.trans hFG.inner
  outer := hEF.outer.trans hFG.outer
  place i hi := by
    rw [hFG.place i (Nat.lt_of_lt_of_le hi (size_le_of_extends hEF.inner)), hEF.place i hi]

theorem Matches.mono (hgh : E.Matches g h) (hEF : E.Extends F) : F.Matches g h := by
  obtain ⟨i, hi, rfl, rfl⟩ := hgh
  exact ⟨i, Nat.lt_of_lt_of_le hi (size_le_of_extends hEF.inner), rfl,
    congrArg Nat.cast (hEF.place i hi).symm⟩

theorem matches_place (hi : i < E.inner.size) : E.Matches i (E.place i) := ⟨i, hi, rfl, rfl⟩

/-- Matching handles refer to nodes that differ in the places of their operands. -/
theorem Matches.exists_node (hgh : E.Matches g h) :
    ∃ (i : Nat) (n : Node), g = i ∧ h = E.place i ∧ E.inner.node? i = some n ∧
      E.outer.node? (E.place i) = some (n.rename E.place) := by
  obtain ⟨i, hi, rfl, rfl⟩ := hgh
  obtain ⟨n, hn⟩ := Arena.exists_node? hi
  exact ⟨i, n, rfl, rfl, hn, E.node hn⟩

theorem Matches.isZero_eq (hgh : E.Matches g h) : E.outer.isZero h = E.inner.isZero g := by
  obtain ⟨i, n, rfl, rfl, hi, hplace⟩ := hgh.exists_node
  simp [Arena.isZero, hi, hplace]

/-! ### Places -/

theorem place_lt_iff (hi : i < E.inner.size) (hj : j < E.inner.size) :
    E.place i < E.place j ↔ i < j := by
  constructor
  · intro h
    by_contra hij
    rcases Nat.lt_or_eq_of_le (Nat.le_of_not_lt hij) with hji | rfl
    · exact Nat.lt_asymm h (E.ascending hji hi)
    · exact Nat.lt_irrefl _ h
  · exact fun h => E.ascending h hj

theorem place_injective (hi : i < E.inner.size) (hj : j < E.inner.size)
    (h : E.place i = E.place j) : i = j := by
  have hij := place_lt_iff hi hj
  have hji := place_lt_iff hj hi
  omega

theorem biUnique (E : Embedding) : Relator.BiUnique E.Matches := by
  constructor
  · rintro g g' h ⟨i, hi, rfl, rfl⟩ ⟨j, hj, rfl, heq⟩
    exact congrArg Nat.cast (place_injective hi hj (Int.natCast_inj.mp heq))
  · rintro g h h' ⟨i, hi, rfl, rfl⟩ ⟨j, hj, heq, rfl⟩
    rw [Int.natCast_inj.mp heq]

theorem place_lt (hi : i < E.inner.size) : E.place i < E.outer.size := by
  obtain ⟨n, hn⟩ := Arena.exists_node? hi
  exact Arena.lt_size_of_node? (E.node hn)

theorem le_place (hi : i < E.inner.size) : i ≤ E.place i := by
  induction i with
  | zero => exact Nat.zero_le _
  | succ i ih =>
    exact Nat.lt_of_le_of_lt (ih (Nat.lt_of_succ_lt hi)) (E.ascending (Nat.lt_succ_self i) hi)

/-- The inner arena has no more nodes than the outer one. -/
theorem size_le (E : Embedding) : E.inner.size ≤ E.outer.size := by
  refine Nat.le_of_not_lt fun hlt => ?_
  have hle := le_place hlt
  have := place_lt hlt
  omega

/-! ### Ways to embed -/

/-- An arena stands in each one that it grows into. -/
def ofExtends {a b : Arena} (ha : a.WellFormed) (h : a.Extends b) : Embedding where
  inner := a
  outer := b
  place := id
  wellFormed := ha
  ascending hij _ := hij
  node hn := by
    rw [Node.rename_id]
    exact h _ _ hn

/-- The outer arena may grow alone. -/
def widen (E : Embedding) {b : Arena} (h : E.outer.Extends b) : Embedding where
  inner := E.inner
  outer := b
  place := E.place
  wellFormed := E.wellFormed
  ascending := E.ascending
  node hn := h _ _ (E.node hn)

theorem extends_widen (E : Embedding) {b : Arena} (h : E.outer.Extends b) :
    E.Extends (E.widen h) :=
  ⟨Arena.Extends.refl _, h, fun _ _ => rfl⟩

/-- Places after a node was appended on both sides. -/
def pushPlace (E : Embedding) (i : Nat) : Nat :=
  if i = E.inner.size then E.outer.size else E.place i

theorem pushPlace_of_lt (hi : i < E.inner.size) : E.pushPlace i = E.place i :=
  if_neg (Nat.ne_of_lt hi)

@[simp] theorem pushPlace_size (E : Embedding) : E.pushPlace E.inner.size = E.outer.size :=
  if_pos rfl

/-- A node may be appended on both sides. -/
def push (E : Embedding) {n : Node} (hn : ∀ c ∈ n.operands, c < E.inner.size) : Embedding where
  inner := E.inner.push n
  outer := E.outer.push (n.rename E.place)
  place := E.pushPlace
  wellFormed := E.wellFormed.push hn
  ascending {i j} hij hj := by
    rw [Arena.size_push] at hj
    rw [pushPlace_of_lt (by omega)]
    by_cases hlast : j = E.inner.size
    · rw [hlast, pushPlace_size]
      exact place_lt (by omega)
    · rw [pushPlace_of_lt (by omega)]
      exact E.ascending hij (by omega)
  node {i m} hm := by
    -- operands were there before, so they keep their places
    have hrename : ∀ {m : Node}, (∀ c ∈ m.operands, c < E.inner.size) →
        m.rename E.pushPlace = m.rename E.place := fun h =>
      Node.rename_congr fun x hx => pushPlace_of_lt (h x hx)
    rw [Arena.node?_push] at hm
    split at hm
    · rename_i hi
      cases hm
      rw [hi, pushPlace_size, hrename hn, Arena.node?_push, if_pos rfl]
    · have hi := Arena.lt_size_of_node? hm
      rw [pushPlace_of_lt hi, hrename fun c hc => Nat.lt_trans (E.wellFormed i m hm c hc) hi]
      exact Arena.extends_push _ _ _ _ (E.node hm)

section Push

variable {m : Node} (hm : ∀ c ∈ m.operands, c < E.inner.size)

theorem extends_push : E.Extends (E.push hm) :=
  ⟨Arena.extends_push _ _, Arena.extends_push _ _, fun _ hi => pushPlace_of_lt hi⟩

theorem matches_push : (E.push hm).Matches E.inner.size E.outer.size :=
  ⟨E.inner.size, by simp [push], rfl, by simp [push]⟩

end Push

/-! ### What lies below a node -/

theorem operands_place (hi : i < E.inner.size) :
    E.outer.operands (E.place i) = (E.inner.operands i).map E.place := by
  obtain ⟨n, hn⟩ := Arena.exists_node? hi
  rw [Arena.operands_of_node? hn, Arena.operands_of_node? (E.node hn), Node.operands_rename]

theorem operand_lt (hi : i < E.inner.size) (hj : j ∈ E.inner.operands i) : j < E.inner.size :=
  Nat.lt_trans (E.wellFormed.operand_lt hj) hi

theorem isParam_place (hi : i < E.inner.size) :
    E.outer.isParam (E.place i) = E.inner.isParam i := by
  obtain ⟨n, hn⟩ := Arena.exists_node? hi
  simp [Arena.isParam, hn, E.node hn]

end Embedding

/-- What is reached from a place, when steps from places lead to places. -/
theorem reaches_place_iff {next next' : Nat → List Nat} {place : Nat → Nat} {bound : Nat}
    (hlt : ∀ i < bound, ∀ c ∈ next i, c < bound)
    (hnext : ∀ i < bound, next' (place i) = (next i).map place) {i m : Nat} (hi : i < bound) :
    Reaches next' (place i) m ↔ ∃ j, Reaches next i j ∧ place j = m := by
  constructor
  · intro h
    generalize hk : place i = k at h
    induction h generalizing i with
    | refl => exact ⟨i, .refl i, hk⟩
    | step hc _ ih =>
      subst hk
      rw [hnext i hi] at hc
      obtain ⟨c, hmem, rfl⟩ := List.mem_map.mp hc
      obtain ⟨j, hr, hj⟩ := ih (hlt i hi c hmem) rfl
      exact ⟨j, .step hmem hr, hj⟩
  · rintro ⟨j, hr, rfl⟩
    induction hr with
    | refl => exact .refl _
    | step hc _ ih =>
      refine .step ?_ (ih (hlt _ hi _ hc))
      rw [hnext _ hi]
      exact List.mem_map_of_mem hc

/-- A strictly ascending list is determined by its members, also up to an ascending renaming. -/
theorem eq_map_of_mem_iff {xs ys : List Nat} {place : Nat → Nat} (hxs : xs.Pairwise (· < ·))
    (hys : ys.Pairwise (· < ·))
    (hplace : ∀ i ∈ xs, ∀ j ∈ xs, i < j → place i < place j)
    (hmem : ∀ m, m ∈ ys ↔ ∃ j ∈ xs, place j = m) : ys = xs.map place := by
  have hmap : (xs.map place).Pairwise (· < ·) :=
    List.pairwise_map.mpr (hxs.imp_of_mem fun hi hj hij => hplace _ hi _ hj hij)
  apply hys.sortedLT.eq_of_mem_iff hmap.sortedLT
  intro m
  rw [hmem, List.mem_map]

namespace Embedding

variable {E : Embedding} {i j m : Nat} {asked asked' : Nat → Prop}

theorem reaches_place (hi : i < E.inner.size) : Reaches E.outer.operands (E.place i) m ↔
    ∃ j, Reaches E.inner.operands i j ∧ E.place j = m :=
  reaches_place_iff (fun _ hi _ hc => operand_lt hi hc) (fun _ hi => operands_place hi) hi

theorem lt_of_reaches (hi : i < E.inner.size) (hr : Reaches E.inner.operands i j) :
    j < E.inner.size :=
  Nat.lt_of_le_of_lt (hr.le fun _ _ hc => E.wellFormed.operand_lt hc) hi

theorem reaches_place_place (hi : i < E.inner.size) (hj : j < E.inner.size) :
    Reaches E.outer.operands (E.place i) (E.place j) ↔ Reaches E.inner.operands i j := by
  rw [reaches_place hi]
  constructor
  · rintro ⟨j', hr, heq⟩
    rwa [place_injective (lt_of_reaches hi hr) hj heq] at hr
  · exact fun hr => ⟨j, hr, rfl⟩

/-- What leads to something asked for does so where it has its place, if that is asked for. -/
theorem leads_place (hasked : ∀ p < E.inner.size, asked p → asked' (E.place p))
    (hi : i < E.inner.size) (h : E.inner.Leads asked i) : E.outer.Leads asked' (E.place i) := by
  obtain ⟨p, hr, hparam, hp⟩ := h
  have hlt := lt_of_reaches hi hr
  exact ⟨E.place p, (reaches_place_place hi hlt).mpr hr, (isParam_place hlt).trans hparam,
    hasked p hlt hp⟩

theorem leads_place_iff (hasked : ∀ p < E.inner.size, asked p ↔ asked' (E.place p))
    (hi : i < E.inner.size) : E.outer.Leads asked' (E.place i) ↔ E.inner.Leads asked i := by
  refine ⟨?_, leads_place (fun p hp => (hasked p hp).mp) hi⟩
  rintro ⟨q, hr, hparam, hq⟩
  obtain ⟨p, hip, rfl⟩ := (reaches_place hi).mp hr
  have hlt := lt_of_reaches hi hip
  exact ⟨p, hip, (isParam_place hlt).symm.trans hparam, (hasked p hlt).mpr hq⟩

end Embedding

end TensorGraph
