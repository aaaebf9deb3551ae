import TensorGraph.Proofs.Gradient.Building
import TensorGraph.Proofs.Graph.Embedding

/-!
# Building in parallel

What is built from corresponding nodes of two arenas corresponds, as long as both actions succeed:
the same nodes are appended on both sides, up to the places of their operands.
-/

namespace TensorGraph

namespace Recipe

/-- A recipe with its operands renamed. -/
def rename (place : Nat → Nat) : Recipe → Recipe
  | .gradient => .gradient
  | .node => .node
  | .operand x => .operand (place x)
  | .neg r => .neg (r.rename place)
  | .mul r s => .mul (r.rename place) (s.rename place)
  | .div r s => .div (r.rename place) (s.rename place)
  | .zeroLike r => .zeroLike (r.rename place)

/-- Operands may be renamed in the recipe or where they are looked up. -/
theorem carryOut_rename {m : Type → Type} [Monad m] {α : Type} (alg : Algebra m α)
    (gradient node : α) (operand : Nat → α) (place : Nat → Nat) (r : Recipe) :
    (r.rename place).carryOut alg gradient node operand =
      r.carryOut alg gradient node (operand ∘ place) := by
  induction r with
  | gradient => rfl
  | node => rfl
  | operand x => rfl
  | neg r ih => simp only [rename, carryOut, ih]
  | mul r s ihr ihs => simp only [rename, carryOut, ihr, ihs]
  | div r s ihr ihs => simp only [rename, carryOut, ihr, ihs]
  | zeroLike r ih => simp only [rename, carryOut, ih]

end Recipe

theorem Form.rules_rename (place : Nat → Nat) (f : Form) :
    (f.rename place).rules = f.rules.map fun rule => (place rule.1, rule.2.rename place) := by
  cases f with
  | leaf k => rfl
  | unary k x => cases k <;> rfl
  | binary k l r => cases k <;> rfl

/-- Looking a node up gives it and changes nothing. -/
theorem Arena.of_nodeAt_ok {a b : Arena} {i : Int} {n : Node} (h : nodeAt i a = .ok n b) :
    a.at? i = some n ∧ b = a := by
  simp only [nodeAt] at h
  split at h
  · rename_i m hm
    cases h
    exact ⟨hm, rfl⟩
  · cases h

namespace Embedding

variable {α β : Type}

/-- When both actions succeed, both arenas have grown, and the results correspond. -/
def Parallel (E : Embedding) (x y : Build α) (M : Embedding → α → α → Prop) : Prop :=
  ∀ u v b d, x E.inner = .ok u b → y E.outer = .ok v d →
    ∃ F : Embedding, F.inner = b ∧ F.outer = d ∧ E.Extends F ∧ M F u v

variable {E : Embedding} {M : Embedding → α → α → Prop} {N : Embedding → β → β → Prop}
  {g h i j : Int}

theorem Parallel.pure {u v : α} (h : M E u v) : E.Parallel (Pure.pure u) (Pure.pure v) M := by
  rintro u' v' b d ⟨⟩ ⟨⟩
  exact ⟨E, rfl, rfl, .refl E, h⟩

theorem Parallel.bind {x y : Build α} {f f' : α → Build β} (hxy : E.Parallel x y M)
    (hf : ∀ F u v, E.Extends F → M F u v → F.Parallel (f u) (f' v) N) :
    E.Parallel (x >>= f) (y >>= f') N := by
  intro u v b d hx hy
  obtain ⟨u', b', hx, hfx⟩ := exists_of_bind_ok hx
  obtain ⟨v', d', hy, hfy⟩ := exists_of_bind_ok hy
  obtain ⟨F, rfl, rfl, hEF, huv⟩ := hxy _ _ _ _ hx hy
  obtain ⟨G, hb, hd, hFG, h⟩ := hf F u' v' hEF huv _ _ _ _ hfx hfy
  exact ⟨G, hb, hd, hEF.trans hFG, h⟩

/-! ### Operators -/

/-- Indices of corresponding nodes. -/
def MatchesAt (E : Embedding) (i j : Nat) : Prop := E.Matches i j

theorem Parallel.handle {x y : Build Nat} (h : E.Parallel x y MatchesAt) :
    E.Parallel (Arena.handle x) (Arena.handle y) Matches := by
  intro u v b d hx hy
  obtain ⟨k, hk, rfl⟩ := Arena.handle_ok hx
  obtain ⟨l, hl, rfl⟩ := Arena.handle_ok hy
  exact h _ _ _ _ hk hl

/-- A node may be appended in both arenas. -/
theorem parallel_push {n : Node} (hn : ∀ c ∈ n.operands, c < E.inner.size) {x y : Build Nat}
    (hx : x E.inner = .ok E.inner.size (E.inner.push n))
    (hy : y E.outer = .ok E.outer.size (E.outer.push (n.rename E.place))) :
    E.Parallel x y MatchesAt := by
  intro u v b d hu hv
  cases hx.symm.trans hu
  cases hy.symm.trans hv
  exact ⟨E.push hn, rfl, rfl, extends_push hn, matches_push hn⟩

theorem parallel_unary (k : Unary) (hgh : E.Matches g h) :
    E.Parallel (Arena.unary k g) (Arena.unary k h) MatchesAt := by
  obtain ⟨i, n, rfl, rfl, hi, hplace⟩ := hgh.exists_node
  have hlt : ∀ c ∈ (⟨.unary k i, n.shape, none⟩ : Node).operands, c < E.inner.size := by
    intro c hc
    rw [List.mem_singleton.mp hc]
    exact Arena.lt_size_of_node? hi
  exact parallel_push hlt (Arena.unary_run hi) (Arena.unary_run (n := n.rename E.place) hplace)

theorem binary_mismatch {a : Arena} {k : Binary} {l r : Nat} {m n : Node}
    (hl : a.node? l = some m) (hr : a.node? r = some n) (h : m.shape ≠ n.shape) :
    ∃ e, Arena.binary k l r a = .error e a := by
  simp only [Arena.binary, Arena.nodeAt, Bind.bind, EStateM.bind, Arena.at?_ofNat, hl, hr]
  rw [if_pos h]
  exact ⟨_, rfl⟩

theorem parallel_binary (k : Binary) (hgh : E.Matches g h) (hij : E.Matches i j) :
    E.Parallel (Arena.binary k g i) (Arena.binary k h j) MatchesAt := by
  obtain ⟨l, m, rfl, rfl, hl, hplace⟩ := hgh.exists_node
  obtain ⟨r, n, rfl, rfl, hr, hplace'⟩ := hij.exists_node
  by_cases hshape : m.shape = n.shape
  · have hlt : ∀ c ∈ (⟨.binary k l r, m.shape, none⟩ : Node).operands, c < E.inner.size := by
      intro c hc
      have hc : c = l ∨ c = r := by simpa [Node.operands, Form.operands] using hc
      rcases hc with rfl | rfl
      · exact Arena.lt_size_of_node? hl
      · exact Arena.lt_size_of_node? hr
    exact parallel_push hlt (Arena.binary_run hl hr hshape)
      (Arena.binary_run (m := m.rename E.place) (n := n.rename E.place) hplace hplace' hshape)
  · intro u v b d hu
    obtain ⟨e, he⟩ := binary_mismatch (k := k) hl hr hshape
    cases he.symm.trans hu

theorem parallel_div (hgh : E.Matches g h) (hij : E.Matches i j) :
    E.Parallel (Arena.div g i) (Arena.div h j) MatchesAt :=
  (parallel_unary .reciprocal hij).bind fun _ _ _ hEF hxy =>
    parallel_binary .mul (hgh.mono hEF) hxy

theorem leaf_run (a : Arena) (k : Leaf) (sh : Shape) (name : Option String) :
    Arena.add (.leaf k) [] (.shape sh) name a = .ok a.size (a.push ⟨.leaf k, sh, name⟩) := by
  have hnew := Arena.newNode_eq_ok (a := a) (.leaf k) (by simp [Form.operands]) sh name
  simp only [Form.kind, Form.operands, List.map_nil] at hnew
  simp only [Arena.add, hnew, Arena.append]

theorem parallel_leaf (E : Embedding) (k : Leaf) (sh : Shape) (name : Option String) :
    E.Parallel (Arena.add (.leaf k) [] (.shape sh) name)
      (Arena.add (.leaf k) [] (.shape sh) name) MatchesAt := by
  refine parallel_push (n := ⟨.leaf k, sh, name⟩) ?_ (leaf_run _ _ _ _) (leaf_run _ _ _ _)
  intro c hc
  cases hc

theorem parallel_zeroLike (hgh : E.Matches g h) :
    E.Parallel (Arena.zeroLike g) (Arena.zeroLike h) MatchesAt := by
  obtain ⟨i, n, rfl, rfl, hi, hplace⟩ := hgh.exists_node
  have hrun : ∀ {a : Arena} {i : Nat} {m : Node}, a.node? i = some m →
      Arena.zeroLike i a = Arena.add (.leaf .zero) [] (.shape m.shape) none a := by
    intro a i m hm
    have hnode : Arena.nodeAt i a = .ok m a := by rw [Arena.nodeAt, Arena.at?_ofNat, hm]
    exact bind_of_ok hnode
  intro u v b d hu hv
  rw [hrun hi] at hu
  rw [hrun hplace] at hv
  exact parallel_leaf E .zero n.shape none _ _ _ _ hu hv

/-! ### Recipes -/

theorem parallel_carryOut (r : Recipe) {operand operand' : Nat → Int} (hgh : E.Matches g h)
    (hij : E.Matches i j) (hx : ∀ x ∈ r.operands, E.Matches (operand x) (operand' x)) :
    E.Parallel (r.carryOut Arena.algebra g i operand) (r.carryOut Arena.algebra h j operand')
      Matches := by
  induction r generalizing E with
  | gradient => exact .pure hgh
  | node => exact .pure hij
  | operand x => exact .pure (hx x (List.mem_singleton_self x))
  | neg r ih => exact (ih hgh hij hx).bind fun F u v _ huv => (parallel_unary .neg huv).handle
  | mul r s ihr ihs =>
    refine (ihr hgh hij fun x hmem => hx x (List.mem_append_left _ hmem)).bind
      fun F u v hEF huv => ?_
    refine (ihs (hgh.mono hEF) (hij.mono hEF) fun x hmem =>
      (hx x (List.mem_append_right _ hmem)).mono hEF).bind fun G u' v' hFG huv' => ?_
    exact (parallel_binary .mul (huv.mono hFG) huv').handle
  | div r s ihr ihs =>
    refine (ihr hgh hij fun x hmem => hx x (List.mem_append_left _ hmem)).bind
      fun F u v hEF huv => ?_
    refine (ihs (hgh.mono hEF) (hij.mono hEF) fun x hmem =>
      (hx x (List.mem_append_right _ hmem)).mono hEF).bind fun G u' v' hFG huv' => ?_
    exact (parallel_div (huv.mono hFG) huv').handle
  | zeroLike r ih => exact (ih hgh hij hx).bind fun F u v _ huv => (parallel_zeroLike huv).handle

/-! ### Sums -/

theorem forall₂_mono {F : Embedding} (hEF : E.Extends F) {gs hs : List Int}
    (h : List.Forall₂ E.Matches gs hs) : List.Forall₂ F.Matches gs hs :=
  h.imp fun _ _ hgh => hgh.mono hEF

theorem parallel_foldlM {gs hs : List Int} (hrest : List.Forall₂ E.Matches gs hs)
    (hgh : E.Matches g h) :
    E.Parallel (gs.foldlM (fun x y => Arena.handle (Arena.binary .add x y)) g)
      (hs.foldlM (fun x y => Arena.handle (Arena.binary .add x y)) h) Matches := by
  induction gs generalizing E g h hs with
  | nil =>
    cases hrest
    exact .pure hgh
  | cons x gs ih =>
    obtain _ | ⟨hxy, hrest⟩ := hrest
    rw [List.foldlM_cons, List.foldlM_cons]
    exact (parallel_binary .add hgh hxy).handle.bind fun F u v hEF huv =>
      ih (forall₂_mono hEF hrest) huv

/-- Zero leaves are left out on both sides. -/
theorem forall₂_filter {gs hs : List Int} (h : List.Forall₂ E.Matches gs hs) :
    List.Forall₂ E.Matches (gs.filter fun g => !E.inner.isZero g)
      (hs.filter fun g => !E.outer.isZero g) :=
  List.rel_filter (fun _ _ hgh => by simp only [hgh.isZero_eq]) h

theorem parallel_accumulate {gs hs : List Int} (hgs : List.Forall₂ E.Matches gs hs) :
    E.Parallel
      (accumulate E.inner.isZero (fun x y => Arena.handle (Arena.binary .add x y)) gs)
      (accumulate E.outer.isZero (fun x y => Arena.handle (Arena.binary .add x y)) hs)
      Matches := by
  have hfilter := forall₂_filter hgs
  simp only [accumulate]
  generalize gs.filter (fun g => !E.inner.isZero g) = us at hfilter ⊢
  generalize hs.filter (fun g => !E.outer.isZero g) = vs at hfilter ⊢
  cases hfilter with
  | nil =>
    cases hgs with
    | nil =>
      intro u v b d hu
      cases hu
    | cons hgh _ => exact .pure hgh
  | cons hgh hrest => exact parallel_foldlM hrest hgh

end Embedding

namespace Arena

/-- A sum that succeeds is what its contributions accumulate to. -/
theorem accumulate_of_sum_ok {gs : List Int} {a b : Arena} {g : Int} (h : sum gs a = .ok g b) :
    accumulate a.isZero (fun x y => handle (binary .add x y)) gs a = .ok g b := by
  have hchecks : Keeps Eq (gs.forM fun g => do let _ ← nodeAt g : Build Unit) := by
    refine Keeps.forM gs fun g _ => Keeps.bind (fun a => ?_) fun _ => Keeps.pure _
    simp only [nodeAt]
    cases a.at? g with
    | none => rfl
    | some n => rfl
  obtain ⟨u, a', hcheck, hsum⟩ := exists_of_bind_ok h
  cases hchecks.of_ok hcheck
  exact hsum

end Arena

theorem Embedding.parallel_sum {E : Embedding} {gs hs : List Int}
    (hgs : List.Forall₂ E.Matches gs hs) :
    E.Parallel (Arena.sum gs) (Arena.sum hs) Matches := fun u v b d hu hv =>
  parallel_accumulate hgs u v b d (Arena.accumulate_of_sum_ok hu) (Arena.accumulate_of_sum_ok hv)

end TensorGraph
