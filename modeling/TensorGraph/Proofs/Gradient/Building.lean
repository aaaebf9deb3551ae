import TensorGraph.Proofs.Gradient.Tangent

/-!
# Building gradients

In an arena built by operators a node and its gradients have one shape, so the sums and the recipes
of a pass can always be carried out. What is built has the value that its recipe has in the ring.
-/

namespace TensorGraph

namespace Arena

/-- Arenas that operators build. -/
structure Regular (a : Arena) : Prop where
  wellFormed : a.WellFormed
  uniform : a.Uniform

/-- A handle refers to a node of a shape. -/
def Has (a : Arena) (s : Shape) (g : Int) : Prop :=
  ∃ (k : Nat) (n : Node), g = k ∧ a.node? k = some n ∧ n.shape = s

variable {R : Type} [CommRing R] (F : Functions R) (ρ : Nat → R)

/-- A handle refers to a node of a shape that has a value. -/
def Denotes (a : Arena) (s : Shape) (g : Int) (v : R) : Prop :=
  a.Has s g ∧ a.value F ρ g.toNat = v

/-- An action succeeds and gives a node of a shape that has a value. -/
def Yields (x : Build Int) (a : Arena) (s : Shape) (v : R) : Prop :=
  ∃ g b, x a = .ok g b ∧ a.Extends b ∧ b.Regular ∧ b.Denotes F ρ s g v

variable {F ρ} {a b : Arena} {s : Shape} {x y g : Int} {u v : R}

theorem GrowsUniformly.regular (h : a.GrowsUniformly b) (ha : a.Regular) : b.Regular :=
  ⟨h.1.2 ha.wellFormed, h.2 ha.uniform⟩

theorem regular_empty : empty.Regular := ⟨wellFormed_empty, uniform_empty⟩

theorem Has.of_extends (h : a.Has s g) (hab : a.Extends b) : b.Has s g := by
  obtain ⟨k, n, hg, hn, hs⟩ := h
  exact ⟨k, n, hg, hab k n hn, hs⟩

/-- A handle denotes the same when the arena has grown. -/
theorem Denotes.of_extends (h : a.Denotes F ρ s g v) (ha : a.Regular) (hb : b.Regular)
    (hab : a.Extends b) : b.Denotes F ρ s g v := by
  obtain ⟨hg, hv⟩ := h
  refine ⟨hg.of_extends hab, ?_⟩
  obtain ⟨k, n, rfl, hn, _⟩ := hg
  rw [← hv]
  exact value_of_extends ha.wellFormed hb.wellFormed hab hn

theorem node?_push_self (a : Arena) (n : Node) : (a.push n).node? a.size = some n := by
  rw [node?_push, if_pos rfl]

/-- A node may be appended over nodes of its shape. -/
theorem regular_push (ha : a.Regular) {n : Node} (hn : ∀ c ∈ n.operands, a.Has n.shape (c : Int)) :
    (a.push n).Regular := by
  refine (growsUniformly_push fun c hc => ?_).regular ha
  obtain ⟨k, m, hck, hm, hs⟩ := hn c hc
  rw [Int.natCast_inj.mp hck]
  exact ⟨m, hm, hs⟩

theorem has_push {n : Node} : (a.push n).Has n.shape (a.size : Int) :=
  ⟨a.size, n, rfl, node?_push_self a n, rfl⟩

theorem Yields.pure (ha : a.Regular) (hg : a.Denotes F ρ s g v) :
    Yields F ρ (Pure.pure g) a s v :=
  ⟨g, a, rfl, Extends.refl a, ha, hg⟩

theorem Yields.bind {c : Build Int} {f : Int → Build Int} (hc : Yields F ρ c a s u)
    (hf : ∀ g b, a.Extends b → b.Regular → b.Denotes F ρ s g u → Yields F ρ (f g) b s v) :
    Yields F ρ (c >>= f) a s v := by
  obtain ⟨g, b, hok, hab, hb, hg⟩ := hc
  obtain ⟨h, d, hok', hbd, hd, hh⟩ := hf g b hab hb hg
  refine ⟨h, d, ?_, hab.trans hbd, hd, hh⟩
  rw [bind_of_ok hok]
  exact hok'

/-! ### Operators -/

theorem handle_of_ok {c : Build Nat} {k : Nat} (h : c a = .ok k b) :
    handle c a = .ok (k : Int) b := by
  simp [handle, h]

theorem handle_ok {c : Build Nat} (h : handle c a = .ok g b) :
    ∃ k : Nat, c a = .ok k b ∧ g = k := by
  unfold handle at h
  cases hc : c a with
  | ok k d =>
    rw [hc] at h
    cases h
    exact ⟨k, rfl, rfl⟩
  | error e d =>
    rw [hc] at h
    cases h

theorem yields_unary (ha : a.Regular) (k : Unary) (hx : a.Denotes F ρ s x u) :
    Yields F ρ (handle (unary k x)) a s (F.interpretation.unary k u) := by
  obtain ⟨i, n, rfl, hn, rfl⟩ := hx.1
  have hpush : (a.push ⟨.unary k i, n.shape, none⟩).Regular := by
    apply regular_push ha
    intro c hc
    rw [List.mem_singleton.mp hc]
    exact hx.1
  have hold := hx.of_extends ha hpush (extends_push a _)
  refine ⟨a.size, _, handle_of_ok (unary_run hn), extends_push a _, hpush, has_push, ?_⟩
  change value F ρ _ a.size = _
  rw [value_unary hpush.wellFormed (node?_push_self a _) rfl]
  exact congrArg _ hold.2

theorem yields_binary (ha : a.Regular) (k : Binary) (hx : a.Denotes F ρ s x u)
    (hy : a.Denotes F ρ s y v) :
    Yields F ρ (handle (binary k x y)) a s (F.interpretation.binary k u v) := by
  obtain ⟨l, m, rfl, hm, rfl⟩ := hx.1
  obtain ⟨r, n, rfl, hn, hshape⟩ := hy.1
  have hpush : (a.push ⟨.binary k l r, m.shape, none⟩).Regular := by
    apply regular_push ha
    intro c hc
    have hc : c = l ∨ c = r := by simpa [Node.operands, Form.operands] using hc
    rcases hc with rfl | rfl
    · exact hx.1
    · exact hy.1
  have hl := hx.of_extends ha hpush (extends_push a _)
  have hr := hy.of_extends ha hpush (extends_push a _)
  refine ⟨a.size, _, handle_of_ok (binary_run hm hn hshape.symm), extends_push a _, hpush,
    has_push, ?_⟩
  change value F ρ _ a.size = _
  rw [value_binary hpush.wellFormed (node?_push_self a _) rfl]
  exact congrArg₂ _ hl.2 hr.2

/-- A quotient is built from the reciprocal. -/
theorem yields_div (ha : a.Regular) (hx : a.Denotes F ρ s x u) (hy : a.Denotes F ρ s y v) :
    Yields F ρ (handle (div x y)) a s (u * F.reciprocal v) := by
  obtain ⟨z, b, hinverse, hab, hb, hz⟩ : Yields F ρ _ a s _ := yields_unary ha .reciprocal hy
  obtain ⟨g, d, hproduct, hbd, hd, hg⟩ : Yields F ρ _ b s _ :=
    yields_binary hb .mul (hx.of_extends ha hb hab) hz
  obtain ⟨i, hi, rfl⟩ := handle_ok hinverse
  obtain ⟨j, hj, rfl⟩ := handle_ok hproduct
  refine ⟨j, d, handle_of_ok ?_, hab.trans hbd, hd, hg⟩
  rw [div, bind_of_ok hi]
  exact hj

theorem yields_zeroLike (ha : a.Regular) (hx : a.Has s x) :
    Yields F ρ (handle (zeroLike x)) a s 0 := by
  obtain ⟨i, n, rfl, hn, rfl⟩ := hx
  have hrun : zeroLike i a = .ok a.size (a.push ⟨.leaf .zero, n.shape, none⟩) := by
    have hnew := newNode_eq_ok (a := a) (.leaf .zero) (by simp [Form.operands]) n.shape none
    simp only [Form.kind, Form.operands, List.map_nil] at hnew
    simp only [zeroLike, nodeAt, Bind.bind, EStateM.bind, at?_ofNat, hn, zero, add, hnew, append]
  have hpush : (a.push ⟨.leaf .zero, n.shape, none⟩).Regular :=
    regular_push ha (by simp [Node.operands, Form.operands])
  refine ⟨a.size, _, handle_of_ok hrun, extends_push a _, hpush, has_push, ?_⟩
  exact value_zero (node?_push_self a _) rfl

end Arena

/-! ### Recipes -/

/-- The operands that a recipe uses. -/
def Recipe.operands : Recipe → List Nat
  | .gradient => []
  | .node => []
  | .operand x => [x]
  | .neg r => r.operands
  | .mul r s => r.operands ++ s.operands
  | .div r s => r.operands ++ s.operands
  | .zeroLike r => r.operands

/-- The rules of a node use only its operands. -/
theorem Form.operands_of_rule {form : Form} {rule : Nat × Recipe} (h : rule ∈ form.rules) :
    ∀ x ∈ rule.2.operands, x ∈ form.operands := by
  cases form with
  | leaf k => cases h
  | unary k x =>
    cases k <;> rw [List.mem_singleton.mp h] <;> simp [Recipe.operands, operands]
  | binary k l r =>
    cases k <;> simp only [rules, List.mem_cons, List.not_mem_nil, or_false] at h <;>
      rcases h with rfl | rfl <;> simp [Recipe.operands, operands]

namespace Arena

variable {R : Type} [CommRing R] {F : Functions R} {ρ : Nat → R} {s : Shape}

/-- A recipe can be carried out, and what it builds has the value that the recipe has. -/
theorem yields_carryOut (r : Recipe) {a : Arena} {g i : Int} {vg vi : R} {vx : Nat → R}
    (ha : a.Regular) (hg : a.Denotes F ρ s g vg) (hi : a.Denotes F ρ s i vi)
    (hx : ∀ x ∈ r.operands, a.Denotes F ρ s (x : Int) (vx x)) :
    Yields F ρ (r.carryOut algebra g i Int.ofNat) a s (r.value F vg vi vx) := by
  induction r generalizing a with
  | gradient => exact Yields.pure ha hg
  | node => exact Yields.pure ha hi
  | operand x => exact Yields.pure ha (hx x (List.mem_singleton_self x))
  | neg r ih => exact (ih ha hg hi hx).bind fun x b _ hb hxb => yields_unary hb .neg hxb
  | mul r r' ih ih' =>
    refine (ih ha hg hi fun x hmem => hx x (List.mem_append_left _ hmem)).bind
      fun x b hab hb hxb => ?_
    refine (ih' hb (hg.of_extends ha hb hab) (hi.of_extends ha hb hab) fun y hmem =>
      (hx y (List.mem_append_right _ hmem)).of_extends ha hb hab).bind fun y d hbd hd hyd => ?_
    exact yields_binary hd .mul (hxb.of_extends hb hd hbd) hyd
  | div r r' ih ih' =>
    refine (ih ha hg hi fun x hmem => hx x (List.mem_append_left _ hmem)).bind
      fun x b hab hb hxb => ?_
    refine (ih' hb (hg.of_extends ha hb hab) (hi.of_extends ha hb hab) fun y hmem =>
      (hx y (List.mem_append_right _ hmem)).of_extends ha hb hab).bind fun y d hbd hd hyd => ?_
    exact yields_div hd (hxb.of_extends hb hd hbd) hyd
  | zeroLike r ih => exact (ih ha hg hi hx).bind fun x b _ hb hxb => yields_zeroLike hb hxb.1

/-! ### Sums -/

/-- The sum of the values of nodes. -/
def total (F : Functions R) (ρ : Nat → R) (a : Arena) (gs : List Int) : R :=
  (gs.map fun g => a.value F ρ g.toNat).sum

variable {a b : Arena}

theorem Has.denotes {g : Int} (h : a.Has s g) : a.Denotes F ρ s g (a.value F ρ g.toNat) := ⟨h, rfl⟩

theorem total_cons (g : Int) (gs : List Int) :
    a.total F ρ (g :: gs) = a.value F ρ g.toNat + a.total F ρ gs := by
  rw [total, List.map_cons, List.sum_cons]
  rfl

theorem total_of_extends (ha : a.Regular) (hb : b.Regular) (hab : a.Extends b) {gs : List Int}
    (hgs : ∀ g ∈ gs, a.Has s g) : b.total F ρ gs = a.total F ρ gs := by
  refine congrArg List.sum (List.map_congr_left fun g hg => ?_)
  exact ((hgs g hg).denotes.of_extends ha hb hab).2

theorem value_of_isZero {g : Int} (hg : a.Has s g) (hz : a.isZero g = true) :
    a.value F ρ g.toNat = 0 := by
  obtain ⟨k, n, rfl, hn, _⟩ := hg
  obtain ⟨form, shape, name⟩ := n
  simp only [isZero, at?_ofNat, hn, Option.map_some, beq_iff_eq, Option.some.injEq] at hz
  cases form with
  | leaf k =>
    simp only [Node.kind, Form.kind, Kind.zero, Kind.leaf.injEq] at hz
    exact value_zero hn (by rw [hz])
  | unary k x => simp [Node.kind, Form.kind, Kind.zero] at hz
  | binary k l r => simp [Node.kind, Form.kind, Kind.zero] at hz

/-- Zero leaves may be left out of a sum. -/
theorem total_filter {gs : List Int} (hgs : ∀ g ∈ gs, a.Has s g) :
    a.total F ρ (gs.filter fun g => !a.isZero g) = a.total F ρ gs := by
  induction gs with
  | nil => rfl
  | cons g gs ih =>
    have ih := ih fun h hh => hgs h (List.mem_cons_of_mem g hh)
    rw [List.filter_cons, total_cons]
    split
    · rw [total_cons, ih]
    · rename_i hz
      have hz : a.isZero g = true := by simpa using hz
      rw [value_of_isZero (hgs g (List.mem_cons_self ..)) hz, ih, zero_add]

theorem yields_foldlM (gs : List Int) {g : Int} {v : R} (ha : a.Regular)
    (hg : a.Denotes F ρ s g v) (hgs : ∀ h ∈ gs, a.Has s h) :
    Yields F ρ (gs.foldlM (fun x y => handle (binary .add x y)) g) a s (v + a.total F ρ gs) := by
  induction gs generalizing a g v with
  | nil =>
    rw [total, List.map_nil, List.sum_nil, add_zero]
    exact Yields.pure ha hg
  | cons h gs ih =>
    have hh := hgs h (List.mem_cons_self ..)
    have hrest : ∀ k ∈ gs, a.Has s k := fun k hk => hgs k (List.mem_cons_of_mem h hk)
    rw [List.foldlM_cons]
    apply (yields_binary ha .add hg hh.denotes).bind
    intro x b hab hb hx
    have hsum := ih hb hx fun k hk => (hrest k hk).of_extends hab
    rw [total_of_extends ha hb hab hrest] at hsum
    rw [total_cons, ← add_assoc]
    exact hsum

theorem check_ok {gs : List Int} (hgs : ∀ g ∈ gs, a.Has s g) :
    (gs.forM (fun g => do let _ ← nodeAt g) : Build Unit) a = .ok () a := by
  induction gs with
  | nil => rfl
  | cons g gs ih =>
    obtain ⟨k, n, rfl, hn, _⟩ := hgs g (List.mem_cons_self ..)
    have hnode : (do let _ ← nodeAt (k : Int) : Build Unit) a = .ok () a := by
      simp [Bind.bind, EStateM.bind, nodeAt, hn, Pure.pure, EStateM.pure]
    refine (forM_cons_of_ok (g := fun g => do let _ ← nodeAt g) hnode).trans ?_
    exact ih fun h hh => hgs h (List.mem_cons_of_mem _ hh)

/-- Contributions can be summed; zero leaves among them make no difference. -/
theorem yields_sum (ha : a.Regular) {gs : List Int} (hne : gs ≠ []) (hgs : ∀ g ∈ gs, a.Has s g) :
    Yields F ρ (sum gs) a s (a.total F ρ gs) := by
  have hrun : sum gs a = accumulate a.isZero (fun x y => handle (binary .add x y)) gs a :=
    bind_of_ok (check_ok hgs)
  have hyields : Yields F ρ (accumulate a.isZero (fun x y => handle (binary .add x y)) gs) a s
      (a.total F ρ gs) := by
    simp only [accumulate]
    split
    · rename_i g rest hfilter
      have hmem : ∀ h ∈ g :: rest, a.Has s h := fun h hh =>
        hgs h (List.mem_filter.mp (hfilter ▸ hh)).1
      rw [← total_filter hgs, hfilter, total_cons]
      exact yields_foldlM rest ha (hmem g (List.mem_cons_self ..)).denotes fun h hh =>
        hmem h (List.mem_cons_of_mem g hh)
    · rename_i hfilter
      rw [← total_filter hgs, hfilter]
      cases gs with
      | nil => exact absurd rfl hne
      | cons g rest =>
        have hg := hgs g (List.mem_cons_self ..)
        have hz : a.isZero g = true := by
          have := List.filter_eq_nil_iff.mp hfilter g (List.mem_cons_self ..)
          simpa using this
        exact Yields.pure ha ⟨hg, value_of_isZero hg hz⟩
  obtain ⟨g, b, hok, hrest⟩ := hyields
  exact ⟨g, b, hrun.trans hok, hrest⟩

end Arena

end TensorGraph
