import TensorGraph.Proofs.Gradient.Accumulation

/-!
# What gradients are made of

Gradients are sums, products, negations and reciprocals, and zero leaves. Their operands are nodes
that were given, such as those of the graph that is differentiated, or new ones. A new zero leaf is
never one of them.
-/

namespace TensorGraph

/-- The kinds of nodes that gradients are made of. -/
def Kind.gradients : List Kind := [.zero, .add, .mul, .unary .neg, .unary .reciprocal]

/-- Recipes that make no zero leaf. -/
def Recipe.isPlain : Recipe → Bool
  | .gradient | .node | .operand _ => true
  | .neg r => r.isPlain
  | .mul r s | .div r s => r.isPlain && s.isPlain
  | .zeroLike _ => false

/-- Recipes that end in an operation. -/
def Recipe.isOperation : Recipe → Bool
  | .neg _ | .mul _ _ | .div _ _ => true
  | _ => false

/-- The step function has a zero leaf for gradient, of its operand's shape; the other rules pass the
gradient on or end in an operation. -/
theorem Form.rule_cases {form : Form} {rule : Nat × Recipe} (h : rule ∈ form.rules) :
    (form.kind = .unary .gtz ∧ rule.2 = .zeroLike (.operand rule.1)) ∨
      (form.kind ≠ .unary .gtz ∧ rule.2.isPlain = true ∧
        (rule.2 = .gradient ∨ rule.2.isOperation = true)) := by
  cases form with
  | leaf k => cases h
  | unary k x => cases k <;> rw [List.mem_singleton.mp h] <;> simp [kind, Recipe.isPlain,
      Recipe.isOperation]
  | binary k l r =>
    cases k <;> simp only [rules, List.mem_cons, List.not_mem_nil, or_false] at h <;>
      rcases h with rfl | rfl <;> simp [kind, Recipe.isPlain, Recipe.isOperation]

namespace Arena

variable (base : Nat) (given : Nat → Prop)

/-- What may be an operand: a given node below the base, or one from there on that is no zero
leaf. -/
structure Usable (a : Arena) (x : Nat) : Prop where
  lt : x < a.size
  old : x < base → given x
  new : base ≤ x → a.isZero x = false

/-- Growth by nodes of gradients over what may be used. -/
structure Making (a b : Arena) : Prop where
  kept : a.Extends b
  kind : ∀ i n, a.size ≤ i → b.node? i = some n → n.kind ∈ Kind.gradients
  operands : ∀ i n, a.size ≤ i → b.node? i = some n → ∀ x ∈ n.operands, b.Usable base given x

/-- A handle refers to a node that was appended, which is a zero leaf or not. -/
def New (a b : Arena) (zero : Bool) (g : Int) : Prop :=
  ∃ i : Nat, g = i ∧ a.size ≤ i ∧ i < b.size ∧ b.isZero i = zero

/-- A handle refers to a node that may be an operand. -/
def UsableAt (a : Arena) (g : Int) : Prop := ∃ x : Nat, g = x ∧ a.Usable base given x

variable {base given} {a b d : Arena} {x y g k : Int} {zero : Bool}

theorem Usable.of_extends {x : Nat} (hx : a.Usable base given x) (hab : a.Extends b) :
    b.Usable base given x where
  lt := Nat.lt_of_lt_of_le hx.lt (Embedding.size_le_of_extends hab)
  old := hx.old
  new hbase := (isZero_of_extends hab hx.lt).trans (hx.new hbase)

theorem UsableAt.of_extends (hx : a.UsableAt base given x) (hab : a.Extends b) :
    b.UsableAt base given x := by
  obtain ⟨y, rfl, hy⟩ := hx
  exact ⟨y, rfl, hy.of_extends hab⟩

theorem New.usable (h : New a b false g) (hbase : base ≤ a.size) : b.UsableAt base given g := by
  obtain ⟨i, rfl, hi, hlt, hzero⟩ := h
  exact ⟨i, rfl, hlt, fun hold => absurd hold (by omega), fun _ => hzero⟩

theorem New.of_extends_left (h : New b d zero g) (hab : a.Extends b) : New a d zero g := by
  obtain ⟨i, rfl, hi, hrest⟩ := h
  exact ⟨i, rfl, (Embedding.size_le_of_extends hab).trans hi, hrest⟩

theorem New.of_extends_right (h : New a b zero g) (hbd : b.Extends d) : New a d zero g := by
  obtain ⟨i, rfl, hi, hlt, hzero⟩ := h
  exact ⟨i, rfl, hi, Nat.lt_of_lt_of_le hlt (Embedding.size_le_of_extends hbd),
    (isZero_of_extends hbd hlt).trans hzero⟩

instance : IsPreorder Arena (Making base given) where
  refl a := by
    refine ⟨Extends.refl a, fun i n hi hn => ?_, fun i n hi hn => ?_⟩
    · exact absurd (lt_size_of_node? hn) (Nat.not_lt_of_le hi)
    · exact absurd (lt_size_of_node? hn) (Nat.not_lt_of_le hi)
  trans a b d hab hbd := by
    have hcases : ∀ i n, d.node? i = some n → i < b.size → b.node? i = some n := by
      intro i n hn hi
      obtain ⟨m, hm⟩ := exists_node? hi
      rw [← hn, hbd.kept i m hm, hm]
    refine ⟨hab.kept.trans hbd.kept, fun i n hi hn => ?_, fun i n hi hn x hx => ?_⟩
    · by_cases hib : i < b.size
      · exact hab.kind i n hi (hcases i n hn hib)
      · exact hbd.kind i n (Nat.le_of_not_lt hib) hn
    · by_cases hib : i < b.size
      · exact (hab.operands i n hi (hcases i n hn hib) x hx).of_extends hbd.kept
      · exact hbd.operands i n (Nat.le_of_not_lt hib) hn x hx

theorem making_push {n : Node} (hkind : n.kind ∈ Kind.gradients)
    (hn : ∀ x ∈ n.operands, a.Usable base given x) : Making base given a (a.push n) := by
  have hlast : ∀ i m, a.size ≤ i → (a.push n).node? i = some m → m = n := by
    intro i m hi hm
    rw [node?_push] at hm
    split at hm
    · exact (Option.some.inj hm).symm
    · exact absurd (lt_size_of_node? hm) (Nat.not_lt_of_le hi)
  refine ⟨extends_push a n, fun i m hi hm => ?_, fun i m hi hm x hx => ?_⟩
  · rw [hlast i m hi hm]
    exact hkind
  · rw [hlast i m hi hm] at hx
    exact (hn x hx).of_extends (extends_push a n)

theorem new_push (a : Arena) (n : Node) : New a (a.push n) (n.kind == .zero) a.size := by
  refine ⟨a.size, rfl, Nat.le_refl _, by simp, ?_⟩
  rw [isZero, at?_ofNat, node?_push_self]
  rfl

/-! ### Operators -/

theorem unary_ok {k : Unary} {x i : Nat} (h : unary k x a = .ok i b) :
    i = a.size ∧ ∃ s, b = a.push ⟨.unary k x, s, none⟩ := by
  cases hx : a.node? x with
  | none =>
    have herror : unary k x a = .error (.absent x) a := by
      simp only [unary, nodeAt, bind, EStateM.bind, at?_ofNat, hx]
    cases herror.symm.trans h
  | some n =>
    cases (unary_run hx).symm.trans h
    exact ⟨rfl, n.shape, rfl⟩

theorem binary_ok {k : Binary} {l r i : Nat} (h : binary k l r a = .ok i b) :
    i = a.size ∧ ∃ s, b = a.push ⟨.binary k l r, s, none⟩ := by
  obtain ⟨m, a₁, hm, hrest⟩ := exists_of_bind_ok h
  obtain ⟨n, a₂, hn, -⟩ := exists_of_bind_ok hrest
  obtain ⟨hl, rfl⟩ := of_nodeAt_ok hm
  obtain ⟨hr, rfl⟩ := of_nodeAt_ok hn
  rw [at?_ofNat] at hl hr
  by_cases hshape : m.shape = n.shape
  · cases (binary_run hl hr hshape).symm.trans h
    exact ⟨rfl, m.shape, rfl⟩
  · obtain ⟨e, herror⟩ := Embedding.binary_mismatch (k := k) hl hr hshape
    cases herror.symm.trans h

/-- Wherever the arena has grown to, what an action builds there is made of what may be used, and so
is its result: a new node, if the action is an operation. -/
def Makes (base : Nat) (given : Nat → Prop) (a : Arena) (operation : Bool) (x : Build Int) : Prop :=
  ∀ b k d, a.Extends b → x b = .ok k d →
    Making base given b d ∧ d.UsableAt base given k ∧ (operation = true → New b d false k)

variable {operation operation' : Bool}

theorem Makes.pure (hg : a.UsableAt base given g) : Makes base given a false (Pure.pure g) := by
  intro b k d hab h
  cases h
  exact ⟨Std.Refl.refl b, hg.of_extends hab, nofun⟩

theorem Makes.bind {x : Build Int} {f : Int → Build Int} (hx : Makes base given a operation x)
    (hf : ∀ y b, a.Extends b → b.UsableAt base given y → Makes base given b operation' (f y)) :
    Makes base given a operation' (x >>= f) := by
  intro b k d hab h
  obtain ⟨y, c, hy, hlast⟩ := exists_of_bind_ok h
  obtain ⟨hbc, hyc, -⟩ := hx b y c hab hy
  obtain ⟨hcd, hk, hnew⟩ := hf y c (hab.trans hbc.kept) hyc c k d (Extends.refl c) hlast
  exact ⟨IsTrans.trans _ _ _ hbc hcd, hk, fun hop => (hnew hop).of_extends_left hbc.kept⟩

/-- An operation appends one node over what may be used. -/
theorem makes_push (hbase : base ≤ a.size) {n : Node} (hkind : n.kind ∈ Kind.gradients)
    (hzero : n.kind ≠ .zero) (hn : ∀ x ∈ n.operands, a.Usable base given x) :
    Making base given a (a.push n) ∧ UsableAt base given (a.push n) a.size ∧
      New a (a.push n) false a.size := by
  have hnew := new_push a n
  rw [beq_eq_false_iff_ne.mpr hzero] at hnew
  exact ⟨making_push hkind hn, hnew.usable hbase, hnew⟩

theorem makes_unary (hbase : base ≤ a.size) {k : Unary} (hk : .unary k ∈ Kind.gradients)
    (hx : a.UsableAt base given x) : Makes base given a true (handle (unary k x)) := by
  intro b g d hab h
  obtain ⟨i, hi, rfl⟩ := handle_ok h
  obtain ⟨x, rfl, hx⟩ := hx
  obtain ⟨rfl, s, rfl⟩ := unary_ok hi
  have hbase' := hbase.trans (Embedding.size_le_of_extends hab)
  obtain ⟨hmaking, husable, hnew⟩ := makes_push hbase' (n := ⟨.unary k x, s, none⟩) hk nofun
    fun y hy => (List.mem_singleton.mp hy).symm ▸ hx.of_extends hab
  exact ⟨hmaking, husable, fun _ => hnew⟩

theorem makes_binary (hbase : base ≤ a.size) {k : Binary} (hx : a.UsableAt base given x)
    (hy : a.UsableAt base given y) : Makes base given a true (handle (binary k x y)) := by
  intro b g d hab h
  obtain ⟨i, hi, rfl⟩ := handle_ok h
  obtain ⟨x, rfl, hx⟩ := hx
  obtain ⟨y, rfl, hy⟩ := hy
  obtain ⟨rfl, s, rfl⟩ := binary_ok hi
  have hbase' := hbase.trans (Embedding.size_le_of_extends hab)
  have hkind : Kind.binary k ∈ Kind.gradients := by cases k <;> decide
  obtain ⟨hmaking, husable, hnew⟩ := makes_push hbase' (n := ⟨.binary k x y, s, none⟩) hkind nofun
    fun z hz => by
      have hz : z = x ∨ z = y := by simpa [Node.operands, Form.operands] using hz
      rcases hz with rfl | rfl
      · exact hx.of_extends hab
      · exact hy.of_extends hab
  exact ⟨hmaking, husable, fun _ => hnew⟩

/-- A quotient is made with the reciprocal. -/
theorem makes_div (hbase : base ≤ a.size) (hx : a.UsableAt base given x)
    (hy : a.UsableAt base given y) : Makes base given a true (handle (div x y)) := by
  have hsteps : Makes base given a true (handle (unary .reciprocal y) >>= fun z =>
      handle (binary .mul x z)) :=
    (makes_unary hbase (by decide) hy).bind fun z b hab hz =>
      makes_binary (hbase.trans (Embedding.size_le_of_extends hab)) (hx.of_extends hab) hz
  intro b g d hab h
  obtain ⟨j, hdiv, rfl⟩ := handle_ok h
  obtain ⟨i, c, hi, hj⟩ := exists_of_bind_ok hdiv
  exact hsteps b j d hab ((bind_of_ok (handle_of_ok hi)).trans (handle_of_ok hj))

/-- A plain recipe over what may be used. -/
theorem makes_carryOut {r : Recipe} (hr : r.isPlain = true) {i : Int} (hbase : base ≤ a.size)
    (hg : a.UsableAt base given g) (hi : a.UsableAt base given i)
    (hx : ∀ x ∈ r.operands, a.Usable base given x) :
    Makes base given a r.isOperation (r.carryOut algebra g i Int.ofNat) := by
  induction r generalizing a with
  | gradient => exact .pure hg
  | node => exact .pure hi
  | operand x => exact .pure ⟨x, rfl, hx x (List.mem_singleton_self x)⟩
  | neg r ih =>
    exact (ih hr hbase hg hi hx).bind fun y b hab hy =>
      makes_unary (hbase.trans (Embedding.size_le_of_extends hab)) (by decide) hy
  | mul r r' ih ih' =>
    rw [Recipe.isPlain, Bool.and_eq_true] at hr
    refine (ih hr.1 hbase hg hi fun x hmem => hx x (List.mem_append_left _ hmem)).bind
      fun y b hab hy => ?_
    have hbase' := hbase.trans (Embedding.size_le_of_extends hab)
    refine (ih' hr.2 hbase' (hg.of_extends hab) (hi.of_extends hab) fun x hmem =>
      (hx x (List.mem_append_right _ hmem)).of_extends hab).bind fun z c hbc hz => ?_
    exact makes_binary (hbase'.trans (Embedding.size_le_of_extends hbc)) (hy.of_extends hbc) hz
  | div r r' ih ih' =>
    rw [Recipe.isPlain, Bool.and_eq_true] at hr
    refine (ih hr.1 hbase hg hi fun x hmem => hx x (List.mem_append_left _ hmem)).bind
      fun y b hab hy => ?_
    have hbase' := hbase.trans (Embedding.size_le_of_extends hab)
    refine (ih' hr.2 hbase' (hg.of_extends hab) (hi.of_extends hab) fun x hmem =>
      (hx x (List.mem_append_right _ hmem)).of_extends hab).bind fun z c hbc hz => ?_
    exact makes_div (hbase'.trans (Embedding.size_le_of_extends hbc)) (hy.of_extends hbc) hz
  | zeroLike r ih => cases hr

theorem zeroLike_ok (h : handle (zeroLike x) a = .ok g b) :
    Making base given a b ∧ New a b true g := by
  obtain ⟨i, hi, rfl⟩ := handle_ok h
  obtain ⟨n, a₁, hn, hzero⟩ := exists_of_bind_ok hi
  obtain ⟨-, rfl⟩ := of_nodeAt_ok hn
  cases (Embedding.leaf_run a₁ .zero n.shape none).symm.trans hzero
  exact ⟨making_push (List.mem_cons_self ..) nofun, new_push a₁ _⟩

/-- What a rule gives to an operand is the gradient or new, and it is a zero leaf exactly when the
node is a step function. -/
theorem rule_ok {form : Form} {rule : Nat × Recipe} (hrule : rule ∈ form.rules) {i : Int}
    (hbase : base ≤ a.size) (hg : a.UsableAt base given g) (hzero : a.isZero g = false)
    (hi : a.UsableAt base given i) (hx : ∀ x ∈ form.operands, a.Usable base given x)
    (h : rule.2.carryOut algebra g i Int.ofNat a = .ok k b) :
    Making base given a b ∧ (k = g ∨ ∃ zero, New a b zero k) ∧
      b.isZero k = (form.kind == .unary .gtz) := by
  rcases Form.rule_cases hrule with ⟨hgtz, hrecipe⟩ | ⟨hgtz, hplain, hcase⟩
  · rw [hrecipe] at h
    obtain ⟨y, c, hy, hlast⟩ := exists_of_bind_ok h
    cases hy
    obtain ⟨hmaking, hnew⟩ := zeroLike_ok hlast
    refine ⟨hmaking, Or.inr ⟨true, hnew⟩, ?_⟩
    obtain ⟨j, rfl, -, -, hj⟩ := hnew
    rw [hj, hgtz, beq_self_eq_true]
  · rw [beq_eq_false_iff_ne.mpr hgtz]
    rcases hcase with hrecipe | hoperation
    · rw [hrecipe] at h
      cases h
      exact ⟨Std.Refl.refl a, Or.inl rfl, hzero⟩
    · obtain ⟨hmaking, -, hnew⟩ := makes_carryOut hplain hbase hg hi
        (fun x hmem => hx x (Form.operands_of_rule hrule x hmem)) a k b (Extends.refl a) h
      refine ⟨hmaking, Or.inr ⟨false, hnew hoperation⟩, ?_⟩
      obtain ⟨j, rfl, -, -, hj⟩ := hnew hoperation
      exact hj

/-! ### Sums -/

/-- A sum of what may be used, no zero leaf among it. -/
theorem foldlM_add_ok {gs : List Int} (hbase : base ≤ a.size) (hg : a.UsableAt base given g)
    (hzero : a.isZero g = false) (hgs : ∀ h ∈ gs, a.UsableAt base given h)
    (h : gs.foldlM (fun x y => handle (binary .add x y)) g a = .ok k b) :
    Making base given a b ∧ b.isZero k = false ∧ (k = g ∨ New a b false k) ∧ (gs = [] → b = a) := by
  induction gs generalizing a g with
  | nil =>
    cases h
    exact ⟨Std.Refl.refl _, hzero, Or.inl rfl, fun _ => rfl⟩
  | cons x gs ih =>
    rw [List.foldlM_cons] at h
    obtain ⟨y, c, hy, hrest⟩ := exists_of_bind_ok h
    have hx := hgs x (List.mem_cons_self ..)
    obtain ⟨hac, hyc, hnew⟩ := makes_binary (k := .add) hbase hg hx _ y c (Extends.refl _) hy
    have hyzero : c.isZero y = false := by
      obtain ⟨j, rfl, -, -, hj⟩ := hnew rfl
      exact hj
    obtain ⟨hcb, hkzero, hcase, -⟩ := ih (hbase.trans (Embedding.size_le_of_extends hac.kept)) hyc
      hyzero (fun z hz => (hgs z (List.mem_cons_of_mem x hz)).of_extends hac.kept) hrest
    refine ⟨IsTrans.trans _ _ _ hac hcb, hkzero, Or.inr ?_, nofun⟩
    rcases hcase with rfl | hlast
    · exact (hnew rfl).of_extends_right hcb.kept
    · exact hlast.of_extends_left hac.kept

/-- A sum is one of the contributions or new, and it is a zero leaf exactly when all of them are.
Of less than two that are none nothing is built. -/
theorem sum_ok {gs : List Int} (hbase : base ≤ a.size)
    (hgs : ∀ h ∈ gs, a.isZero h = false → a.UsableAt base given h) (h : sum gs a = .ok k b) :
    Making base given a b ∧ (k ∈ gs ∨ New a b false k) ∧
      (b.isZero k = false ↔ ∃ h ∈ gs, a.isZero h = false) ∧
      ((gs.filter fun h => !a.isZero h).length ≤ 1 → b = a) := by
  have hsum := accumulate_of_sum_ok h
  simp only [accumulate] at hsum
  cases hfilter : gs.filter fun g => !a.isZero g with
  | cons g rest =>
    rw [hfilter] at hsum
    have hmem : ∀ x ∈ g :: rest, x ∈ gs ∧ a.isZero x = false := fun x hx => by
      have hx := List.mem_filter.mp (hfilter ▸ hx)
      exact ⟨hx.1, by simpa using hx.2⟩
    obtain ⟨hg, hzero⟩ := hmem g (List.mem_cons_self ..)
    have hrest : ∀ x ∈ rest, a.UsableAt base given x := fun x hx => by
      obtain ⟨hx, hxzero⟩ := hmem x (List.mem_cons_of_mem g hx)
      exact hgs x hx hxzero
    obtain ⟨hmaking, hk, hcase, hsame⟩ := foldlM_add_ok hbase (hgs g hg hzero) hzero hrest hsum
    refine ⟨hmaking, ?_, iff_of_true hk ⟨g, hg, hzero⟩, fun hlength => hsame ?_⟩
    · rcases hcase with rfl | hnew
      · exact Or.inl hg
      · exact Or.inr hnew
    · exact List.length_eq_zero_iff.mp (Nat.le_zero.mp (Nat.le_of_succ_le_succ hlength))
  | nil =>
    rw [hfilter] at hsum
    have hall : ∀ x ∈ gs, a.isZero x = true := by
      intro x hx
      have hx := List.filter_eq_nil_iff.mp hfilter x hx
      simpa using hx
    cases gs with
    | nil => cases hsum
    | cons g rest =>
      have hg := hall g (List.mem_cons_self ..)
      cases hsum
      refine ⟨Std.Refl.refl _, Or.inl (List.mem_cons_self ..), iff_of_false ?_ ?_, fun _ => rfl⟩
      · simp [hg]
      · rintro ⟨x, hx, hxzero⟩
        rw [hall x hx] at hxzero
        cases hxzero

/-- What adding to an earlier gradient gives is one of both or new, and it is a zero leaf exactly
when both are. To add a zero leaf nothing is built. -/
theorem addTo_ok {old : Option Int} (hbase : base ≤ a.size)
    (hold : ∀ o, old = some o → a.isZero o = false → a.UsableAt base given o)
    (hg : a.isZero g = false → a.UsableAt base given g) (h : addTo old g a = .ok k b) :
    Making base given a b ∧ (k = g ∨ old = some k ∨ New a b false k) ∧
      (b.isZero k = false ↔ a.isZero g = false ∨ ∃ o, old = some o ∧ a.isZero o = false) ∧
      (a.isZero g = true → b = a) := by
  cases old with
  | none =>
    cases h
    exact ⟨Std.Refl.refl _, Or.inl rfl, by simp, fun _ => rfl⟩
  | some o =>
    have hgs : ∀ x ∈ [o, g], a.isZero x = false → a.UsableAt base given x := by
      intro x hx
      have hx : x = o ∨ x = g := by simpa using hx
      rcases hx with rfl | rfl
      · exact hold x rfl
      · exact hg
    obtain ⟨hmaking, hcase, hzero, hsame⟩ := sum_ok hbase hgs h
    refine ⟨hmaking, ?_, ?_, fun hgzero => hsame ?_⟩
    · rcases hcase with hmem | hnew
      · have hk : k = o ∨ k = g := by simpa using hmem
        rcases hk with rfl | rfl
        · exact Or.inr (Or.inl rfl)
        · exact Or.inl rfl
      · exact Or.inr (Or.inr hnew)
    · rw [hzero]
      simp [or_comm]
    · rw [List.filter_cons, List.filter_cons, hgzero]
      split <;> simp

end Arena

end TensorGraph
