import TensorGraph.Gradient.Rule
import TensorGraph.Proofs.Outcome

/-!
# Growth of arenas

Building appends nodes and changes none, also when it fails. Operands stay before their users, and
where all is built by operators, operands also have the shape of their users.
-/

namespace TensorGraph

theorem Form.eq_leaf_of_kind {form : Form} {k : Leaf} (h : form.kind = .leaf k) :
    form = .leaf k := by
  cases form with
  | leaf l => exact congrArg Form.leaf (Kind.leaf.inj h)
  | unary l x => cases h
  | binary l x y => cases h

namespace Arena

/-- Operands are nodes of the shape of their user. -/
def Uniform (a : Arena) : Prop :=
  ∀ i n, a.node? i = some n → ∀ c ∈ n.operands, ∃ m, a.node? c = some m ∧ m.shape = n.shape

/-- The arena `b` has the nodes of `a` and is well-formed when `a` is. -/
def Grows (a b : Arena) : Prop := a.Extends b ∧ (a.WellFormed → b.WellFormed)

/-- Growth that keeps shapes uniform. -/
def GrowsUniformly (a b : Arena) : Prop := a.Grows b ∧ (a.Uniform → b.Uniform)

instance : IsPreorder Arena Grows where
  refl a := ⟨Extends.refl a, id⟩
  trans _ _ _ hab hbc := ⟨hab.1.trans hbc.1, fun h => hbc.2 (hab.2 h)⟩

instance : IsPreorder Arena GrowsUniformly where
  refl a := ⟨Std.Refl.refl a, id⟩
  trans _ _ _ hab hbc := ⟨IsTrans.trans _ _ _ hab.1 hbc.1, fun h => hbc.2 (hab.2 h)⟩

theorem WellFormed.unary_lt {a : Arena} (h : a.WellFormed) {i x : Nat} {n : Node} {k : Unary}
    (hn : a.node? i = some n) (hk : n.form = .unary k x) : x < i :=
  h i n hn x (by simp [Node.operands, hk, Form.operands])

theorem WellFormed.binary_lt {a : Arena} (h : a.WellFormed) {i l r : Nat} {n : Node} {k : Binary}
    (hn : a.node? i = some n) (hk : n.form = .binary k l r) : l < i ∧ r < i :=
  ⟨h i n hn l (by simp [Node.operands, hk, Form.operands]),
    h i n hn r (by simp [Node.operands, hk, Form.operands])⟩

theorem exists_node? {a : Arena} {i : Nat} (h : i < a.size) : ∃ n, a.node? i = some n :=
  ⟨_, Array.getElem?_eq_getElem h⟩

theorem uniform_empty : empty.Uniform := by
  intro i n h
  simp [empty, node?] at h

theorem grows_push {a : Arena} {n : Node} (hn : ∀ c ∈ n.operands, c < a.size) :
    a.Grows (a.push n) :=
  ⟨extends_push a n, fun h => h.push hn⟩

theorem Uniform.push {a : Arena} (h : a.Uniform) {n : Node}
    (hn : ∀ c ∈ n.operands, ∃ m, a.node? c = some m ∧ m.shape = n.shape) : (a.push n).Uniform := by
  have hold := extends_push a n
  intro i k hk c hc
  rw [node?_push] at hk
  split at hk
  · cases hk
    obtain ⟨m, hm, hshape⟩ := hn c hc
    exact ⟨m, hold c m hm, hshape⟩
  · obtain ⟨m, hm, hshape⟩ := h i k hk c hc
    exact ⟨m, hold c m hm, hshape⟩

theorem growsUniformly_push {a : Arena} {n : Node}
    (hn : ∀ c ∈ n.operands, ∃ m, a.node? c = some m ∧ m.shape = n.shape) :
    a.GrowsUniformly (a.push n) := by
  refine ⟨grows_push fun c hc => ?_, fun h => h.push hn⟩
  obtain ⟨m, hm, _⟩ := hn c hc
  exact lt_size_of_node? hm

/-! ### Building -/

/-- What an accepted node is made of. -/
theorem newNode_ok {a : Arena} {kind : Kind} {operands : List Int} {shape : Value}
    {name : Option String} {n : Node} (h : a.newNode kind operands shape name = .ok n) :
    n.kind = kind ∧ n.operands.map Int.ofNat = operands ∧ Shape.ofValue shape = .ok n.shape := by
  unfold newNode at h
  split at h
  · cases h
  · rename_i form hform
    split at h
    · cases h
    · rename_i hall
      cases hs : Shape.ofValue shape with
      | error e => simp [hs, Except.map] at h
      | ok s =>
        simp only [hs, Except.map, Except.ok.injEq] at h
        subst h
        obtain ⟨hkind, hops⟩ := Form.of?_eq_some_iff.mp hform
        refine ⟨hkind, ?_, rfl⟩
        change form.operands.map Int.ofNat = operands
        rw [hops, List.map_map]
        have hid : ∀ x ∈ operands, (Int.ofNat ∘ Int.toNat) x = x := by
          intro x hx
          have := List.find?_eq_none.mp hall x hx
          simp only [Bool.not_eq_true', Bool.and_eq_false_iff, decide_eq_false_iff_not,
            not_or, Decidable.not_not] at this
          simp only [Function.comp_apply, Int.ofNat_eq_natCast]
          omega
        rw [List.map_congr_left hid, List.map_id']

/-- A node is appended when it is accepted. -/
theorem add_cases (kind : Kind) (operands : List Int) (shape : Value) (name : Option String)
    (a : Arena) :
    (∃ e, add kind operands shape name a = .error e a) ∨
      ∃ n, a.newNode kind operands shape name = .ok n ∧
        add kind operands shape name a = .ok a.size (a.push n) := by
  simp only [add]
  cases a.newNode kind operands shape name with
  | error e => exact Or.inl ⟨e, rfl⟩
  | ok n => exact Or.inr ⟨n, rfl, rfl⟩

theorem add_keeps (kind : Kind) (operands : List Int) (shape : Value) (name : Option String) :
    Keeps Grows (add kind operands shape name) := by
  intro a
  rcases add_cases kind operands shape name a with ⟨e, h⟩ | ⟨n, hn, h⟩
  · rw [h]
    exact Std.Refl.refl a
  · rw [h]
    exact grows_push (operands_lt_of_newNode hn)

/-- A node whose operands have its shape may be added. -/
theorem add_growsUniformly {a : Arena} {kind : Kind} {operands : List Int} {s : Shape}
    {name : Option String}
    (hs : ∀ x ∈ operands, ∀ m, a.at? x = some m → m.shape = s) :
    a.GrowsUniformly (stateAfter (add kind operands (.shape s) name a)) := by
  rcases add_cases kind operands (.shape s) name a with ⟨e, h⟩ | ⟨n, hn, h⟩
  · rw [h]
    exact Std.Refl.refl a
  · rw [h]
    obtain ⟨_, hops, hshape⟩ := newNode_ok hn
    apply growsUniformly_push
    intro c hc
    have hlt := operands_lt_of_newNode hn c hc
    have hmem : (c : Int) ∈ operands := hops ▸ List.mem_map_of_mem hc
    have hnode : a.node? c = some a.nodes[c] := Array.getElem?_eq_getElem hlt
    refine ⟨_, hnode, ?_⟩
    rw [hs c hmem _ (by rw [at?_ofNat, hnode])]
    exact Except.ok.inj (hshape ▸ Shape.ofValue_shape s).symm

theorem nodeAt_keeps (i : Int) : Keeps GrowsUniformly (nodeAt i) := by
  intro a
  simp only [nodeAt]
  cases a.at? i with
  | none => exact Std.Refl.refl a
  | some n => exact Std.Refl.refl a

theorem leaf_keeps (k : Leaf) (shape : Value) (name : Option String) :
    Keeps GrowsUniformly (add (.leaf k) [] shape name) := by
  intro a
  rcases add_cases (.leaf k) [] shape name a with ⟨e, h⟩ | ⟨n, hn, h⟩
  · rw [h]
    exact Std.Refl.refl a
  · rw [h]
    have hops : n.operands = [] := List.map_eq_nil_iff.mp (newNode_ok hn).2.1
    exact growsUniformly_push (by simp [hops])

theorem unary_keeps (k : Unary) (x : Int) : Keeps GrowsUniformly (unary k x) := by
  intro a
  unfold unary nodeAt
  cases hx : a.at? x with
  | none =>
    simp only [bind, EStateM.bind, hx]
    exact Std.Refl.refl a
  | some m =>
    simp only [bind, EStateM.bind, hx]
    apply add_growsUniformly
    intro y hy n hn
    rw [List.mem_singleton.mp hy, hx] at hn
    cases hn
    rfl

theorem binary_keeps (k : Binary) (l r : Int) : Keeps GrowsUniformly (binary k l r) := by
  intro a
  unfold binary nodeAt
  cases hl : a.at? l with
  | none =>
    simp only [bind, EStateM.bind, hl]
    exact Std.Refl.refl a
  | some m =>
    cases hr : a.at? r with
    | none =>
      simp only [bind, EStateM.bind, hl, hr]
      exact Std.Refl.refl a
    | some n =>
      simp only [bind, EStateM.bind, hl, hr]
      by_cases hshape : m.shape = n.shape
      · rw [if_neg (not_not_intro hshape)]
        apply add_growsUniformly
        intro y hy o ho
        have hy : y = l ∨ y = r := by simpa using hy
        rcases hy with rfl | rfl
        · rw [hl] at ho
          cases ho
          rfl
        · rw [hr] at ho
          cases ho
          exact hshape.symm
      · rw [if_pos hshape]
        exact Std.Refl.refl a

theorem sub_keeps (l r : Int) : Keeps GrowsUniformly (sub l r) :=
  Keeps.bind (unary_keeps .neg r) fun _ => binary_keeps .add l _

theorem div_keeps (l r : Int) : Keeps GrowsUniformly (div l r) :=
  Keeps.bind (unary_keeps .reciprocal r) fun _ => binary_keeps .mul l _

theorem zeroLike_keeps (x : Int) : Keeps GrowsUniformly (zeroLike x) :=
  Keeps.bind (nodeAt_keeps x) fun _ => leaf_keeps .zero _ none

theorem handle_keeps {R : Arena → Arena → Prop} {x : Build Nat} (h : Keeps R x) :
    Keeps R (handle x) := by
  intro a
  have ha := h a
  simp only [handle]
  cases hx : x a with
  | ok i b =>
    rw [hx] at ha
    exact ha
  | error e b =>
    rw [hx] at ha
    exact ha

theorem carryOut_keeps (gradient node : Int) (operand : Nat → Int) (r : Recipe) :
    Keeps GrowsUniformly (r.carryOut algebra gradient node operand) := by
  induction r with
  | gradient => exact Keeps.pure _
  | node => exact Keeps.pure _
  | operand x => exact Keeps.pure _
  | neg r ih => exact Keeps.bind ih fun x => handle_keeps (unary_keeps .neg x)
  | mul r s ihr ihs =>
    exact Keeps.bind ihr fun x => Keeps.bind ihs fun y => handle_keeps (binary_keeps .mul x y)
  | div r s ihr ihs =>
    exact Keeps.bind ihr fun x => Keeps.bind ihs fun y => handle_keeps (div_keeps x y)
  | zeroLike r ih => exact Keeps.bind ih fun x => handle_keeps (zeroLike_keeps x)

theorem accumulate_keeps {σ : Type} {R : σ → σ → Prop} [IsPreorder σ R] {α : Type}
    {isZero : α → Bool} {add : α → α → EStateM Error σ α} (hadd : ∀ x y, Keeps R (add x y))
    (xs : List α) : Keeps R (accumulate isZero add xs) := by
  simp only [accumulate]
  split
  · exact Keeps.foldlM _ _ fun x y _ => hadd x y
  · split
    · exact Keeps.throw _
    · exact Keeps.pure _

theorem sum_keeps (gs : List Int) : Keeps GrowsUniformly (sum gs) := by
  refine Keeps.bind (Keeps.forM gs fun g _ => ?_) fun _ a => ?_
  · exact Keeps.bind (nodeAt_keeps g) fun _ => Keeps.pure _
  · exact accumulate_keeps (fun x y => handle_keeps (binary_keeps .add x y)) gs a

end Arena

end TensorGraph
