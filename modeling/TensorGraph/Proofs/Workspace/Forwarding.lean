import TensorGraph.Proofs.Graph.Growth
import TensorGraph.Proofs.Workspace.Networks
import TensorGraph.Workspace.Calling

/-!
# Applying networks

A network that is applied to an expression goes through its layers and builds an expression. That
depends on the parameters on which the input depends, on those of the network, and on no others.
-/

namespace TensorGraph

namespace Arena

/-- A node is computed from a parameter. -/
def DependsOn (a : Arena) (i p : Nat) : Prop := Reaches a.operands i p ∧ a.isParam p = true

variable {a b : Arena} {i p q : Nat}

theorem dependsOn_of_extends (ha : a.WellFormed) (hab : a.Extends b) (hi : i < a.size) :
    b.DependsOn i p ↔ a.DependsOn i p := by
  rw [DependsOn, DependsOn, reaches_of_extends ha hab hi]
  refine and_congr_right fun hr => ?_
  have hp := Nat.lt_of_le_of_lt (hr.le fun _ _ hc => ha.operand_lt hc) hi
  rw [isParam_of_extends hab hp]

theorem dependsOn_iff_of_isParam (hp : a.isParam p = true) : a.DependsOn p q ↔ q = p := by
  obtain ⟨n, hn, hkind⟩ := exists_of_isParam hp
  rw [DependsOn, reaches_iff, operands_of_param hn hkind]
  constructor
  · rintro ⟨rfl | ⟨c, hc, -⟩, -⟩
    · rfl
    · cases hc
  · rintro rfl
    exact ⟨.inl rfl, hp⟩

/-- A new operation depends on what its operands depend on. -/
theorem dependsOn_push (ha : a.WellFormed) {n : Node} (hops : ∀ c ∈ n.operands, c < a.size)
    (hkind : n.kind ≠ .param) :
    (a.push n).DependsOn a.size p ↔ ∃ c ∈ n.operands, a.DependsOn c p := by
  have hnode : (a.push n).node? a.size = some n := by rw [node?_push, if_pos rfl]
  rw [DependsOn, reaches_iff, operands_of_node? hnode]
  constructor
  · rintro ⟨rfl | ⟨c, hc, hr⟩, hp⟩
    · exact absurd ((isParam_ofNat hnode).mp hp) hkind
    · exact ⟨c, hc, (dependsOn_of_extends ha (extends_push a n) (hops c hc)).mp ⟨hr, hp⟩⟩
  · rintro ⟨c, hc, hdepends⟩
    obtain ⟨hr, hp⟩ := (dependsOn_of_extends ha (extends_push a n) (hops c hc)).mpr hdepends
    exact ⟨.inr ⟨c, hc, hr⟩, hp⟩

end Arena

namespace Workspace

/-- Only objects and nodes of an arena were added. -/
structure GoesOn (k : ArenaId) (w w' : Workspace) : Prop where
  same : w' = { w with arenas := w'.arenas, heap := w'.heap }
  heap : ∀ a o, w.heap.get? a = some o → w'.heap.get? a = some o
  arena : (w.arena k).GrowsUniformly (w'.arena k)

instance (k : ArenaId) : IsPreorder Workspace (GoesOn k) where
  refl w := ⟨rfl, fun _ _ ho => ho, Std.Refl.refl _⟩
  trans u v w huv hvw := by
    refine ⟨?_, fun a o ho => hvw.heap a o (huv.heap a o ho),
      IsTrans.trans _ _ _ huv.arena hvw.arena⟩
    rw [hvw.same, huv.same]

/-- A new object. -/
theorem goesOn_alloc (k : ArenaId) (w : Workspace) (o : Object) :
    w.GoesOn k { w with heap := (w.heap.alloc o).2 } := by
  refine ⟨rfl, fun a o' ho => ?_, Std.Refl.refl _⟩
  have hlt : a < w.heap.size := (Array.getElem?_eq_some_iff.mp ho).1
  exact (Heap.get?_alloc ..).trans ((if_neg (Nat.ne_of_lt hlt)).trans ho)

/-- An object is a handle of a node of a shape, which depends on certain parameters. -/
def Depends (w : Workspace) (k : ArenaId) (s : Shape) (a : Address) (P : Nat → Prop) : Prop :=
  ∃ i, w.RefersTo k s a i ∧ ∀ p, (w.arena k).DependsOn i p ↔ P p

variable {w w' : Workspace} {k : ArenaId} {s : Shape} {a : Address} {P Q : Nat → Prop}

namespace GoesOn

variable (h : w.GoesOn k w')

include h

theorem wellFormed (hw : (w.arena k).WellFormed) : (w'.arena k).WellFormed := h.arena.1.2 hw

theorem isLayer {l : Layer} {items : Attributes} (ha : w.heap.IsLayer a l items) :
    w'.heap.IsLayer a l items := by
  obtain ⟨attrs, ho, hattrs⟩ := ha
  exact ⟨attrs, h.heap _ _ ho, h.heap _ _ hattrs⟩

theorem refersTo {i : Nat} (ha : w.RefersTo k s a i) : w'.RefersTo k s a i := by
  obtain ⟨ho, n, hn, hs⟩ := ha
  exact ⟨h.heap _ _ ho, n, h.arena.1.1 i n hn, hs⟩

theorem isParam (ha : w.IsParam k s a) : w'.IsParam k s a := by
  obtain ⟨p, hrefers, hp⟩ := ha
  refine ⟨p, h.refersTo hrefers, ?_⟩
  rw [Arena.isParam_of_extends h.arena.1.1 hrefers.lt_size]
  exact hp

/-- A network stays one. -/
theorem isNetwork (ha : w.IsNetwork k s a) : w'.IsNetwork k s a := by
  induction ha with
  | relu hfunction hbare => exact .relu (h.heap _ _ hfunction) (h.heap _ _ hbare)
  | affine hlayer hweight hbias =>
    refine .affine (h.isLayer hlayer) (h.isParam hweight) ?_
    rcases hbias with hnone | hparam
    · exact .inl (h.heap _ _ hnone)
    · exact .inr (h.isParam hparam)
  | sequential hlayer hlist _ ih => exact .sequential (h.isLayer hlayer) (h.heap _ _ hlist) ih

/-- A network keeps its parameters. -/
theorem holdsParameter_iff (ha : w.IsNetwork k s a) (e : Expr) :
    w'.HoldsParameter a e ↔ w.HoldsParameter a e := by
  have hparam : ∀ {b}, w.IsParam k s b → (w'.HoldsParameter b e ↔ w.HoldsParameter b e) := by
    rintro b ⟨p, hrefers, hp⟩
    obtain ⟨q, hrefers', hq⟩ := h.isParam ⟨p, hrefers, hp⟩
    rw [holdsParameter_iff_of_isParam hrefers hp, holdsParameter_iff_of_isParam hrefers' hq]
    have ho := h.heap _ _ hrefers.1
    rw [hrefers'.1] at ho
    cases ho
    rfl
  induction ha with
  | relu hfunction hbare =>
    exact iff_of_false (not_holdsParameter_relu (h.heap _ _ hfunction) (h.heap _ _ hbare) e)
      (not_holdsParameter_relu hfunction hbare e)
  | affine hlayer hweight hbias =>
    rw [holdsParameter_affine hlayer, holdsParameter_affine (h.isLayer hlayer), hparam hweight]
    refine or_congr_right ?_
    rcases hbias with hnone | hbias
    · exact iff_of_false (not_holdsParameter_of_value (h.heap _ _ hnone) e)
        (not_holdsParameter_of_value hnone e)
    · exact hparam hbias
  | sequential hlayer hlist _ ih =>
    rw [holdsParameter_sequential hlayer hlist,
      holdsParameter_sequential (h.isLayer hlayer) (h.heap _ _ hlist)]
    exact exists_congr fun b => and_congr_right fun hb => ih b hb

theorem depends (hw : (w.arena k).WellFormed) (ha : w.Depends k s a P) : w'.Depends k s a P := by
  obtain ⟨i, hrefers, hP⟩ := ha
  refine ⟨i, h.refersTo hrefers, fun p => ?_⟩
  rw [Arena.dependsOn_of_extends hw h.arena.1.1 hrefers.lt_size]
  exact hP p

end GoesOn

theorem Depends.congr (h : w.Depends k s a P) (hPQ : ∀ p, P p ↔ Q p) : w.Depends k s a Q := by
  obtain ⟨i, hrefers, hP⟩ := h
  exact ⟨i, hrefers, fun p => (hP p).trans (hPQ p)⟩

/-- A parameter depends on itself. -/
theorem IsParam.depends (h : w.IsParam k s a) :
    w.Depends k s a fun p => w.HoldsParameter a ⟨k, p⟩ := by
  obtain ⟨i, hrefers, hp⟩ := h
  refine ⟨i, hrefers, fun p => ?_⟩
  have hholds := holdsParameter_iff_of_isParam hrefers hp ⟨k, p⟩
  refine (Arena.dependsOn_iff_of_isParam hp).trans (Iff.trans ?_ hholds.symm)
  simp

/-! ### Operations -/

/-- What an arena builds becomes a handle. -/
theorem hold_building {x : Build Nat} {i : Nat} {b : Arena} (hk : k < w.arenas.size)
    (hx : x (w.arena k) = .ok i b) :
    ∃ w', (do hold (← Workspace.building k x) : Work Address) w = .ok w.heap.size w' ∧
      w' = { w with arenas := w'.arenas, heap := w'.heap } ∧ w'.arena k = b ∧
      w'.heap = (w.heap.alloc (.expr ⟨k, i⟩)).2 := by
  have ha : w.arenas[k]? = some (w.arena k) := by
    rw [arena, Array.getD_eq_getD_getElem?, Array.getElem?_eq_getElem hk, Option.getD_some]
  have hin : inArena k x w = .ok i { w with arenas := w.arenas.setIfInBounds k b } := by
    simp only [inArena, ha, hx, Array.setIfInBounds_setIfInBounds]
  have hbuilding : Workspace.building k x w =
      .ok ⟨k, i⟩ { w with arenas := w.arenas.setIfInBounds k b } := bind_of_ok hin
  refine ⟨_, (bind_of_ok hbuilding).trans (hold_eq ..), rfl, ?_, rfl⟩
  exact (getD_setIfInBounds ..).trans (if_pos ⟨rfl, hk⟩)

/-- A new node whose operands have its shape, as a handle. -/
theorem hold_node {x : Build Nat} {n : Node}
    (hx : x (w.arena k) = .ok (w.arena k).size ((w.arena k).push n))
    (hn : ∀ c ∈ n.operands, ∃ m, (w.arena k).node? c = some m ∧ m.shape = n.shape)
    (hk : k < w.arenas.size) :
    ∃ w', (do hold (← Workspace.building k x) : Work Address) w = .ok w.heap.size w' ∧
      w.GoesOn k w' ∧ w'.arena k = (w.arena k).push n ∧
      w'.RefersTo k n.shape w.heap.size (w.arena k).size := by
  obtain ⟨w', hok, hsame, harena, hheap⟩ := hold_building hk hx
  refine ⟨w', hok, ⟨hsame, fun a o ho => ?_, ?_⟩, harena, ?_, n, ?_, rfl⟩
  · rw [hheap]
    exact (goesOn_alloc k w _).heap a o ho
  · rw [harena]
    exact Arena.growsUniformly_push hn
  · rw [hheap, Heap.get?_alloc, if_pos rfl]
  · rw [harena, Arena.node?_push, if_pos rfl]

/-- A new operation depends on what its operands depend on. -/
theorem hold_operation (hw : (w.arena k).WellFormed) {x : Build Nat} {n : Node}
    (hx : x (w.arena k) = .ok (w.arena k).size ((w.arena k).push n))
    (hn : ∀ c ∈ n.operands, ∃ m, (w.arena k).node? c = some m ∧ m.shape = n.shape)
    (hk : k < w.arenas.size) (hkind : n.kind ≠ .param) :
    ∃ w', (do hold (← Workspace.building k x) : Work Address) w = .ok w.heap.size w' ∧
      w.GoesOn k w' ∧ w'.Depends k n.shape w.heap.size fun p =>
        ∃ c ∈ n.operands, (w.arena k).DependsOn c p := by
  obtain ⟨w', hok, hgoes, harena, hrefers⟩ := hold_node hx hn hk
  refine ⟨w', hok, hgoes, _, hrefers, fun p => ?_⟩
  rw [harena]
  refine Arena.dependsOn_push hw (fun c hc => ?_) hkind
  obtain ⟨m, hm, -⟩ := hn c hc
  exact Arena.lt_size_of_node? hm

theorem isHandle_of_expr {e : Expr} (ha : w.heap.get? a = some (.expr e)) :
    isHandle a w = .ok true w := by
  simp only [isHandle, ha]

/-- A function of an expression depends on what the expression depends on. -/
theorem unaryHandle_ok (call : Caller) (u : Unary) (hw : (w.arena k).WellFormed)
    (ha : w.Depends k s a P) : ∃ y w', unaryHandle call u a w = .ok y w' ∧
      w.GoesOn k w' ∧ w'.Depends k s y P := by
  obtain ⟨i, ⟨ho, n, hn, rfl⟩, hP⟩ := ha
  obtain ⟨w', hok, hgoes, hdepends⟩ := hold_operation hw (Arena.unary_run (k := u) hn)
    (by simpa [Node.operands, Form.operands] using ⟨n, hn, rfl⟩) (arena_lt_of_node? hn)
    (by simp [Node.kind, Form.kind])
  refine ⟨_, w', ?_, hgoes, hdepends.congr fun p => ?_⟩
  · simp only [unaryHandle, object, Bind.bind, EStateM.bind, ho]
    exact hok
  · simpa [Node.operands, Form.operands] using hP p

/-- A sum or product of expressions depends on what either depends on. -/
theorem combine_ok (call : Caller) {op : Operator} (hop : op = .add ∨ op = .mul)
    (hw : (w.arena k).WellFormed) {l r : Address} (hl : w.Depends k s l P)
    (hr : w.Depends k s r Q) : ∃ y w', combine call op l r w = .ok y w' ∧
      w.GoesOn k w' ∧ w'.Depends k s y fun p => P p ∨ Q p := by
  obtain ⟨i, ⟨ho, m, hm, rfl⟩, hP⟩ := hl
  obtain ⟨j, ⟨ho', n, hn, hshape⟩, hQ⟩ := hr
  have hnew : ∀ b : Binary, ∃ w', (do
        hold (← Workspace.building k (Arena.binary b i j)) : Work Address) w =
          .ok w.heap.size w' ∧
      w.GoesOn k w' ∧ w'.Depends k m.shape w.heap.size fun p => P p ∨ Q p := by
    intro b
    obtain ⟨w', hok, hgoes, hdepends⟩ := hold_operation hw
      (Arena.binary_run (k := b) hm hn hshape.symm)
      (by simpa [Node.operands, Form.operands] using ⟨⟨m, hm, rfl⟩, n, hn, hshape⟩)
      (arena_lt_of_node? hm) (by simp [Node.kind, Form.kind])
    refine ⟨w', hok, hgoes, hdepends.congr fun p => ?_⟩
    simp [Node.operands, Form.operands, hP, hQ]
  have hhandle : combine call op l r w = binaryHandle call op l r w :=
    bind_of_ok (isHandle_of_expr ho)
  rw [hhandle, binaryHandle_expr ho ho']
  simp only [Workspace.binary, rightOperand, if_pos, pure_bind]
  rcases hop with rfl | rfl
  · obtain ⟨w', hok, hgoes, hdepends⟩ := hnew .add
    exact ⟨_, w', hok, hgoes, hdepends⟩
  · obtain ⟨w', hok, hgoes, hdepends⟩ := hnew .mul
    exact ⟨_, w', hok, hgoes, hdepends⟩

/-! ### Layers -/

theorem madeClassOf?_layer {l : Layer} {items : Attributes} (ha : w.heap.IsLayer a l items) :
    w.heap.madeClassOf? a = none := by
  obtain ⟨attrs, ho, -⟩ := ha
  simp only [Heap.madeClassOf?, ho]

/-- A layer has what classes of layers look up. -/
theorem getAttribute_layer (call : Caller) {l : Layer} {items : Attributes}
    (ha : w.heap.IsLayer a l items) {name : String} {b : Address} (hb : items.get? name = some b)
    (hname : name = "weight" ∨ name = "bias" ∨ name = "layers") :
    getAttribute call a name w = .ok b w := by
  have hclass := madeClassOf?_layer ha
  have hown := ha.ownAttribute? name
  rw [hb] at hown
  obtain ⟨attrs, ho, -⟩ := ha
  have hhandle : w.heap.handle? a = none := by simp only [Heap.handle?, ho]
  have hfixed : fixedPart? a name w = .ok none w := by
    simp only [fixedPart?, object, Bind.bind, EStateM.bind, ho]
    rcases hname with rfl | rfl | rfl
    · rfl
    · rfl
    · rfl
  simp only [getAttribute, attributeOf, naturalAttribute, partOf, asking, object, Bind.bind,
    EStateM.bind, hhandle, hclass, ho, hfixed, hown]
  rfl

/-- A layer that has no rule of its own does what its class says. -/
theorem callWithin_layer {depth : Nat} {l : Layer} {items : Attributes}
    (ha : w.heap.IsLayer a l items) (hrule : items.get? "forward" = none) (x : Address) :
    callWithin (depth + 1) a [x] w = applyBody (callWithin depth) l a x w := by
  obtain ⟨attrs, ho, hattrs⟩ := ha
  have hentries : (w.heap.entries attrs).get? (.text "forward") = none := by
    simp only [Heap.entries, hattrs, Heap.get?_ofAttributes, hrule]
  simp only [callWithin, callLayer, applyLayer, object, asking, Bind.bind, EStateM.bind, ho,
    hentries]

/-- An affine layer depends on its input, its weight and its bias. -/
theorem affine_ok (call : Caller) (hw : (w.arena k).WellFormed) {weight bias x : Address}
    (hlayer : w.heap.IsLayer a .affine [("weight", weight), ("bias", bias)])
    (hweight : w.IsParam k s weight)
    (hbias : w.heap.get? bias = some (.value .none) ∨ w.IsParam k s bias)
    (hx : w.Depends k s x P) : ∃ y w', affine call a x w = .ok y w' ∧ w.GoesOn k w' ∧
      w'.Depends k s y fun p => P p ∨ w.HoldsParameter a ⟨k, p⟩ := by
  have hholds := holdsParameter_affine hlayer
  have hgetWeight : getAttribute call a "weight" w = .ok weight w :=
    getAttribute_layer call hlayer rfl (by simp)
  obtain ⟨y, w₁, hmul, hgoes, hy⟩ := combine_ok call (.inr rfl) hw hx hweight.depends
  have hgetBias : getAttribute call a "bias" w₁ = .ok bias w₁ :=
    getAttribute_layer call (hgoes.isLayer hlayer) rfl (by simp)
  simp only [affine]
  rcases hbias with hnone | hparam
  · have hasking : asking (fun h => h.isNone bias) w₁ = .ok true w₁ := by
      simp only [asking, Heap.isNone, hgoes.heap _ _ hnone]
    refine ⟨y, w₁, (bind_of_ok hgetWeight).trans ((bind_of_ok hmul).trans
      ((bind_of_ok hgetBias).trans (bind_of_ok hasking))), hgoes, hy.congr fun p => ?_⟩
    rw [hholds, or_iff_left (not_holdsParameter_of_value hnone _)]
  · have hdepends := hgoes.depends hw hparam.depends
    have hasking : asking (fun h => h.isNone bias) w₁ = .ok false w₁ := by
      obtain ⟨q, ⟨ho, -⟩, -⟩ := hgoes.isParam hparam
      simp only [asking, Heap.isNone, ho]
    obtain ⟨z, w₂, hadd, hgoes', hz⟩ := combine_ok call (.inl rfl) (hgoes.wellFormed hw) hy hdepends
    refine ⟨z, w₂, (bind_of_ok hgetWeight).trans ((bind_of_ok hmul).trans
      ((bind_of_ok hgetBias).trans ((bind_of_ok hasking).trans hadd))),
      IsTrans.trans _ _ _ hgoes hgoes', hz.congr fun p => ?_⟩
    rw [hholds, or_assoc]

/-- The function relu depends on its input. -/
theorem evaluateBody_relu (call : Caller) (hw : (w.arena k).WellFormed) {x : Address}
    (hx : w.Depends k s x P) : ∃ y w', evaluateBody call (scope x []) .relu w = .ok y w' ∧
      w.GoesOn k w' ∧ w'.Depends k s y P := by
  have hscope : scope x [] "x" w = .ok x w := rfl
  have happly : apply call (.node .gtz) x w = unaryHandle call .gtz x w := by
    obtain ⟨i, ⟨ho, -⟩, -⟩ := hx
    exact bind_of_ok (isHandle_of_expr ho)
  obtain ⟨step, w₁, hstep, hgoes, hdepends⟩ := unaryHandle_ok call .gtz hw hx
  obtain ⟨y, w₂, hmul, hgoes', hy⟩ :=
    combine_ok call (.inr rfl) (hgoes.wellFormed hw) (hgoes.depends hw hx) hdepends
  refine ⟨y, w₂, ?_, IsTrans.trans _ _ _ hgoes hgoes', hy.congr fun p => or_self_iff⟩
  simp only [Body.relu, evaluateBody]
  exact (bind_of_ok hscope).trans ((bind_of_ok ((bind_of_ok hscope).trans
    (happly.trans hstep))).trans hmul)

/-! ### Networks -/

/-- A network that a caller applies to expressions: the result depends on the input and on the
parameters of the network. -/
def Applies (w₀ : Workspace) (k : ArenaId) (s : Shape) (call : Caller) (a : Address) : Prop :=
  ∀ (w : Workspace) (x : Address) (P : Nat → Prop), w₀.GoesOn k w → w.Depends k s x P →
    ∃ y w', call a [x] w = .ok y w' ∧ w.GoesOn k w' ∧
      w'.Depends k s y fun p => P p ∨ w₀.HoldsParameter a ⟨k, p⟩

variable {w₀ : Workspace}

/-- A network is not asked for its class. -/
theorem askClass_network (call : Caller) (ha : w.IsNetwork k s a) :
    askClass call a w = .ok () w := by
  have hclass : w.heap.madeClassOf? a = none := by
    cases ha with
    | relu hfunction _ => simp only [Heap.madeClassOf?, hfunction]
    | affine hlayer _ _ | sequential hlayer _ _ => exact madeClassOf?_layer hlayer
  simp only [askClass, asking, Bind.bind, EStateM.bind, hclass]
  rfl

/-- Layers are applied one after the other. -/
theorem foldlM_forward_ok {call : Caller} {layers : List Address}
    (hlayers : ∀ b ∈ layers, w₀.IsNetwork k s b ∧ w₀.Applies k s call b) {x : Address}
    (hw₀ : w₀.GoesOn k w) (hw : (w.arena k).WellFormed) (hx : w.Depends k s x P) :
    ∃ y w', (layers.foldlM (fun x f => forward call f x) x : Work Address) w = .ok y w' ∧
      w.GoesOn k w' ∧
      w'.Depends k s y fun p => P p ∨ ∃ b ∈ layers, w₀.HoldsParameter b ⟨k, p⟩ := by
  induction layers generalizing w x P with
  | nil => exact ⟨x, w, rfl, Std.Refl.refl w, hx.congr fun p => by simp⟩
  | cons b layers ih =>
    obtain ⟨hnetwork, happlies⟩ := hlayers b (List.mem_cons_self ..)
    have hask := askClass_network call (hw₀.isNetwork hnetwork)
    obtain ⟨y, w₁, hcall, hgoes, hy⟩ := happlies w x P hw₀ hx
    obtain ⟨z, w₂, hrest, hgoes', hz⟩ :=
      ih (fun c hc => hlayers c (List.mem_cons_of_mem b hc)) (IsTrans.trans _ _ _ hw₀ hgoes)
        (hgoes.wellFormed hw) hy
    refine ⟨z, w₂, ?_, IsTrans.trans _ _ _ hgoes hgoes', hz.congr fun p => ?_⟩
    · rw [List.foldlM_cons]
      exact (bind_of_ok ((bind_of_ok hask).trans hcall)).trans hrest
    · simp [or_assoc]

/-- A sequence depends on its input and on the parameters of its layers. -/
theorem sequential_ok {call : Caller} {layers x : Address} {items : List Address}
    (hlayer : w₀.heap.IsLayer a .sequential [("layers", layers)])
    (hlist : w₀.heap.get? layers = some (.list items))
    (hitems : ∀ b ∈ items, w₀.IsNetwork k s b ∧ w₀.Applies k s call b)
    (hw₀ : w₀.GoesOn k w) (hw : (w.arena k).WellFormed) (hx : w.Depends k s x P) :
    ∃ y w', sequential call a x w = .ok y w' ∧ w.GoesOn k w' ∧
      w'.Depends k s y fun p => P p ∨ w₀.HoldsParameter a ⟨k, p⟩ := by
  have hget : getAttribute call a "layers" w = .ok layers w :=
    getAttribute_layer call (hw₀.isLayer hlayer) rfl (by simp)
  have hrow := hw₀.heap _ _ hlist
  have hsource : Source.of call layers w = .ok (.items items) w := by
    simp only [Source.of, asking, Bind.bind, EStateM.bind, Heap.inClass?, Heap.madeClassOf?, hrow,
      Option.bind_none, Functor.map, EStateM.map, onHeap, Heap.iterate]
  obtain ⟨y, w', hfold, hgoes, hy⟩ := foldlM_forward_ok hitems hw₀ hw hx
  refine ⟨y, w', (bind_of_ok hget).trans ((bind_of_ok hsource).trans hfold), hgoes,
    hy.congr fun p => ?_⟩
  rw [holdsParameter_sequential hlayer hlist]

/-- A network is applied by a caller that may go as deep as it has layers. -/
theorem callWithin_applies (hw₀ : (w₀.arena k).WellFormed) (ha : w₀.IsNetwork k s a)
    {depth : Nat} (hdepth : (w₀.layersBelow a).ncard ≤ depth) :
    w₀.Applies k s (callWithin (depth + 1)) a := by
  induction ha generalizing depth with
  | relu hfunction hbare =>
    intro w x P hgoes hx
    obtain ⟨y, w', hbody, hgoes', hy⟩ :=
      evaluateBody_relu (callWithin depth) (hgoes.wellFormed hw₀) hx
    refine ⟨y, w', ?_, hgoes', hy.congr fun p => ?_⟩
    · have ho := hgoes.heap _ _ hfunction
      simp only [callWithin, object, Bind.bind, EStateM.bind, ho]
      exact hbody
    · rw [or_iff_left (not_holdsParameter_relu hfunction hbare _)]
  | @affine a weight bias hlayer hweight hbias =>
    intro w x P hgoes hx
    rw [callWithin_layer (hgoes.isLayer hlayer) rfl x]
    have hbias' := hbias.imp (hgoes.heap _ _) hgoes.isParam
    obtain ⟨y, w', haffine, hgoes', hy⟩ := affine_ok (callWithin depth) (hgoes.wellFormed hw₀)
      (hgoes.isLayer hlayer) (hgoes.isParam hweight) hbias' hx
    refine ⟨y, w', haffine, hgoes', hy.congr fun p => ?_⟩
    rw [hgoes.holdsParameter_iff (.affine hlayer hweight hbias)]
  | @sequential a layers items hlayer hlist hitems ih =>
    intro w x P hgoes hx
    rw [callWithin_layer (hgoes.isLayer hlayer) rfl x]
    refine sequential_ok hlayer hlist (fun b hb => ⟨hitems b hb, ?_⟩) hgoes
      (hgoes.wellFormed hw₀) hx
    -- a layer has fewer layers, so that one call less is enough
    have hless := (hitems b hb).ncard_layersBelow_lt ⟨layers, items, hlayer, hlist, hb⟩
    obtain ⟨depth, rfl⟩ := Nat.exists_eq_add_one_of_ne_zero (Nat.ne_of_gt (by omega : 0 < depth))
    exact ih b hb (Nat.le_of_lt_succ (Nat.lt_of_lt_of_le hless hdepth))

/-- A network is applied to an expression. The result depends on what the expression depends on and
on the parameters of the network. -/
theorem forward_network (hw : (w.arena k).WellFormed) (ha : w.IsNetwork k s a) {x : Address}
    (hx : w.Depends k s x P) : ∃ y w', forward call a x w = .ok y w' ∧ w.GoesOn k w' ∧
      w'.Depends k s y fun p => P p ∨ w.HoldsParameter a ⟨k, p⟩ := by
  have hdepth : (w.layersBelow a).ncard ≤ 4 * w.heap.size + 15 := by
    have hle := w.ncard_layersBelow_le a
    omega
  obtain ⟨y, w', hcall, hresult⟩ := callWithin_applies hw ha hdepth w x P (Std.Refl.refl w) hx
  exact ⟨y, w', (bind_of_ok (askClass_network call ha)).trans hcall, hresult⟩

end Workspace

end TensorGraph
