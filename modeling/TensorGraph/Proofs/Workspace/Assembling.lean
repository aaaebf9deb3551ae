import TensorGraph.Proofs.Gradient.Acceptance
import TensorGraph.Proofs.Workspace.Forwarding
import TensorGraph.Workspace.Objects

/-!
# Assembling networks

The function relu is there from the start, and layers are made from parameters and from other
layers. What is made this way is a network, and what was one before stays one.
-/

namespace TensorGraph.Workspace

variable {w w' : Workspace} {k : ArenaId} {s : Shape}

theorem newObject_ok (k : ArenaId) (o : Object) (w : Workspace) : ∃ w',
    newObject o w = .ok w.heap.size w' ∧ w.GoesOn k w' ∧
      w'.heap.get? w.heap.size = some o :=
  ⟨_, rfl, goesOn_alloc k w o, (Heap.get?_alloc ..).trans (if_pos rfl)⟩

theorem relu_network (k : ArenaId) (s : Shape) : start.IsNetwork k s Heap.relu :=
  @IsNetwork.relu _ _ _ Heap.relu 1 rfl rfl

/-- A new layer has the attributes that it is given. -/
theorem newMemberOf_ok (k : ArenaId) (l : Layer) (items : Attributes) (w : Workspace) : ∃ a w',
    newMemberOf (.layer l) items w = .ok a w' ∧ w.GoesOn k w' ∧ w'.heap.IsLayer a l items := by
  obtain ⟨w₁, hattrs, hgoes, hentries⟩ :=
    newObject_ok k (.dict (Entries.ofAttributes items)) w
  obtain ⟨w₂, hmember, hgoes', ho⟩ := newObject_ok k (.member (.layer l) w.heap.size []) w₁
  exact ⟨_, w₂, (bind_of_ok hattrs).trans hmember, IsTrans.trans _ _ _ hgoes hgoes',
    w.heap.size, ho, hgoes'.heap _ _ hentries⟩

theorem GoesOn.defaultArena (h : w.GoesOn k w') : w'.defaultArena = w.defaultArena := by
  rw [h.same]
  rfl

/-- A new parameter of the innermost arena. -/
theorem hold_param_ok (hk : w.defaultArena = k) (hsize : k < w.arenas.size) (s : Shape)
    (name : Option String) : ∃ a w',
      (do hold (← param none (.shape s) name) : Work Address) w = .ok a w' ∧ w.GoesOn k w' ∧
      w'.IsParam k s a ∧ k < w'.arenas.size := by
  subst hk
  obtain ⟨w', hok, hgoes, harena, hrefers⟩ :=
    hold_node (Differentiation.param_run (w.arena w.defaultArena) s name)
      (by simp [Node.operands, Form.operands]) hsize
  refine ⟨_, w', hok, hgoes, ⟨_, hrefers, ?_⟩, ?_⟩
  · have hnode : ((w.arena w.defaultArena).push ⟨.leaf .param, s, name⟩).node?
        (w.arena w.defaultArena).size = some ⟨.leaf .param, s, name⟩ := by
      rw [Arena.node?_push, if_pos rfl]
    rw [harena]
    exact (Arena.isParam_ofNat hnode).mpr rfl
  · obtain ⟨-, n, hn, -⟩ := hrefers
    exact arena_lt_of_node? hn

/-- What was done in two steps goes on. -/
theorem bind_bind_of_ok {α β γ : Type} {x : Work α} {f : α → Work β} {g : β → Work γ} {b : β}
    (h : (x >>= f) w = .ok b w') : (x >>= fun a => f a >>= g) w = g b w' := by
  rw [← bind_assoc]
  exact bind_of_ok h

/-- A new affine layer is a network over the innermost arena. -/
theorem newAffine_network {shape : Value} (hshape : Shape.ofValue shape = .ok s) (bias : Bool)
    (hk : w.defaultArena = k) (hsize : k < w.arenas.size) : ∃ a w',
      newAffine shape bias w = .ok a w' ∧ w.GoesOn k w' ∧ w'.IsNetwork k s a := by
  have hcheck : ofExcept (Shape.ofValue shape) w = .ok s w := by simp only [ofExcept, hshape]
  obtain ⟨weight, w₁, hweight, hgoes, hparam, hsize₁⟩ := hold_param_ok hk hsize s (some "weight")
  cases bias with
  | true =>
    obtain ⟨b, w₂, hbias, hgoes', hother, -⟩ :=
      hold_param_ok (hgoes.defaultArena.trans hk) hsize₁ s (some "bias")
    obtain ⟨a, w₃, hmember, hgoes'', hlayer⟩ :=
      newMemberOf_ok k .affine [("weight", weight), ("bias", b)] w₂
    have hrest : w₁.GoesOn k w₃ := IsTrans.trans _ _ _ hgoes' hgoes''
    exact ⟨a, w₃, (bind_of_ok hcheck).trans ((bind_bind_of_ok hweight).trans
      ((bind_bind_of_ok hbias).trans hmember)), IsTrans.trans _ _ _ hgoes hrest,
      .affine hlayer (hrest.isParam hparam) (.inr (hgoes''.isParam hother))⟩
  | false =>
    obtain ⟨w₂, hnone, hgoes', ho⟩ := newObject_ok k (.value .none) w₁
    obtain ⟨a, w₃, hmember, hgoes'', hlayer⟩ :=
      newMemberOf_ok k .affine [("weight", weight), ("bias", w₁.heap.size)] w₂
    have hrest : w₁.GoesOn k w₃ := IsTrans.trans _ _ _ hgoes' hgoes''
    have hvalue : newValue .none w₁ = .ok w₁.heap.size w₂ := hnone
    exact ⟨a, w₃, (bind_of_ok hcheck).trans ((bind_bind_of_ok hweight).trans
      ((bind_of_ok hvalue).trans hmember)), IsTrans.trans _ _ _ hgoes hrest,
      .affine hlayer (hrest.isParam hparam) (.inl (hgoes''.heap _ _ ho))⟩

/-- A new sequence of networks is a network. -/
theorem newSequential_network {layers : List Address}
    (hlayers : ∀ b ∈ layers, w.IsNetwork k s b) : ∃ a w', newSequential layers w = .ok a w' ∧
      w.GoesOn k w' ∧ w'.IsNetwork k s a := by
  obtain ⟨w₁, hlist, hgoes, hitems⟩ := newObject_ok k (.list layers) w
  obtain ⟨a, w₂, hmember, hgoes', hlayer⟩ :=
    newMemberOf_ok k .sequential [("layers", w.heap.size)] w₁
  have hboth : w.GoesOn k w₂ := IsTrans.trans _ _ _ hgoes hgoes'
  exact ⟨a, w₂, (bind_of_ok hlist).trans hmember, hboth,
    .sequential hlayer (hgoes'.heap _ _ hitems) fun b hb => hboth.isNetwork (hlayers b hb)⟩

end TensorGraph.Workspace
