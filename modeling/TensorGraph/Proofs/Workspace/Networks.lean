import Mathlib.Data.List.Nodup
import Mathlib.Data.Set.Card
import Std.Data.String.ToNat
import TensorGraph.Proofs.Gradient.Liveness
import TensorGraph.Proofs.Network.Paths
import TensorGraph.Proofs.Workspace.Effect
import TensorGraph.Proofs.Workspace.Search

/-!
# Networks

A network is the function relu, an affine layer over parameters of one arena and one shape, or a
sequence of networks, where layers may be shared. It is made of objects that are searched without
asking a class, and the paths to its parameters tell these apart.
-/

namespace TensorGraph

namespace Heap

/-- A layer with its attributes. -/
def IsLayer (h : Heap) (a : Address) (l : Layer) (items : Attributes) : Prop :=
  ∃ attrs, h.get? a = some (.member (.layer l) attrs []) ∧
    h.get? attrs = some (.dict (Entries.ofAttributes items))

/-- No attribute is private. -/
def Public (items : Attributes) : Prop := ∀ item ∈ items, isPrivate item.1 = false

theorem get?_ofAttributes (items : Attributes) (name : String) :
    (Entries.ofAttributes items).get? (.text name) = items.get? name := by
  have hkey : ((fun e : Value × Address => e.1.same (.text name)) ∘
      fun item : String × Address => (.text item.1, item.2)) = fun item => item.1 == name := by
    funext item
    rw [Bool.eq_iff_iff]
    simp [Value.same, Value.signature, Value.Token.isUndefined]
  rw [Entries.get?, Entries.ofAttributes, List.find?_map, hkey, Option.map_map, Attributes.get?]
  rfl

theorem visible_ofAttributes {items : Attributes} (h : Public items) :
    visible (Entries.ofAttributes items) = .ok items := by
  induction items using List.reverseRecOn with
  | nil => rfl
  | append_singleton items item ih =>
    have hitems := ih fun i hi => h i (List.mem_append_left _ hi)
    have hitem := h item (List.mem_append_right _ (List.mem_singleton_self item))
    simp only [visible, Entries.ofAttributes] at hitems ⊢
    rw [List.map_append, List.foldlM_append, hitems]
    simp [hitem, Bind.bind, Except.bind, pure, Except.pure]

theorem get?_private {items : Attributes} (h : Public items) {name : String}
    (hname : isPrivate name = true) : items.get? name = none := by
  rw [Attributes.get?, Option.map_eq_none_iff, List.find?_eq_none]
  intro item hitem hsame
  have hpublic := h item hitem
  rw [beq_iff_eq.mp hsame, hname] at hpublic
  cases hpublic

section Parts

variable {h : Heap} {a : Address}

theorem IsLayer.attributesOf {l : Layer} {items : Attributes} (ha : h.IsLayer a l items) :
    h.attributesOf a = Entries.ofAttributes items := by
  obtain ⟨attrs, ho, hattrs⟩ := ha
  simp only [Heap.attributesOf, ho, Heap.entries, hattrs]

theorem IsLayer.contents? {l : Layer} {items : Attributes} (ha : h.IsLayer a l items) :
    h.contents? a = none := by
  obtain ⟨attrs, ho, -⟩ := ha
  simp only [Heap.contents?, Heap.function?, ho]

/-- The parts of a layer are its attributes. -/
theorem IsLayer.tells {l : Layer} {items : Attributes} (ha : h.IsLayer a l items)
    (hpublic : Public items) : h.tells a = .ok items := by
  rw [Heap.tells, ha.contents?, Option.getD_none, ha.attributesOf, visible_ofAttributes hpublic]

theorem IsLayer.parts {l : Layer} {items : Attributes} (ha : h.IsLayer a l items)
    (hpublic : Public items) : h.parts a = items :=
  parts_of_tells (ha.tells hpublic)

theorem IsLayer.ownAttribute? {l : Layer} {items : Attributes} (ha : h.IsLayer a l items)
    (name : String) : h.ownAttribute? a name = items.get? name := by
  obtain ⟨attrs, ho, hattrs⟩ := ha
  simp only [Heap.ownAttribute?, ownAttribute?.inDictionary, ho, Heap.entries, hattrs,
    get?_ofAttributes]

/-- An object whose parts can be told is quiet when it is no member of a made class and has nothing
of its own for a closure. -/
theorem quiet_of_tells {found : Parts} (hhandle : h.handle? a = none)
    (htells : h.tells a = .ok found) (hclass : h.madeClassOf? a = none)
    (hmethod : h.isMethod a = false)
    (hclosure : h.isCallable a → h.function? a = none → h.ownAttribute? a "__closure__" = none) :
    h.Quiet a where
  noHandle := hhandle
  told := by
    rw [htells]
    rfl
  closure hcall hf c hc := by
    rw [hclosure hcall hf] at hc
    cases hc
  method ha := by
    rw [hmethod] at ha
    cases ha
  laidOut c hc := by
    rw [hclass] at hc
    cases hc
  silent c hc := by
    rw [hclass] at hc
    cases hc

theorem IsLayer.quiet {l : Layer} {items : Attributes} (ha : h.IsLayer a l items)
    (hpublic : Public items) : h.Quiet a := by
  have htells := ha.tells hpublic
  have hown := ha.ownAttribute? "__closure__"
  obtain ⟨attrs, ho, hattrs⟩ := ha
  refine quiet_of_tells (by simp only [handle?, ho]) htells (by simp only [madeClassOf?, ho])
    (by simp only [isMethod, ho]) fun _ _ => ?_
  rw [hown]
  exact get?_private hpublic (by decide)

/-- A function that captures nothing and has no attributes has no parts. -/
theorem parts_function {f : Function} {attrs : Address}
    (ha : h.get? a = some (.function f attrs)) (hf : f.captured = [])
    (hattrs : h.get? attrs = some (.dict [])) : h.Quiet a ∧ h.parts a = [] := by
  have hfunction : h.function? a = some (f, attrs) := by simp only [function?, ha]
  have htells : h.tells a = .ok [] := by
    rw [tells, contents?_of_function? hfunction, hf]
    simp only [List.isEmpty_nil, if_true, Option.getD_none, attributesOf, ha, hfunction, entries,
      hattrs]
    rfl
  refine ⟨quiet_of_tells (by simp only [handle?, ha]) htells (by simp only [madeClassOf?, ha])
    (by simp only [isMethod, ha]) fun _ hnone => ?_, parts_of_tells htells⟩
  rw [hfunction] at hnone
  cases hnone

theorem parts_list {items : List Address} (ha : h.get? a = some (.list items)) :
    h.Quiet a ∧ h.parts a = numbered items := by
  have htells : h.tells a = .ok (numbered items) := by
    simp only [tells, contents?, ha, Option.getD_some]
  exact ⟨quiet_of_tells (by simp only [handle?, ha]) htells (by simp only [madeClassOf?, ha])
    (by simp only [isMethod, ha]) (by simp only [ownAttribute?, ha, implies_true]),
    parts_of_tells htells⟩

theorem parts_value {v : Value} (ha : h.get? a = some (.value v)) :
    h.Quiet a ∧ h.parts a = [] := by
  have hbare : h.IsBareAt a := .inl (.inr ⟨v, ha⟩)
  have htells : h.tells a = .ok [] := by
    rw [tells, contents?_of_bare hbare, Option.getD_none, attributesOf_of_bare hbare]
    rfl
  exact ⟨quiet_of_tells (by simp only [handle?, ha]) htells (madeClassOf?_of_bare hbare)
    (isMethod_of_bare hbare) fun _ _ => ownAttribute?_of_bare hbare _, parts_of_tells htells⟩

/-- Distinct names that can be found again in a path. -/
def Separate (parts : Parts) : Prop :=
  (parts.map Prod.fst).Nodup ∧ ∀ part ∈ parts, IsSegment part.1

theorem separate_numbered (items : List Address) : Separate (numbered items) := by
  have hnames : ((List.range items.length).map toString).Nodup :=
    List.Nodup.map (fun _ _ hsame => Nat.repr_inj.mp hsame) List.nodup_range
  constructor
  · have hmap : (numbered items).map Prod.fst = (List.range items.length).map toString := by
      rw [numbered, List.map_fst_zip (by simp)]
    rw [hmap]
    exact hnames
  · rintro ⟨name, b⟩ hpart
    obtain ⟨i, rfl, -⟩ := mem_numbered.mp hpart
    exact isSegment_toString i

theorem Quiet.tellsApart (hquiet : h.Quiet a) (hparts : Separate (h.parts a)) :
    h.TellsApart a where
  segment name b hb := hparts.2 (name, b) ((mem_parts hquiet).mpr hb)
  unique name b c hb hc := by
    have hsame := List.inj_on_of_nodup_map hparts.1 ((mem_parts hquiet).mpr hb)
      ((mem_parts hquiet).mpr hc) rfl
    exact congrArg Prod.snd hsame

theorem tellsApart_of_expr {e : Expr} (ha : h.get? a = some (.expr e)) : h.TellsApart a where
  segment _ _ hb := absurd hb (not_holds_of_expr ha)
  unique _ _ _ hb _ := absurd hb (not_holds_of_expr ha)

end Parts

end Heap

namespace Workspace

/-- An object is a handle of a node of an arena that has a shape. -/
def RefersTo (w : Workspace) (k : ArenaId) (s : Shape) (a : Address) (i : Nat) : Prop :=
  w.heap.get? a = some (.expr ⟨k, i⟩) ∧ ∃ n, (w.arena k).node? i = some n ∧ n.shape = s

/-- An object is a handle of a parameter of an arena that has a shape. -/
def IsParam (w : Workspace) (k : ArenaId) (s : Shape) (a : Address) : Prop :=
  ∃ p, w.RefersTo k s a p ∧ (w.arena k).isParam p = true

/-- A network over an arena and a shape. It is finite, but its layers may be shared. -/
inductive IsNetwork (w : Workspace) (k : ArenaId) (s : Shape) : Address → Prop
  | relu {a attrs : Address}
      (function : w.heap.get? a = some (.function { name := "relu", body := .relu } attrs))
      (bare : w.heap.get? attrs = some (.dict [])) : IsNetwork w k s a
  | affine {a weight bias : Address}
      (layer : w.heap.IsLayer a .affine [("weight", weight), ("bias", bias)])
      (weight : w.IsParam k s weight)
      (bias : w.heap.get? bias = some (.value .none) ∨ w.IsParam k s bias) : IsNetwork w k s a
  | sequential {a layers : Address} {items : List Address}
      (layer : w.heap.IsLayer a .sequential [("layers", layers)])
      (list : w.heap.get? layers = some (.list items))
      (items : ∀ b ∈ items, IsNetwork w k s b) : IsNetwork w k s a

/-- What networks are made of: networks, lists of networks, parameters, and what stands in the place
of a bias. -/
inductive IsComponent (w : Workspace) (k : ArenaId) (s : Shape) : Address → Prop
  | network {a : Address} (network : w.IsNetwork k s a) : IsComponent w k s a
  | layers {a : Address} {items : List Address} (list : w.heap.get? a = some (.list items))
      (items : ∀ b ∈ items, w.IsNetwork k s b) : IsComponent w k s a
  | param {a : Address} (param : w.IsParam k s a) : IsComponent w k s a
  | absent {a : Address} (absent : w.heap.get? a = some (.value .none)) : IsComponent w k s a

theorem public_affine (weight bias : Address) :
    Heap.Public [("weight", weight), ("bias", bias)] := by
  have hnames : isPrivate "weight" = false ∧ isPrivate "bias" = false := by decide
  simp [Heap.Public, hnames]

theorem public_sequential (layers : Address) : Heap.Public [("layers", layers)] := by
  have hname : isPrivate "layers" = false := by decide
  simp [Heap.Public, hname]

variable {w : Workspace} {k : ArenaId} {s : Shape} {a : Address}

theorem RefersTo.lt_size {i : Nat} (h : w.RefersTo k s a i) : i < (w.arena k).size := by
  obtain ⟨-, n, hn, -⟩ := h
  exact Arena.lt_size_of_node? hn

/-- A component is a parameter, or its parts are components under separate names. -/
theorem IsComponent.parts (ha : w.IsComponent k s a) : w.IsParam k s a ∨
    w.heap.Quiet a ∧ Heap.Separate (w.heap.parts a) ∧
      ∀ part ∈ w.heap.parts a, w.IsComponent k s part.2 := by
  cases ha with
  | param hparam => exact .inl hparam
  | absent habsent =>
    obtain ⟨hquiet, hparts⟩ := Heap.parts_value habsent
    refine .inr ⟨hquiet, ?_⟩
    rw [hparts]
    simp [Heap.Separate]
  | layers hlist hitems =>
    obtain ⟨hquiet, hparts⟩ := Heap.parts_list hlist
    refine .inr ⟨hquiet, ?_⟩
    rw [hparts]
    refine ⟨Heap.separate_numbered _, ?_⟩
    rintro ⟨name, b⟩ hpart
    obtain ⟨i, -, hi⟩ := Heap.mem_numbered.mp hpart
    exact .network (hitems b (List.mem_of_getElem? hi))
  | network hnetwork =>
    refine .inr ?_
    cases hnetwork with
    | relu hfunction hbare =>
      obtain ⟨hquiet, hparts⟩ := Heap.parts_function hfunction rfl hbare
      refine ⟨hquiet, ?_⟩
      rw [hparts]
      simp [Heap.Separate]
    | affine hlayer hweight hbias =>
      refine ⟨hlayer.quiet (public_affine _ _), ?_⟩
      rw [hlayer.parts (public_affine _ _)]
      have hnames : IsSegment "weight" ∧ IsSegment "bias" := by decide
      refine ⟨⟨by simp, by simp [hnames]⟩, ?_⟩
      simp only [List.forall_mem_cons]
      refine ⟨.param hweight, ?_, by simp⟩
      rcases hbias with hnone | hparam
      · exact .absent hnone
      · exact .param hparam
    | sequential hlayer hlist hitems =>
      refine ⟨hlayer.quiet (public_sequential _), ?_⟩
      rw [hlayer.parts (public_sequential _)]
      have hname : IsSegment "layers" := by decide
      refine ⟨⟨by simp, by simp [hname]⟩, ?_⟩
      simp only [List.forall_mem_cons]
      exact ⟨.layers hlist hitems, by simp⟩

theorem IsParam.node (ha : w.IsParam k s a) : ∃ (p : Nat) (n : Node),
    w.heap.get? a = some (.expr ⟨k, p⟩) ∧ w.arenas.node? ⟨k, p⟩ = some n ∧ n.kind = .param := by
  obtain ⟨p, ⟨ho, -⟩, hparam⟩ := ha
  obtain ⟨n, hn, hkind⟩ := Arena.exists_of_isParam hparam
  exact ⟨p, n, ho, node?_ofNat.mpr hn, hkind⟩

theorem IsComponent.ordinary (ha : w.IsComponent k s a) : w.Ordinary a := by
  rcases ha.parts with hparam | ⟨hquiet, -⟩
  · obtain ⟨p, n, ho, hn, -⟩ := hparam.node
    simp only [Ordinary, Heap.expr?_eq_some_iff.mpr ho, hn, Option.isSome_some]
  · have hx : w.heap.expr? a = none := by
      cases hx : w.heap.expr? a with
      | none => rfl
      | some e =>
        have hhandle := hquiet.noHandle
        simp [Heap.handle?, Heap.expr?_eq_some_iff.mp hx] at hhandle
    simpa only [Ordinary, hx] using hquiet

theorem IsComponent.tellsApart (ha : w.IsComponent k s a) : w.heap.TellsApart a := by
  rcases ha.parts with hparam | ⟨hquiet, hseparate, -⟩
  · obtain ⟨p, n, ho, -⟩ := hparam.node
    exact Heap.tellsApart_of_expr ho
  · exact hquiet.tellsApart hseparate

/-- What a component leads to is a component. -/
theorem IsComponent.leads (ha : w.IsComponent k s a) {path path' : String} {b : Address}
    (hb : w.heap.Leads path a path' b) : w.IsComponent k s b := by
  induction hb with
  | here => exact ha
  | part hholds _ ih =>
    refine ih ?_
    rcases ha.parts with hparam | ⟨hquiet, -, hparts⟩
    · obtain ⟨p, n, ho, -⟩ := hparam.node
      exact absurd hholds (Heap.not_holds_of_expr ho)
    · exact hparts _ ((Heap.mem_parts hquiet).mpr hholds)

theorem IsComponent.searchable (ha : w.IsComponent k s a) : w.Searchable a :=
  fun _ _ _ hb => (ha.leads hb).ordinary

theorem IsComponent.unambiguous (ha : w.IsComponent k s a) : w.heap.Unambiguous a :=
  fun _ _ _ hb => (ha.leads hb).tellsApart

/-- Every handle that a component leads to is one of a parameter. -/
theorem IsComponent.isParam (ha : w.IsComponent k s a) {e : Expr}
    (ho : w.heap.get? a = some (.expr e)) : w.IsParam k s a := by
  rcases ha.parts with hparam | ⟨hquiet, -⟩
  · exact hparam
  · have hhandle := hquiet.noHandle
    simp [Heap.handle?, ho] at hhandle

theorem IsNetwork.expr?_eq_none (ha : w.IsNetwork k s a) : w.heap.expr? a = none := by
  cases ha with
  | relu hfunction _ => simp [Heap.expr?, hfunction]
  | affine hlayer _ _ | sequential hlayer _ _ =>
    obtain ⟨attrs, ho, -⟩ := hlayer
    simp [Heap.expr?, ho]

/-! ### The parameters of a network -/

theorem holdsParameter_iff_parts (hquiet : w.heap.Quiet a) (e : Expr) :
    w.HoldsParameter a e ↔ ∃ part ∈ w.heap.parts a, w.HoldsParameter part.2 e := by
  constructor
  · rintro ⟨path', b, n, hleads, hparam⟩
    cases hleads with
    | here =>
      have hhandle := hquiet.noHandle
      simp [Heap.handle?, hparam.1] at hhandle
    | @part _ _ name _ c _ hholds hrest =>
      obtain ⟨path'', hrest⟩ := hrest.exists_rebase ""
      exact ⟨(name, c), (Heap.mem_parts hquiet).mpr hholds, path'', b, n, hrest, hparam⟩
  · rintro ⟨⟨name, c⟩, hpart, path', b, n, hleads, hparam⟩
    obtain ⟨path'', hrest⟩ := hleads.exists_rebase (joinName "" name)
    exact ⟨path'', b, n, .part ((Heap.mem_parts hquiet).mp hpart) hrest, hparam⟩

theorem holdsParameter_iff_of_isParam {p : Nat} (hrefers : w.RefersTo k s a p)
    (hparam : (w.arena k).isParam p = true) (e : Expr) :
    w.HoldsParameter a e ↔ e = ⟨k, p⟩ := by
  have ho := hrefers.1
  obtain ⟨n, hn, hkind⟩ := Arena.exists_of_isParam hparam
  constructor
  · rintro ⟨path', b, m, hleads, hb, -⟩
    cases hleads with
    | here =>
      rw [ho] at hb
      cases hb
      rfl
    | part hholds _ => exact absurd hholds (Heap.not_holds_of_expr ho)
  · rintro rfl
    exact ⟨"", a, n, .here "" a, ho, node?_ofNat.mpr hn, hkind⟩

theorem not_holdsParameter_of_value {v : Value} (ha : w.heap.get? a = some (.value v)) (e : Expr) :
    ¬w.HoldsParameter a e := by
  obtain ⟨hquiet, hparts⟩ := Heap.parts_value ha
  rw [holdsParameter_iff_parts hquiet, hparts]
  simp

/-- The function relu has no parameters. -/
theorem not_holdsParameter_relu {attrs : Address}
    (hfunction : w.heap.get? a = some (.function { name := "relu", body := .relu } attrs))
    (hbare : w.heap.get? attrs = some (.dict [])) (e : Expr) : ¬w.HoldsParameter a e := by
  obtain ⟨hquiet, hparts⟩ := Heap.parts_function hfunction rfl hbare
  rw [holdsParameter_iff_parts hquiet, hparts]
  simp

/-- An affine layer has the parameters of its weight and of its bias. -/
theorem holdsParameter_affine {weight bias : Address}
    (hlayer : w.heap.IsLayer a .affine [("weight", weight), ("bias", bias)]) (e : Expr) :
    w.HoldsParameter a e ↔ w.HoldsParameter weight e ∨ w.HoldsParameter bias e := by
  rw [holdsParameter_iff_parts (hlayer.quiet (public_affine _ _)),
    hlayer.parts (public_affine _ _)]
  simp

/-- A sequence of networks has the parameters of each. -/
theorem holdsParameter_sequential {layers : Address} {items : List Address}
    (hlayer : w.heap.IsLayer a .sequential [("layers", layers)])
    (hlist : w.heap.get? layers = some (.list items)) (e : Expr) :
    w.HoldsParameter a e ↔ ∃ b ∈ items, w.HoldsParameter b e := by
  obtain ⟨hquiet, hparts⟩ := Heap.parts_list hlist
  rw [holdsParameter_iff_parts (hlayer.quiet (public_sequential _)),
    hlayer.parts (public_sequential _)]
  simp only [List.mem_singleton, exists_eq_left]
  rw [holdsParameter_iff_parts hquiet, hparts]
  constructor
  · rintro ⟨⟨name, b⟩, hpart, hb⟩
    obtain ⟨i, -, hi⟩ := Heap.mem_numbered.mp hpart
    exact ⟨b, List.mem_of_getElem? hi, hb⟩
  · rintro ⟨b, hmem, hb⟩
    obtain ⟨i, hi⟩ := List.mem_iff_getElem?.mp hmem
    exact ⟨(toString i, b), Heap.mem_numbered.mpr ⟨i, rfl, hi⟩, hb⟩

theorem HoldsParameter.exists_index {e : Expr} (ha : w.IsComponent k s a)
    (he : w.HoldsParameter a e) : ∃ p : Nat, e = ⟨k, p⟩ ∧ (w.arena k).isParam p = true := by
  obtain ⟨path', b, n, hleads, ho, -⟩ := he
  obtain ⟨p, hrefers, hparam⟩ := (ha.leads hleads).isParam ho
  rw [hrefers.1] at ho
  cases ho
  exact ⟨p, rfl, hparam⟩

/-! ### Their names -/

/-- The parameters that a network has are found under distinct names, the paths to them. -/
theorem IsNetwork.names_nodup (ha : w.IsNetwork k s a) :
    ((w.search "" a).map Found.name).Nodup := by
  have hcomponent : w.IsComponent k s a := .network ha
  have hunambiguous := hcomponent.unambiguous
  have hpath : ∀ f ∈ w.search "" a,
      w.heap.Leads "" a f.name f.holder ∧ w.heap.get? f.holder = some (.expr f.param) := by
    intro f hf
    obtain ⟨path', n, ⟨hleads, ho, -⟩, hname⟩ := search_sound hcomponent.searchable "" f hf
    have hne : path' ≠ "" := by
      cases hleads with
      | here =>
        rw [← Heap.expr?_eq_some_iff, ha.expr?_eq_none] at ho
        cases ho
      | part hholds hrest => exact hrest.ne_of_part hunambiguous hholds
    have hempty : path'.isEmpty = false := by
      rw [← Bool.not_eq_true]
      exact mt String.isEmpty_iff.mp hne
    rw [nameOf, hempty, Bool.not_false, if_pos rfl] at hname
    rw [hname]
    exact ⟨hleads, ho⟩
  refine List.Nodup.map_on ?_ (List.Nodup.of_map _ (search_nodup hcomponent.searchable ""))
  intro f hf g hg hsame
  obtain ⟨hleads, ho⟩ := hpath f hf
  obtain ⟨hleads', ho'⟩ := hpath g hg
  rw [← hsame] at hleads'
  have hholder := hleads.unique hunambiguous hleads'
  rw [← hholder, ho] at ho'
  obtain ⟨name, holder, param⟩ := f
  cases ho'
  cases hsame
  cases hholder
  rfl

/-! ### How deep networks go -/

/-- A network is one of the layers of a sequence. -/
def HasLayer (w : Workspace) (a b : Address) : Prop :=
  ∃ layers items, w.heap.IsLayer a .sequential [("layers", layers)] ∧
    w.heap.get? layers = some (.list items) ∧ b ∈ items

/-- All layers of an object, also those of its layers. -/
def layersBelow (w : Workspace) (a : Address) : Set Address :=
  {b | b < w.heap.size ∧ Relation.TransGen w.HasLayer a b}

/-- An object has no more layers than there are objects. -/
theorem ncard_layersBelow_le (w : Workspace) (a : Address) :
    (w.layersBelow a).ncard ≤ w.heap.size := by
  have hsub : w.layersBelow a ⊆ (Finset.range w.heap.size : Set Address) := by
    rintro b ⟨hb, -⟩
    simpa using hb
  have hle := Set.ncard_le_ncard hsub (Finset.finite_toSet _)
  rwa [Set.ncard_coe_finset, Finset.card_range] at hle

/-- The layers of a sequence are those in its list. -/
theorem mem_of_hasLayer {layers b : Address} {items : List Address}
    (hlayer : w.heap.IsLayer a .sequential [("layers", layers)])
    (hlist : w.heap.get? layers = some (.list items)) (hb : w.HasLayer a b) : b ∈ items := by
  obtain ⟨layers', items', ⟨attrs', ho', hattrs'⟩, hlist', hmem⟩ := hb
  obtain ⟨attrs, ho, hattrs⟩ := hlayer
  rw [ho] at ho'
  cases ho'
  rw [hattrs] at hattrs'
  cases hattrs'
  rw [hlist] at hlist'
  cases hlist'
  exact hmem

/-- A network is finite: to go from layer to layer ends. -/
theorem IsNetwork.acc (ha : w.IsNetwork k s a) : Acc (fun b c => w.HasLayer c b) a := by
  induction ha with
  | relu hfunction _ =>
    refine Acc.intro _ fun b hb => ?_
    obtain ⟨_, _, ⟨attrs, ho, -⟩, -⟩ := hb
    rw [hfunction] at ho
    cases ho
  | affine hlayer _ _ =>
    refine Acc.intro _ fun b hb => ?_
    obtain ⟨_, _, ⟨attrs, ho, -⟩, -⟩ := hb
    obtain ⟨attrs', ho', -⟩ := hlayer
    rw [ho'] at ho
    cases ho
  | sequential hlayer hlist _ ih =>
    exact Acc.intro _ fun b hb => ih b (mem_of_hasLayer hlayer hlist hb)

theorem IsNetwork.lt_size (ha : w.IsNetwork k s a) : a < w.heap.size := by
  refine Nat.lt_of_not_le fun hsize => ?_
  have hnone : w.heap.get? a = none := Array.getElem?_eq_none hsize
  cases ha with
  | relu hfunction _ =>
    rw [hnone] at hfunction
    cases hfunction
  | affine hlayer _ _ | sequential hlayer _ _ =>
    obtain ⟨attrs, ho, -⟩ := hlayer
    rw [hnone] at ho
    cases ho

/-- No network is a layer of itself. -/
theorem IsNetwork.not_below_self (ha : w.IsNetwork k s a) : ¬Relation.TransGen w.HasLayer a a := by
  have hacc := ha.acc.transGen
  intro hcycle
  rw [← Relation.transGen_swap] at hcycle
  induction hacc with
  | intro a _ ih => exact ih a hcycle ha hcycle

/-- A layer of a sequence has fewer layers than the sequence. -/
theorem IsNetwork.ncard_layersBelow_lt {b : Address} (hb : w.IsNetwork k s b)
    (hlayer : w.HasLayer a b) : (w.layersBelow b).ncard < (w.layersBelow a).ncard := by
  have hfinite : (w.layersBelow a).Finite :=
    (Set.finite_lt_nat w.heap.size).subset fun c hc => hc.1
  refine Set.ncard_lt_ncard ?_ hfinite
  have hsub : w.layersBelow b ⊆ w.layersBelow a := fun c hc => ⟨hc.1, .head hlayer hc.2⟩
  rw [Set.ssubset_iff_of_subset hsub]
  exact ⟨b, ⟨hb.lt_size, .single hlayer⟩, fun hself => hb.not_below_self hself.2⟩

end Workspace

end TensorGraph
