import TensorGraph.Proofs.Workspace.Below
import TensorGraph.Proofs.Workspace.Search

/-!
# Collecting parameters

The parameters of an object are those below the handles that a tour of the object sees, each where
it occurs first. So they are all parameters below the handles that the object leads to.
-/

namespace TensorGraph

/-! ### First occurrences -/

section FirstOccurrences

variable {α : Type} [BEq α] [LawfulBEq α] {xs ys zs : List α} {x : α}

theorem eraseDups_append_of_subset (h : ys ⊆ xs) : (xs ++ ys).eraseDups = xs.eraseDups := by
  have hnone : ys.removeAll xs = [] :=
    List.filter_eq_nil_iff.mpr fun y hy => by simp [h hy]
  rw [List.eraseDups_append, hnone, List.eraseDups_nil, List.append_nil]

theorem eraseDups_concat_of_notMem (h : x ∉ xs) : (xs ++ [x]).eraseDups = xs.eraseDups ++ [x] := by
  have hall : [x].removeAll xs = [x] := by simpa [List.removeAll] using h
  rw [List.eraseDups_append, hall]
  simp [List.eraseDups_cons]

/-- What comes first matters by its first occurrences only. -/
theorem eraseDups_append_congr (h : xs.eraseDups = ys.eraseDups) :
    (xs ++ zs).eraseDups = (ys ++ zs).eraseDups := by
  have hmem : ∀ z, z ∈ xs ↔ z ∈ ys := by
    intro z
    rw [← List.mem_eraseDups (l := xs), h, List.mem_eraseDups]
  have hsame : zs.removeAll xs = zs.removeAll ys := by
    simp only [List.removeAll]
    refine List.filter_congr fun z _ => ?_
    rw [Bool.eq_iff_iff]
    simp [hmem]
  rw [List.eraseDups_append, List.eraseDups_append, h, hsame]

theorem nodup_eraseDups (xs : List α) : xs.eraseDups.Nodup := by
  induction xs using List.reverseRecOn with
  | nil => simp
  | append_singleton xs x ih =>
    by_cases hx : x ∈ xs
    · rw [eraseDups_append_of_subset (by simpa using hx)]
      exact ih
    · rw [eraseDups_concat_of_notMem hx]
      refine List.nodup_append.mpr ⟨ih, by simp, ?_⟩
      rintro y hy z hz rfl
      rw [List.mem_singleton.mp hz] at hy
      exact hx (List.mem_eraseDups.mp hy)

end FirstOccurrences

namespace Workspace

/-- All that an object leads to is there and ordinary, and the arenas of its handles can tell what is
below them. -/
structure Collectable (w : Workspace) (a : Address) : Prop where
  searchable : w.Searchable a
  present : ∀ path path' b, w.heap.Leads path a path' b → (w.heap.get? b).isSome
  plain : w.operandForms.isEmpty = true
  wellFormed : ∀ path path' b e, w.heap.Leads path a path' b → w.heap.get? b = some (.expr e) →
    (w.arena e.arena).WellFormed

/-- An object leads to a handle that has a parameter below it. -/
def LeadsToBelow (w : Workspace) (a : Address) (e : Expr) : Prop :=
  ∃ path b x, w.heap.Leads "" a path b ∧ w.heap.get? b = some (.expr x) ∧ w.Below x e ∧
    w.IsParameter e

/-- The parameters below the handles that a tour has seen, as often as it saw them. -/
def collected (w : Workspace) (t : Tour) : List Expr :=
  t.sights.flatMap fun x => w.parametersUnder x.expr

/-- A set holds handles of expressions, each once, in the order of their first occurrences. -/
structure Gathers (w : Workspace) (s : HandleSet) (es : List Expr) : Prop where
  items : s.items.reverse.map w.heap.expr? = es.eraseDups.map some
  exprs : ∀ e, e ∈ s.exprs ↔ e ∈ es
  codes : s.codes = []

/-- What was collected is what a tour has seen, and no more than handles and values were stored.
Objects are marked where the tour has met them. A handle that is marked adds nothing. -/
structure Collects (w₀ w : Workspace) (s : Met) (t : Tour) : Prop where
  adds : w₀.Adds Object.IsBare w
  params : w.Gathers s.params (w₀.collected t)
  objects : ∀ b, w₀.heap.expr? b = none → (b ∈ s.objects ↔ b ∈ t.objects)
  handles : ∀ b ∈ s.objects, ∀ x, w₀.heap.expr? b = some x →
    w₀.parametersUnder x ⊆ w₀.collected t

variable {w w' w₀ : Workspace} {a : Address} {e : Expr}

/-- A parameter that an object holds is below a handle to which it leads: itself. -/
theorem HoldsParameter.leadsToBelow {e : Expr} (h : w.HoldsParameter a e) : w.LeadsToBelow a e := by
  obtain ⟨path, b, n, hleads, ho, hn, hkind⟩ := h
  exact ⟨path, b, e, hleads, ho, .inl rfl, n, hn, hkind⟩

/-- Objects that hold one another and nothing else can be collected from, if each of them can. -/
theorem collectable_of_closed (objects : List Address) (ha : a ∈ objects)
    (hclosed : ∀ b ∈ objects, w.Ordinary b ∧ ∀ part ∈ w.heap.parts b, part.2 ∈ objects)
    (hpresent : ∀ b ∈ objects, (w.heap.get? b).isSome) (hplain : w.operandForms.isEmpty = true)
    (hw : ∀ b ∈ objects, ∀ e ∈ w.heap.expr? b, (w.arena e.arena).WellFormed) :
    w.Collectable a where
  searchable := searchable_of_closed objects ha hclosed
  present _ _ b hb := hpresent b (mem_of_leads hclosed ha hb)
  plain := hplain
  wellFormed _ _ b e hb ho :=
    hw b (mem_of_leads hclosed ha hb) e (Heap.expr?_eq_some_iff.mpr ho)

/-! ### Sets of handles -/

namespace Gathers

variable {s : HandleSet} {es : List Expr}

theorem empty (w : Workspace) : w.Gathers {} [] where
  items := rfl
  exprs e := by simp
  codes := rfl

/-- Objects that are there already still hold the same handles. -/
theorem of_adds {P : Object → Prop} (h : w.Gathers s es) (hadds : w.Adds P w') :
    w'.Gathers s es where
  items := by
    rw [← h.items]
    refine List.map_congr_left fun b hb => ?_
    have hsome : w.heap.expr? b ∈ es.eraseDups.map some := h.items ▸ List.mem_map_of_mem hb
    obtain ⟨e, -, he⟩ := List.mem_map.mp hsome
    have ho := hadds.objects.get?_eq (Heap.expr?_eq_some_iff.mp he.symm)
    rw [← he, Heap.expr?_eq_some_iff.mpr ho]
  exprs := h.exprs
  codes := h.codes

/-- What occurred before adds nothing. -/
theorem of_subset {es' : List Expr} (h : w.Gathers s es) (hsub : es' ⊆ es) :
    w.Gathers s (es ++ es') where
  items := by rw [eraseDups_append_of_subset hsub, h.items]
  exprs e := by
    rw [h.exprs, List.mem_append]
    exact ⟨.inl, fun he => he.elim id fun he => hsub he⟩
  codes := h.codes

/-- A handle is put in, unless it is there. -/
theorem add (h : w.Gathers s es) (ha : w.heap.get? a = some (.expr e)) :
    ∃ s', s.add a w = .ok s' w ∧ w.Gathers s' (es ++ [e]) := by
  have hhas := HandleSet.has_expr ha h.codes
  by_cases he : e ∈ es
  · rw [Std.HashSet.mem_iff_contains.mp ((h.exprs e).mpr he)] at hhas
    exact ⟨s, bind_of_ok hhas, h.of_subset (by simpa using he)⟩
  · have hmem : e ∉ s.exprs := mt (h.exprs e).mp he
    rw [Std.HashSet.mem_iff_contains, Bool.not_eq_true] at hmem
    rw [hmem] at hhas
    refine ⟨_, (bind_of_ok hhas).trans (HandleSet.push_expr ha), ?_, fun e' => ?_, h.codes⟩
    · rw [eraseDups_concat_of_notMem he, List.reverse_cons, List.map_append, List.map_append,
        h.items, List.map_singleton, Heap.expr?_eq_some_iff.mpr ha, List.map_singleton]
    · rw [Std.HashSet.mem_insert, h.exprs, List.mem_append, List.mem_singleton, beq_iff_eq, or_comm,
        eq_comm]

end Gathers

/-! ### Handles -/

/-- A parameter is put in. -/
theorem collectWithin_param {s : Met} {es : List Expr} (hs : w.Gathers s.params es)
    (ha : w.heap.get? a = some (.expr e)) (he : w.IsParameter e) (depth : Nat) :
    ∃ params, collectWithin (depth + 1) s a w = .ok { s with params } w ∧
      w.Gathers params (es ++ [e]) := by
  obtain ⟨n, hn, hkind⟩ := he
  have hparam := isOfKind_param ha hn
  rw [decide_eq_true hkind] at hparam
  obtain ⟨params, hadd, hs'⟩ := hs.add ha
  exact ⟨params, (bind_of_ok (asking_handle?_expr ha)).trans
    ((bind_of_ok hparam).trans (bind_of_ok hadd)), hs'⟩

/-- Parameters are put in one after the other. -/
theorem collectWithin_params {items : List Address} {es' : List Expr}
    (hitems : items.map w.heap.expr? = es'.map some) (hparams : ∀ e ∈ es', w.IsParameter e)
    {s : Met} {es : List Expr} (hs : w.Gathers s.params es) (depth : Nat) :
    ∃ params, items.foldlM (collectWithin (depth + 1)) s w = .ok { s with params } w ∧
      w.Gathers params (es ++ es') := by
  induction items generalizing s es es' with
  | nil =>
    obtain rfl := List.map_eq_nil_iff.mp hitems.symm
    exact ⟨s.params, rfl, by rwa [List.append_nil]⟩
  | cons b items ih =>
    obtain ⟨e, es', rfl, he, htail⟩ := List.map_eq_cons_iff.mp hitems.symm
    have ho : w.heap.get? b = some (.expr e) := Heap.expr?_eq_some_iff.mp he.symm
    obtain ⟨params, hfirst, hs₁⟩ :=
      collectWithin_param hs ho (hparams e (List.mem_cons_self ..)) depth
    obtain ⟨params', hrest, hs'⟩ := ih htail.symm
      (fun e' he' => hparams e' (List.mem_cons_of_mem e he')) (s := { s with params }) hs₁
    refine ⟨params', ?_, ?_⟩
    · rw [List.foldlM_cons]
      exact (bind_of_ok hfirst).trans hrest
    · rwa [List.append_assoc, List.singleton_append] at hs'

section Unmarked

variable {n : Node} (ha : w.heap.get? a = some (.expr e)) (hn : w.arenas.node? e = some n)
  (hkind : n.kind ≠ .param) {s : Met} (depth : Nat)

include ha hn hkind

/-- A handle that is marked adds nothing. -/
theorem collectWithin_marked (hmem : a ∈ s.objects) :
    collectWithin (depth + 2) s a w = .ok s w := by
  have hparam := isOfKind_param ha hn
  rw [decide_eq_false hkind] at hparam
  refine (bind_of_ok (asking_handle?_expr ha)).trans ((bind_of_ok hparam).trans ?_)
  rw [if_neg Bool.false_ne_true, if_pos hmem]
  rfl

/-- The parameters below any other handle are put in, and it is marked. -/
theorem collectWithin_unmarked (hplain : w.operandForms.isEmpty = true)
    (hw : (w.arena e.arena).WellFormed) (hmem : a ∉ s.objects) {es : List Expr}
    (hs : w.Gathers s.params es) : ∃ params w',
      collectWithin (depth + 2) s a w =
        .ok { s with params, objects := s.objects.insert a } w' ∧
      w.Adds Object.IsBare w' ∧ w'.Gathers params (es ++ w.parametersUnder e) := by
  have hparam := isOfKind_param ha hn
  rw [decide_eq_false hkind] at hparam
  obtain ⟨items, w', hbelow, hadds, hitems⟩ := parametersOf_ok hplain hw hn ha
  have hall : ∀ p ∈ w.parametersUnder e, w'.IsParameter p := by
    intro p hp
    rw [IsParameter, hadds.arenas]
    exact ((mem_parametersUnder hw hn).mp hp).2
  obtain ⟨params, hrun, hparams⟩ := collectWithin_params hitems hall
    (s := { s with objects := s.objects.insert a }) (hs.of_adds hadds) depth
  refine ⟨params, w', (bind_of_ok (asking_handle?_expr ha)).trans
    ((bind_of_ok hparam).trans ?_), hadds, hparams⟩
  rw [if_neg Bool.false_ne_true, if_neg hmem]
  exact (bind_of_ok hbelow).trans hrun

end Unmarked

/-! ### Tours -/

theorem collected_concat (w : Workspace) (t : Tour) (path : String) (a : Address) (e : Expr) :
    w.collected { t with sights := t.sights ++ [⟨path, a, e⟩] } =
      w.collected t ++ w.parametersUnder e := by
  simp [collected]

/-- A handle is seen when what is below it was put in. It may be marked. -/
theorem Collects.seen {s : Met} {t : Tour} (hs : w₀.Collects w s t)
    (hadds : w.Adds Object.IsBare w') (hx : w₀.heap.expr? a = some e) {params : HandleSet}
    (hparams : w'.Gathers params (w₀.collected t ++ w₀.parametersUnder e))
    {objects : Std.HashSet Address} (hobjects : objects = s.objects ∨ objects = s.objects.insert a)
    (path : String) :
    w₀.Collects w' { s with params, objects }
      { t with sights := t.sights ++ [⟨path, a, e⟩] } where
  adds := hs.adds.trans hadds
  params := by rwa [collected_concat]
  objects b hb := by
    rw [← hs.objects b hb]
    rcases hobjects with rfl | rfl
    · exact Iff.rfl
    · have hne : a ≠ b := by
        rintro rfl
        rw [hx] at hb
        cases hb
      rw [Std.HashSet.mem_insert, beq_iff_eq, or_iff_right hne]
  handles b hb x hbx := by
    rw [collected_concat]
    have hmem : b ∈ s.objects ∨ b = a := by
      rcases hobjects with rfl | rfl
      · exact .inl hb
      · exact (Std.HashSet.mem_insert.mp hb).symm.imp_right fun hab => (eq_of_beq hab).symm
    rcases hmem with hmem | rfl
    · exact fun e' he' => List.mem_append_left _ (hs.handles b hmem x hbx he')
    · rw [hx] at hbx
      cases hbx
      exact List.subset_append_right ..

section Handle

variable {depth : Nat} {path : String} (hx : w₀.heap.expr? a = some e)
  (hplain : w₀.operandForms.isEmpty = true) (hw : (w₀.arena e.arena).WellFormed)
  {n : Node} (hn : w₀.arenas.node? e = some n)

include hx hplain hw hn

/-- What is below a handle is put in, unless the handle is marked. -/
theorem collects_handle :
    Follows (Collects w₀) (collectWithin (depth + 2) · a)
      (w₀.tourWithin (depth + 1) · path a) := by
  intro w s t t' hs ht
  simp only [tourWithin, hx] at ht
  cases ht
  have ha : w.heap.get? a = some (.expr e) :=
    hs.adds.objects.get?_eq (Heap.expr?_eq_some_iff.mp hx)
  have harenas := hs.adds.arenas
  have hn' : w.arenas.node? e = some n := harenas ▸ hn
  by_cases hkind : n.kind = .param
  · obtain ⟨params, hrun, hparams⟩ :=
      collectWithin_param hs.params ha ⟨n, hn', hkind⟩ (depth + 1)
    rw [← parametersUnder_of_isParameter hw hn ⟨n, hn, hkind⟩] at hparams
    exact ⟨_, w, hrun, hs.seen (.refl _ w) hx hparams (.inl rfl) path⟩
  · by_cases hmem : a ∈ s.objects
    · have hparams := hs.params.of_subset (hs.handles a hmem e hx)
      exact ⟨s, w, collectWithin_marked ha hn' hkind depth hmem,
        hs.seen (.refl _ w) hx hparams (.inl rfl) path⟩
    · have harena : w.arena e.arena = w₀.arena e.arena := by rw [arena, arena, harenas]
      have hunder : w.parametersUnder e = w₀.parametersUnder e := by
        rw [parametersUnder, parametersUnder, harenas]
      obtain ⟨params, w', hrun, hadds, hparams⟩ := collectWithin_unmarked ha hn' hkind depth
        (by rw [hs.adds.operandForms, hplain]) (by rwa [harena]) hmem hs.params
      rw [hunder] at hparams
      exact ⟨_, w', hrun, hs.seen hadds hx hparams (.inr rfl) path⟩

end Handle

theorem collects_admits (hx : w₀.heap.expr? a = none) (hpresent : (w₀.heap.get? a).isSome)
    (hquiet : w₀.heap.Quiet a) : w₀.Admits (Collects w₀) a Met.objects
      fun s => { s with objects := s.objects.insert a } where
  quiet hs := hs.adds.objects.quiet hpresent hquiet
  parts hs := hs.adds.objects.parts a
  known hs := hs.objects a hx
  marked hs := by
    refine ⟨hs.adds, hs.params, fun b hb => ?_, fun b hb x hbx => ?_⟩
    · rw [Std.HashSet.mem_insert, hs.objects b hb, List.mem_cons, beq_iff_eq, eq_comm]
    · rcases Std.HashSet.mem_insert.mp hb with hab | hb
      · rw [← eq_of_beq hab, hx] at hbx
        cases hbx
      · exact hs.handles b hb x hbx
  adds hadds hs :=
    ⟨hs.adds.trans (hadds.mono fun _ => .inl), hs.params.of_adds hadds, hs.objects, hs.handles⟩

theorem Collectable.of_mem_parts (h : w.Collectable a) (ha : w.heap.expr? a = none)
    {part : String × Address} (hpart : part ∈ w.heap.parts a) : w.Collectable part.2 := by
  have hholds := h.searchable.ordinary.holds ha hpart
  have hleads : ∀ {path path' b}, w.heap.Leads path part.2 path' b →
      ∃ path', w.heap.Leads "" a path' b := by
    intro path path' b hb
    obtain ⟨path'', hb⟩ := hb.exists_rebase (joinName "" part.1)
    exact ⟨path'', .part hholds hb⟩
  refine ⟨h.searchable.of_holds hholds, fun path path' b hb => ?_, h.plain,
    fun path path' b e hb ho => ?_⟩
  · obtain ⟨path'', hb⟩ := hleads hb
    exact h.present "" path'' b hb
  · obtain ⟨path'', hb⟩ := hleads hb
    exact h.wellFormed "" path'' b e hb ho

/-- Collecting goes where a tour goes, and once deeper, for the parameters below a handle. -/
theorem collectWithin_collects (h : w₀.Collectable a) (depth : Nat) (path : String) :
    Follows (Collects w₀) (collectWithin (depth + 1) · a) (w₀.tourWithin depth · path a) := by
  induction depth generalizing path a with
  | zero =>
    intro w s t t' hs ht
    cases ht
  | succ depth ih =>
    have hordinary := h.searchable.ordinary
    cases hx : w₀.heap.expr? a with
    | some e =>
      obtain ⟨n, hn⟩ := hordinary.exists_node hx
      have hw := h.wellFormed "" "" a e (.here "" a) (Heap.expr?_eq_some_iff.mp hx)
      exact collects_handle hx h.plain hw hn
    | none =>
      intro w s t t' hs ht
      have hpresent := h.present "" "" a (.here "" a)
      have hadmits := collects_admits hx hpresent (hordinary.quiet hx)
      obtain ⟨s', w', hwalk, hs'⟩ := follows_object
        (fun s part => collectWithin (depth + 1) s part.2) hadmits hx
        (fun part hpart => ih (h.of_mem_parts hx hpart) (joinName path part.1)) w s t t' hs ht
      exact ⟨s', w', (bind_of_ok (asking_handle?_quiet (hadmits.quiet hs))).trans hwalk, hs'⟩

/-! ### The parameters of an object -/

theorem map_handle? {h : Heap} {items : List Address} {es : List Expr}
    (hitems : items.map h.expr? = es.map some) :
    items.map h.handle? = es.map fun e => some (.ofExpr e) := by
  induction items generalizing es with
  | nil =>
    obtain rfl := List.map_eq_nil_iff.mp hitems.symm
    rfl
  | cons b items ih =>
    obtain ⟨e, es, rfl, he, htail⟩ := List.map_eq_cons_iff.mp hitems.symm
    have hhandle : h.handle? b = some (.ofExpr e) := by
      simp only [Heap.handle?, Heap.expr?_eq_some_iff.mp he.symm]
    rw [List.map_cons, hhandle, ih htail.symm, List.map_cons]

theorem filterMap_handle? {h : Heap} {items : List Address} {es : List Expr}
    (hitems : items.map h.expr? = es.map some) :
    items.filterMap h.handle? = es.map .ofExpr := by
  have hid : items.filterMap h.handle? = (items.map h.handle?).filterMap id := by
    rw [List.filterMap_map, Function.id_comp]
  rw [hid, map_handle? hitems, List.filterMap_map]
  exact List.filterMap_eq_map_iff_forall_eq_some.mpr fun e _ => rfl

/-- The parameters of an object are those below the handles that a tour sees, each once. -/
theorem parameters_tour (h : w.Collectable a) : ∃ depth t w', w.tourWithin depth {} "" a = some t ∧
    parameters a w = .ok ((w.collected t).eraseDups.map .ofExpr) w' := by
  have hdepth : w.heap.size < 2 * w.heap.size + 1 := by omega
  obtain ⟨t, ht⟩ := exists_tour "" h.searchable hdepth
  have hstart : w.Collects w {} {} :=
    ⟨.refl _ w, .empty w, fun b _ => by simp, fun b hb => absurd hb (by simp)⟩
  obtain ⟨s, w', hrun, hs⟩ :=
    collectWithin_collects h (2 * w.heap.size + 1) "" w {} {} t hstart ht
  refine ⟨_, t, w', ht, (bind_of_ok (t := w') hrun).trans ?_⟩
  simp only [asking, filterMap_handle? hs.params.items]

/-- A tour sees all handles below which there is a parameter to which the object leads. -/
theorem mem_collected_iff (h : w.Collectable a) {depth : Nat} {t : Tour}
    (ht : w.tourWithin depth {} "" a = some t) (e : Expr) :
    e ∈ w.collected t ↔ w.LeadsToBelow a e := by
  have hunder : ∀ {path b x}, w.heap.Leads "" a path b → w.heap.get? b = some (.expr x) →
      (e ∈ w.parametersUnder x ↔ w.Below x e ∧ w.IsParameter e) := by
    intro path b x hleads ho
    obtain ⟨n, hn⟩ := (h.searchable "" path b hleads).exists_node (Heap.expr?_eq_some_iff.mpr ho)
    exact mem_parametersUnder (h.wellFormed "" path b x hleads ho) hn
  obtain ⟨hsound, hcomplete⟩ := sights_exact h.searchable ht
  rw [collected, List.mem_flatMap]
  constructor
  · rintro ⟨x, hx, he⟩
    obtain ⟨hleads, ho⟩ := hsound x hx
    exact ⟨x.path, x.holder, x.expr, hleads, ho, (hunder hleads ho).mp he⟩
  · rintro ⟨path, b, x, hleads, ho, he⟩
    obtain ⟨path', hseen⟩ := hcomplete path b x hleads ho
    exact ⟨_, hseen, (hunder hleads ho).mpr he⟩

end Workspace

end TensorGraph
