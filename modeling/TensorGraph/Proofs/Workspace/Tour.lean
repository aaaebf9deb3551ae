import TensorGraph.Proofs.Network.Holding
import TensorGraph.Workspace.Discovery

/-!
# Touring objects

A tour of an object goes through all that it holds, from the first part to the last and through each
object once, and sees the handles on the way. Where all objects are ordinary it ends, and the handles
that it has seen are those to which the object leads.
-/

namespace TensorGraph.Workspace

/-- A handle that was seen: the path to it, the object and the expression that this is. -/
structure Sight where
  path : String
  holder : Address
  expr : Expr

/-- What a tour has met: objects, the last one first, and handles, the first one first. -/
structure Tour where
  objects : List Address := []
  sights : List Sight := []

/-- Tours an object, at most `depth` objects deep. -/
def tourWithin (w : Workspace) : Nat → Tour → String → Address → Option Tour
  | 0, _, _, _ => none
  | depth + 1, t, path, a =>
    match w.heap.expr? a with
    | some e => some { t with sights := t.sights ++ [⟨path, a, e⟩] }
    | none =>
      if a ∈ t.objects then some t
      else
        (w.heap.parts a).foldlM
          (fun t part => tourWithin w depth t (joinName path part.1) part.2)
          { t with objects := a :: t.objects }

/-! ### Ordinary objects -/

/-- An object is quiet, and a handle refers to a node. -/
def Ordinary (w : Workspace) (a : Address) : Prop :=
  match w.heap.expr? a with
  | some e => (w.arenas.node? e).isSome
  | none => w.heap.Quiet a

instance (w : Workspace) (a : Address) : Decidable (w.Ordinary a) := by
  unfold Ordinary
  split <;> infer_instance

/-- All that an object leads to is ordinary. -/
def Searchable (w : Workspace) (a : Address) : Prop :=
  ∀ path path' b, w.heap.Leads path a path' b → w.Ordinary b

variable {w : Workspace}

theorem Searchable.ordinary {a : Address} (h : w.Searchable a) : w.Ordinary a :=
  h "" "" a (.here "" a)

theorem Searchable.of_holds {a b : Address} {name : String} (h : w.Searchable a)
    (hb : w.heap.Holds a name b) : w.Searchable b := by
  intro path path' c hc
  obtain ⟨path'', hc⟩ := hc.exists_rebase (joinName "" name)
  exact h "" path'' c (.part hb hc)

theorem Ordinary.quiet {a : Address} (h : w.Ordinary a) (ha : w.heap.expr? a = none) :
    w.heap.Quiet a := by
  simpa only [Ordinary, ha] using h

theorem Ordinary.exists_node {a : Address} {e : Expr} (h : w.Ordinary a)
    (ha : w.heap.expr? a = some e) : ∃ n, w.arenas.node? e = some n := by
  simp only [Ordinary, ha] at h
  exact Option.isSome_iff_exists.mp h

theorem Ordinary.mem_parts {a b : Address} {name : String} (h : w.Ordinary a)
    (hb : w.heap.Holds a name b) : (name, b) ∈ w.heap.parts a := by
  cases hx : w.heap.expr? a with
  | none => exact (Heap.mem_parts (h.quiet hx)).mpr hb
  | some e => exact absurd hb (Heap.not_holds_of_expr (Heap.expr?_eq_some_iff.mp hx))

theorem Ordinary.holds {a : Address} (h : w.Ordinary a) (ha : w.heap.expr? a = none)
    {part : String × Address} (hpart : part ∈ w.heap.parts a) : w.heap.Holds a part.1 part.2 :=
  (Heap.mem_parts (h.quiet ha)).mp hpart

/-- The parts of an object can be searched where it can. -/
theorem Searchable.of_mem_parts {a : Address} (h : w.Searchable a) (ha : w.heap.expr? a = none)
    {part : String × Address} (hpart : part ∈ w.heap.parts a) : w.Searchable part.2 :=
  h.of_holds (h.ordinary.holds ha hpart)

/-- Ordinary objects that hold one another and nothing else lead to one another. -/
theorem mem_of_leads {objects : List Address}
    (hclosed : ∀ b ∈ objects, w.Ordinary b ∧ ∀ part ∈ w.heap.parts b, part.2 ∈ objects)
    {path path' : String} {a b : Address} (ha : a ∈ objects) (hb : w.heap.Leads path a path' b) :
    b ∈ objects := by
  induction hb with
  | here => exact ha
  | part hholds _ ih =>
    obtain ⟨hordinary, hparts⟩ := hclosed _ ha
    exact ih (hparts _ (hordinary.mem_parts hholds))

theorem searchable_of_closed {a : Address} (objects : List Address) (ha : a ∈ objects)
    (hclosed : ∀ b ∈ objects, w.Ordinary b ∧ ∀ part ∈ w.heap.parts b, part.2 ∈ objects) :
    w.Searchable a := fun _ _ b hb =>
  (hclosed b (mem_of_leads hclosed ha hb)).1

/-! ### What a tour does -/

/-- Something was gone through: a handle is seen, and an object is met. -/
def Visited (w : Workspace) (t : Tour) (a : Address) : Prop :=
  match w.heap.expr? a with
  | some e => ∃ path, ⟨path, a, e⟩ ∈ t.sights
  | none => a ∈ t.objects

/-- What a tour of some objects, each with its path, adds to what was met before. -/
structure Explored (w : Workspace) (roots : Parts) (t t' : Tour) : Prop where
  objects : t.objects ⊆ t'.objects
  /-- What is seen are handles to which one of the objects leads. -/
  sights : ∃ more, t'.sights = t.sights ++ more ∧ ∀ x ∈ more, ∃ root ∈ roots,
    w.heap.Leads root.1 root.2 x.path x.holder ∧ w.heap.get? x.holder = some (.expr x.expr)
  visited : ∀ root ∈ roots, w.Visited t' root.2
  /-- All that an object holds that was not met before is gone through. -/
  closed : ∀ b ∈ t'.objects, b ∈ t.objects ∨ ∀ part ∈ w.heap.parts b, w.Visited t' part.2

namespace Explored

variable {roots roots' : Parts} {t t' t'' : Tour} {path : String} {a : Address}

theorem sights_subset (h : w.Explored roots t t') : t.sights ⊆ t'.sights := by
  obtain ⟨more, hmore, -⟩ := h.sights
  rw [hmore]
  exact List.subset_append_left ..

theorem visited_mono (h : w.Explored roots t t') (ha : w.Visited t a) : w.Visited t' a := by
  simp only [Visited] at ha ⊢
  cases hx : w.heap.expr? a with
  | none =>
    rw [hx] at ha
    exact h.objects ha
  | some e =>
    rw [hx] at ha
    obtain ⟨path, hseen⟩ := ha
    exact ⟨path, h.sights_subset hseen⟩

theorem nil (t : Tour) : w.Explored [] t t where
  objects := fun _ hb => hb
  sights := ⟨[], by simp, by simp⟩
  visited := by simp
  closed := fun _ hb => .inl hb

theorem append (h : w.Explored roots t t') (h' : w.Explored roots' t' t'') :
    w.Explored (roots ++ roots') t t'' := by
  obtain ⟨more, hmore, horigin⟩ := h.sights
  obtain ⟨more', hmore', horigin'⟩ := h'.sights
  refine ⟨fun b hb => h'.objects (h.objects hb), ⟨more ++ more', ?_, ?_⟩, ?_, ?_⟩
  · rw [hmore', hmore, List.append_assoc]
  · intro x hx
    rcases List.mem_append.mp hx with hx | hx
    · obtain ⟨root, hroot, hleads⟩ := horigin x hx
      exact ⟨root, List.mem_append_left _ hroot, hleads⟩
    · obtain ⟨root, hroot, hleads⟩ := horigin' x hx
      exact ⟨root, List.mem_append_right _ hroot, hleads⟩
  · intro root hroot
    rcases List.mem_append.mp hroot with hroot | hroot
    · exact h'.visited_mono (h.visited root hroot)
    · exact h'.visited root hroot
  · intro b hb
    rcases h'.closed b hb with hb | hparts
    · rcases h.closed b hb with hb | hparts
      · exact .inl hb
      · exact .inr fun part hpart => h'.visited_mono (hparts part hpart)
    · exact .inr hparts

/-- An object that was met before is left alone. -/
theorem known (ha : w.heap.expr? a = none) (ht : a ∈ t.objects) :
    w.Explored [(path, a)] t t where
  objects := fun _ hb => hb
  sights := ⟨[], by simp, by simp⟩
  visited := by simpa [Visited, ha] using ht
  closed := fun _ hb => .inl hb

/-- An object is gone through when its parts are. -/
theorem through (ha : w.heap.expr? a = none) (hquiet : w.heap.Quiet a)
    (h : w.Explored ((w.heap.parts a).map fun part => (joinName path part.1, part.2))
      { t with objects := a :: t.objects } t') :
    w.Explored [(path, a)] t t' := by
  obtain ⟨more, hmore, horigin⟩ := h.sights
  refine ⟨fun b hb => h.objects (List.mem_cons_of_mem a hb), ⟨more, hmore, ?_⟩, ?_, ?_⟩
  · intro x hx
    obtain ⟨root, hroot, hleads, ho⟩ := horigin x hx
    obtain ⟨part, hpart, rfl⟩ := List.mem_map.mp hroot
    exact ⟨(path, a), List.mem_singleton_self _,
      .part ((Heap.mem_parts hquiet).mp hpart) hleads, ho⟩
  · intro root hroot
    rw [List.mem_singleton.mp hroot]
    simp only [Visited, ha]
    exact h.objects (List.mem_cons_self ..)
  · intro b hb
    rcases h.closed b hb with hb | hparts
    · rcases List.mem_cons.mp hb with rfl | hb
      · refine .inr fun part hpart => ?_
        exact h.visited (joinName path part.1, part.2) (List.mem_map.mpr ⟨part, hpart, rfl⟩)
      · exact .inl hb
    · exact .inr hparts

/-- A handle is gone through when it is seen. -/
theorem handle {e : Expr} (ha : w.heap.expr? a = some e) :
    w.Explored [(path, a)] t { t with sights := t.sights ++ [⟨path, a, e⟩] } where
  objects := fun _ hb => hb
  sights := by
    refine ⟨[⟨path, a, e⟩], rfl, fun x hx => ?_⟩
    rw [List.mem_singleton.mp hx]
    exact ⟨(path, a), List.mem_singleton_self _, .here path a, Heap.expr?_eq_some_iff.mp ha⟩
  visited := by simp [Visited, ha]
  closed := fun _ hb => .inl hb

end Explored

/-- Parts are gone through one after the other. -/
theorem foldlM_explored {depth : Nat} {path : String} {parts : Parts}
    (h : ∀ part ∈ parts, ∀ t t',
      w.tourWithin depth t (joinName path part.1) part.2 = some t' →
      w.Explored [(joinName path part.1, part.2)] t t') {t t' : Tour}
    (ht : parts.foldlM (fun t part => w.tourWithin depth t (joinName path part.1) part.2) t =
      some t') :
    w.Explored (parts.map fun part => (joinName path part.1, part.2)) t t' := by
  induction parts generalizing t with
  | nil =>
    cases ht
    exact .nil _
  | cons part parts ih =>
    rw [List.foldlM_cons] at ht
    obtain ⟨t₁, ht₁, ht⟩ := Option.bind_eq_some_iff.mp ht
    have hfirst := h part (List.mem_cons_self ..) _ t₁ ht₁
    exact hfirst.append (ih (fun q hq => h q (List.mem_cons_of_mem part hq)) ht)

/-- A tour goes through an object and adds to what was met before. -/
theorem tourWithin_explored {depth : Nat} {t t' : Tour} {path : String} {a : Address}
    (h : w.Searchable a) (ht : w.tourWithin depth t path a = some t') :
    w.Explored [(path, a)] t t' := by
  induction depth generalizing t t' path a with
  | zero => cases ht
  | succ depth ih =>
    simp only [tourWithin] at ht
    cases hx : w.heap.expr? a with
    | some e =>
      rw [hx] at ht
      cases ht
      exact .handle hx
    | none =>
      rw [hx] at ht
      dsimp only at ht
      split at ht
      · rename_i hmem
        cases ht
        exact .known hx hmem
      · refine .through hx (h.ordinary.quiet hx) (foldlM_explored (fun part hpart t t' ht => ?_) ht)
        exact ih (h.of_mem_parts hx hpart) ht

/-! ### The end of a tour -/

/-- The objects that a tour has not met. -/
def unmet (w : Workspace) (t : Tour) : List Address :=
  (List.range w.heap.size).filter fun a => decide (a ∉ t.objects)

theorem length_unmet_le {t t' : Tour} (h : t.objects ⊆ t'.objects) :
    (w.unmet t').length ≤ (w.unmet t).length := by
  rw [unmet, unmet, ← List.countP_eq_length_filter, ← List.countP_eq_length_filter]
  refine List.countP_mono_left fun a _ ha => ?_
  simp only [decide_eq_true_eq] at ha ⊢
  exact fun hmem => ha (h hmem)

theorem length_unmet_cons {t : Tour} {a : Address} (hsize : a < w.heap.size)
    (ha : a ∉ t.objects) :
    (w.unmet { t with objects := a :: t.objects }).length < (w.unmet t).length := by
  have hfilter : w.unmet { t with objects := a :: t.objects } =
      (w.unmet t).filter fun b => decide (b ≠ a) := by
    rw [unmet, unmet, List.filter_filter]
    refine List.filter_congr fun b _ => ?_
    simp
  rw [hfilter, List.length_filter_lt_length_iff_exists]
  exact ⟨a, by simp [unmet, hsize, ha], by simp⟩

theorem parts_of_absent {h : Heap} {a : Address} (ha : h.size ≤ a) : h.parts a = [] := by
  have hbare : h.IsBareAt a := .inl (.inl (Array.getElem?_eq_none ha))
  rw [Heap.parts, Heap.tells, Heap.contents?_of_bare hbare, Heap.attributesOf_of_bare hbare]
  rfl

/-- Parts can be toured one after the other when each of them can. -/
theorem exists_foldlM_tourWithin {depth : Nat} {path : String} {parts : Parts}
    (h : ∀ part ∈ parts, w.Searchable part.2)
    (htour : ∀ part ∈ parts, ∀ t : Tour, (w.unmet t).length < depth →
      ∃ t', w.tourWithin depth t (joinName path part.1) part.2 = some t') {t : Tour}
    (hdepth : (w.unmet t).length < depth) :
    ∃ t', parts.foldlM (fun t part => w.tourWithin depth t (joinName path part.1) part.2) t =
      some t' := by
  induction parts generalizing t with
  | nil => exact ⟨t, rfl⟩
  | cons part parts ih =>
    have hmem := List.mem_cons_self (a := part) (l := parts)
    obtain ⟨t₁, ht₁⟩ := htour part hmem t hdepth
    -- what was met stays met
    have hless : (w.unmet t₁).length < depth :=
      Nat.lt_of_le_of_lt (length_unmet_le (tourWithin_explored (h part hmem) ht₁).objects) hdepth
    rw [List.foldlM_cons, ht₁]
    exact ih (fun q hq => h q (List.mem_cons_of_mem part hq))
      (fun q hq => htour q (List.mem_cons_of_mem part hq)) hless

/-- A tour that may go deeper than there are objects left ends. -/
theorem exists_tourWithin {depth : Nat} {t : Tour} (path : String) {a : Address}
    (h : w.Searchable a) (hdepth : (w.unmet t).length < depth) :
    ∃ t', w.tourWithin depth t path a = some t' := by
  induction depth generalizing t path a with
  | zero => omega
  | succ depth ih =>
    simp only [tourWithin]
    cases hx : w.heap.expr? a with
    | some e => exact ⟨_, rfl⟩
    | none =>
      dsimp only
      split
      · exact ⟨t, rfl⟩
      · rename_i hmem
        by_cases hsize : a < w.heap.size
        · have hless := length_unmet_cons hsize hmem
          have hparts : ∀ part ∈ w.heap.parts a, w.Searchable part.2 :=
            fun part hpart => h.of_mem_parts hx hpart
          exact exists_foldlM_tourWithin hparts
            (fun part hpart t ht => ih (joinName path part.1) (hparts part hpart) ht) (by omega)
        · rw [parts_of_absent (Nat.not_lt.mp hsize)]
          exact ⟨_, rfl⟩

/-- A tour from the beginning ends when it may go deeper than there are objects. -/
theorem exists_tour {depth : Nat} (path : String) {a : Address} (h : w.Searchable a)
    (hdepth : w.heap.size < depth) : ∃ t, w.tourWithin depth {} path a = some t := by
  have hlength : (w.unmet {}).length ≤ w.heap.size := by
    rw [unmet]
    exact Nat.le_trans (List.length_filter_le ..) (Nat.le_of_eq List.length_range)
  exact exists_tourWithin path h (Nat.lt_of_le_of_lt hlength hdepth)

/-! ### Exactness -/

/-- An object leads to what a tour has gone through. -/
theorem Explored.visited_of_leads {t : Tour} {path path' : String} {a b : Address}
    (h : w.Searchable a) (ht : w.Explored [(path, a)] {} t) (hb : w.heap.Leads path a path' b) :
    w.Visited t b := by
  have hall : ∀ {path path' : String} {a b : Address}, w.heap.Leads path a path' b →
      w.Searchable a → w.Visited t a → w.Visited t b := by
    intro path path' a b hb h ha
    induction hb with
    | here => exact ha
    | @part path path' name a b c hholds _ ih =>
      have hne := hholds.expr?_eq_none
      simp only [Visited, hne] at ha
      have hclosed := (ht.closed a ha).resolve_left (by simp)
      have hmem := h.ordinary.mem_parts hholds
      exact ih (h.of_holds hholds) (hclosed _ hmem)
  exact hall hb h (ht.visited _ (List.mem_singleton_self _))

/-- The handles that a tour from the beginning has seen are those to which the object leads. -/
theorem sights_exact {depth : Nat} {t : Tour} {path : String} {a : Address} (h : w.Searchable a)
    (ht : w.tourWithin depth {} path a = some t) :
    (∀ x ∈ t.sights, w.heap.Leads path a x.path x.holder ∧
      w.heap.get? x.holder = some (.expr x.expr)) ∧
    ∀ path' b e, w.heap.Leads path a path' b → w.heap.get? b = some (.expr e) →
      ∃ path'', ⟨path'', b, e⟩ ∈ t.sights := by
  have hexplored := tourWithin_explored h ht
  constructor
  · intro x hx
    obtain ⟨more, hmore, horigin⟩ := hexplored.sights
    obtain ⟨root, hroot, hleads⟩ := horigin x (by simpa [hmore] using hx)
    rw [List.mem_singleton.mp hroot] at hleads
    exact hleads
  · intro path' b e hleads ho
    have hvisited := hexplored.visited_of_leads h hleads
    simpa only [Visited, Heap.expr?_eq_some_iff.mpr ho] using hvisited

end TensorGraph.Workspace
