import TensorGraph.Proofs.Table
import TensorGraph.Proofs.Workspace.Search
import TensorGraph.Proofs.Workspace.Walking

/-!
# Naming parameters

The parameters of an object by name are what a search of the object finds, put into a table one
after the other.
-/

namespace TensorGraph.Workspace

/-- The table of what was found. -/
def nameTable (found : List Found) : Table Label Address :=
  .ofList (found.map fun f => (.text f.name, f.holder))

/-- A naming stands for what a search has met. -/
structure Tracks (s : Naming) (p : Search) : Prop where
  entries : s.names.entries = nameTable p.found
  codes : s.names.codes = []
  params : ∀ e, e ∈ s.met.params.exprs ↔ e ∈ p.found.map Found.param
  handles : s.met.params.codes = []
  objects : ∀ b, b ∈ s.met.objects ↔ b ∈ p.objects

variable {w w₀ : Workspace} {a : Address} {e : Expr} {n : Node}

/-! ### The name of a parameter -/

/-- The own name of a node is stored as a value. -/
theorem getAttribute_name (ha : w.heap.get? a = some (.expr e)) (hn : w.arenas.node? e = some n) :
    ∃ w', getAttribute call a "name" w = .ok w.heap.size w' ∧ w.Adds Object.IsValue w' ∧
      w'.heap.get? w.heap.size = some (.value (n.name.elim .none .text)) := by
  have hv : ∀ h, Heap.ofValue (n.name.elim .none .text) h =
      h.alloc (.value (n.name.elim .none .text)) := by
    intro h
    cases n.name <;> rfl
  obtain ⟨w', hw', hadds, hvalue⟩ := newValue_ok hv w
  refine ⟨w', ?_, hadds, hvalue⟩
  have hhandle : w.heap.handle? a = some (.ofExpr e) := by simp only [Heap.handle?, ha]
  have hreferent : referent call (.ofExpr e) w = .ok (.node e n) w :=
    map_of_ok (getNode_ok hn) (Referent.node e)
  have hpart : partWithin call "name" (w.heap.size + 1) (.ofExpr e) w = .ok w.heap.size w' := by
    simp only [partWithin]
    refine (bind_of_ok hreferent).trans ?_
    exact bind_of_ok (t := w') hw'
  simp only [getAttribute, asking, Bind.bind, EStateM.bind, hhandle]
  exact hpart

theorem indexText_expr (ha : w.heap.get? a = some (.expr e)) :
    ∃ w', w.Adds Object.IsValue w' ∧ indexText a w = .ok (toString e.index) w' := by
  obtain ⟨w', hw', hadds, hvalue⟩ := newValue_ok (v := .int e.index) (fun _ => rfl) w
  have hhandle : w.heap.handle? a = some (.ofExpr e) := by simp only [Heap.handle?, ha]
  have hindex : getAttribute call a "index" w = .ok w.heap.size w' := by
    simp only [getAttribute, asking, Bind.bind, EStateM.bind, hhandle]
    exact hw'
  refine ⟨w', hadds, (bind_of_ok hindex).trans ?_⟩
  simp only [object, Bind.bind, EStateM.bind, hvalue]
  rfl

theorem labelOf_text {s : String} (ha : w.heap.get? a = some (.value (.text s))) :
    labelOf a w = .ok (.text s) w := by
  simp only [labelOf, asking, Bind.bind, EStateM.bind, Heap.atom, ha, Atom.text?]
  rfl

/-- A name counts unless it is empty. -/
theorem isTrue_name (name : Option String) :
    (name.elim Value.none .text).isTrue = !(name.getD "").isEmpty := by
  cases name with
  | none => rfl
  | some s =>
    by_cases hs : s = ""
    · subst hs
      rfl
    · simp [Value.isTrue, Value.signature, hs]

theorem isNamed_text (path : String) (w : Workspace) :
    isNamed (.text path) w = .ok (!path.isEmpty) w := rfl

/-- The own name of a parameter stands for an empty path. -/
theorem parameterName_of_name (ha : w.heap.get? a = some (.expr e)) (hn : w.arenas.node? e = some n)
    {path : String} (hpath : path.isEmpty = true) (hname : (n.name.getD "").isEmpty = false) :
    ∃ w', w.Adds Object.IsValue w' ∧
      parameterName (.text path) a w = .ok (.text (n.name.getD "")) w' := by
  have hnamed := isNamed_text path w
  rw [hpath, Bool.not_true] at hnamed
  obtain ⟨w₁, hown, hadds, hvalue⟩ := getAttribute_name ha hn
  have htrue := isTrue_value hvalue
  rw [isTrue_name, hname, Bool.not_false] at htrue
  have htext : n.name.elim Value.none .text = .text (n.name.getD "") := by
    cases hs : n.name with
    | some s => rfl
    | none =>
      rw [hs] at hname
      cases hname
  rw [htext] at hvalue
  exact ⟨w₁, hadds, (bind_of_ok hnamed).trans ((bind_of_ok hown).trans
    ((bind_of_ok htrue).trans (labelOf_text hvalue)))⟩

/-- Its index stands for an empty path and an empty name. -/
theorem parameterName_of_index (ha : w.heap.get? a = some (.expr e))
    (hn : w.arenas.node? e = some n) {path : String} (hpath : path.isEmpty = true)
    (hname : (n.name.getD "").isEmpty = true) :
    ∃ w', w.Adds Object.IsValue w' ∧
      parameterName (.text path) a w = .ok (.text ("param" ++ toString e.index)) w' := by
  have hnamed := isNamed_text path w
  rw [hpath, Bool.not_true] at hnamed
  obtain ⟨w₁, hown, hadds₁, hvalue₁⟩ := getAttribute_name ha hn
  have htrue := isTrue_value hvalue₁
  rw [isTrue_name, hname, Bool.not_true] at htrue
  have ha₁ := hadds₁.objects.get?_eq ha
  obtain ⟨w₂, hadds₂, hindex⟩ := indexText_expr ha₁
  exact ⟨w₂, hadds₁.trans hadds₂, (bind_of_ok hnamed).trans ((bind_of_ok hown).trans
    ((bind_of_ok htrue).trans (bind_of_ok hindex)))⟩

theorem parameterName_ok (ha : w.heap.get? a = some (.expr e)) (hn : w.arenas.node? e = some n)
    (path : String) :
    ∃ w', w.Adds Object.IsValue w' ∧
      parameterName (.text path) a w = .ok (.text (nameOf path e n)) w' := by
  simp only [nameOf]
  cases hpath : path.isEmpty with
  | false =>
    have hnamed := isNamed_text path w
    rw [hpath, Bool.not_false] at hnamed
    exact ⟨w, .refl _ w, bind_of_ok hnamed⟩
  | true =>
    cases hname : (n.name.getD "").isEmpty with
    | false => exact parameterName_of_name ha hn hpath hname
    | true => exact parameterName_of_index ha hn hpath hname

/-! ### Handles -/

/-- A parameter under its name, and that it was met. -/
theorem Tracks.found {s : Naming} {p : Search} (hs : Tracks s p) (name : String) (a : Address)
    (e : Expr) :
    Tracks
      { names := { s.names with entries := s.names.entries.insert (.text name) a }
        met := { s.met with params := { s.met.params with
          exprs := s.met.params.exprs.insert e, items := a :: s.met.params.items } } }
      { p with found := p.found ++ [⟨name, a, e⟩] } where
  entries := by
    dsimp only
    rw [hs.entries, nameTable, nameTable, List.map_append, List.map_singleton, Table.ofList_concat]
  codes := hs.codes
  params e' := by
    dsimp only
    rw [Std.HashSet.mem_insert, hs.params, List.map_append, List.map_singleton, List.mem_append,
      List.mem_singleton, beq_iff_eq, or_comm, eq_comm]
  handles := hs.handles
  objects := hs.objects

theorem nameHandle_tracks {s : Naming} {p : Search} (hs : Tracks s p)
    (ha : w.heap.get? a = some (.expr e)) (hn : w.arenas.node? e = some n) (path : String) :
    ∃ s' w', w.Adds Object.IsValue w' ∧ nameHandle s (.text path) a w = .ok s' w' ∧
      Tracks s' (w.meet p path a e) := by
  have hkind := isOfKind_param ha hn
  have hhas := HandleSet.has_expr ha hs.handles
  rcases w.meet_cases p path a e with ⟨hsame, hknown⟩ | ⟨n', hn', hparam, hnew, hadd⟩
  · rw [hsame]
    by_cases hparam : n.kind = .param
    · rw [decide_eq_true hparam] at hkind
      rw [Std.HashSet.mem_iff_contains.mp ((hs.params e).mpr (hknown n hn hparam))] at hhas
      exact ⟨s, w, .refl _ w, (bind_of_ok hkind).trans (bind_of_ok hhas), hs⟩
    · rw [decide_eq_false hparam] at hkind
      exact ⟨s, w, .refl _ w, bind_of_ok hkind, hs⟩
  · rw [hn] at hn'
    cases hn'
    rw [decide_eq_true hparam] at hkind
    have hmem : e ∉ s.met.params.exprs := mt (hs.params e).mp hnew
    rw [Std.HashSet.mem_iff_contains, Bool.not_eq_true] at hmem
    rw [hmem] at hhas
    have hpush := HandleSet.push_expr (s := s.met.params) ha
    obtain ⟨w', hadds, hname⟩ := parameterName_ok ha hn path
    have hinsert := s.names.insert_text (nameOf path e n) a w' hs.codes
    rw [hadd]
    exact ⟨_, w', hadds, (bind_of_ok hkind).trans ((bind_of_ok hhas).trans
      ((bind_of_ok hpush).trans ((bind_of_ok hname).trans (bind_of_ok hinsert)))),
      hs.found (nameOf path e n) a e⟩

/-! ### Objects -/

/-- Noting that an object was met. -/
theorem Tracks.cons {s : Naming} {p : Search} (hs : Tracks s p) (a : Address) :
    Tracks { s with met := { s.met with objects := s.met.objects.insert a } }
      { p with objects := a :: p.objects } where
  entries := hs.entries
  codes := hs.codes
  params := hs.params
  handles := hs.handles
  objects b := by
    rw [Std.HashSet.mem_insert, hs.objects, List.mem_cons, beq_iff_eq, eq_comm]

theorem tracks_empty : Tracks {} {} where
  entries := rfl
  codes := rfl
  params e := by simp
  handles := rfl
  objects b := by simp

/-- A naming has met what a tour has, and no more than values were stored. -/
def Knows (w₀ w : Workspace) (s : Naming) (t : Tour) : Prop :=
  w₀.Adds Object.IsValue w ∧ Tracks s (w₀.searchOf t)

/-- Naming an object goes where a tour of it goes. -/
def Names (w₀ : Workspace) (depth : Nat) (path : String) (a : Address) : Prop :=
  Follows (Knows w₀) (nameWithin depth · (.text path) a) (w₀.tourWithin depth · path a)

theorem names_handle {depth : Nat} {path : String} (hx : w₀.heap.expr? a = some e)
    (hn : w₀.arenas.node? e = some n) : w₀.Names (depth + 1) path a := by
  rintro w s t t' ⟨hadds, hs⟩ ht
  simp only [tourWithin, hx] at ht
  cases ht
  have ha : w.heap.get? a = some (.expr e) :=
    hadds.objects.get?_eq (Heap.expr?_eq_some_iff.mp hx)
  have hmeet : w.meet (w₀.searchOf t) path a e = w₀.meet (w₀.searchOf t) path a e := by
    simp only [meet, hadds.arenas]
  rw [← hadds.arenas] at hn
  obtain ⟨s', w', hadds', hname, hs'⟩ := nameHandle_tracks hs ha hn path
  rw [hmeet, meet_searchOf] at hs'
  exact ⟨s', w', (bind_of_ok (asking_handle?_expr ha)).trans hname, hadds.trans hadds', hs'⟩

theorem knows_admits (hquiet : w₀.heap.Quiet a) : w₀.Admits (Knows w₀) a
    (fun s : Naming => s.met.objects)
    fun s => { s with met := { s.met with objects := s.met.objects.insert a } } where
  quiet := fun ⟨hadds, _⟩ => hadds.objects.quiet_of_values hquiet
  parts := fun ⟨hadds, _⟩ => hadds.objects.bare.parts a
  known := fun ⟨_, hs⟩ => hs.objects a
  marked := fun ⟨hadds, hs⟩ => ⟨hadds, hs.cons a⟩
  adds := fun hadds' ⟨hadds, hs⟩ => ⟨hadds.trans hadds', hs⟩

theorem names_object {depth : Nat} {path : String} (hx : w₀.heap.expr? a = none)
    (hquiet : w₀.heap.Quiet a)
    (hnames : ∀ part ∈ w₀.heap.parts a, w₀.Names depth (joinName path part.1) part.2) :
    w₀.Names (depth + 1) path a := by
  intro w s t t' hs ht
  have hasking := asking_handle?_quiet (hs.1.objects.quiet_of_values hquiet)
  obtain ⟨s', w', hwalk, hs'⟩ := follows_object
    (fun s part => do nameWithin depth s (← labelBelow (.text path) part.1) part.2)
    (knows_admits hquiet) hx hnames w s t t' hs ht
  exact ⟨s', w', (bind_of_ok hasking).trans hwalk, hs'⟩

/-- Where all that an object leads to is ordinary, naming goes where a tour goes. -/
theorem nameWithin_names {depth : Nat} {path : String} (h : w₀.Searchable a) :
    w₀.Names depth path a := by
  induction depth generalizing path a with
  | zero =>
    intro w s t t' hs ht
    cases ht
  | succ depth ih =>
    have hordinary := h.ordinary
    cases hx : w₀.heap.expr? a with
    | some e =>
      obtain ⟨n, hn⟩ := hordinary.exists_node hx
      exact names_handle hx hn
    | none =>
      exact names_object hx (hordinary.quiet hx) fun part hpart => ih (h.of_mem_parts hx hpart)

/-- The parameters of an object by name are what a search finds, in a table. -/
theorem namedParameters_search (h : w.Searchable a) (path : String) :
    ∃ t w', w.Adds Object.IsValue w' ∧ namedParameters a (.text path) w = .ok t w' ∧ t.codes = [] ∧
      t.entries = nameTable (w.search path a) := by
  obtain ⟨t, ht, hsearch⟩ := exists_tour_search h path
  obtain ⟨s, w', hname, hadds, hs⟩ :=
    nameWithin_names h w {} {} t ⟨.refl _ w, tracks_empty⟩ ht
  refine ⟨s.names, w', hadds, bind_of_ok hname, hs.codes, ?_⟩
  rw [hsearch]
  exact hs.entries

end TensorGraph.Workspace
