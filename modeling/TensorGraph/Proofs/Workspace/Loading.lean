import TensorGraph.Proofs.Network.Loading
import TensorGraph.Proofs.Workspace.StateDict
import TensorGraph.Workspace.Objects

/-!
# Loading the parameters of an object

Whatever the object is, loading takes entries from the first on, and those that it took before it
fails stay. The parameters of ordinary objects are found by name, and an entry goes into the buffer
that the context has under the number of the parameter with its name. The arena of a parameter is
not looked at, so the buffer is the one of the parameter only where the context works on that arena.
-/

namespace TensorGraph

/-- The buffer that a context assigned to a parameter. It has none for one of another arena. -/
def Context.assigned? (s : Context) (e : Expr) : Option Nat :=
  if s.arena = some e.arena then s.values[e.index]? else none

namespace Workspace

/-! ### Entries under texts -/

/-- Entries under texts. -/
def byText {β : Type} (entries : List (String × β)) : List (Label × β) :=
  entries.map fun e => (.text e.1, e.2)

theorem byText_nodup_iff {β : Type} {entries : List (String × β)} :
    ((byText entries).map Prod.fst).Nodup ↔ (entries.map Prod.fst).Nodup := by
  have hmap : (byText entries).map Prod.fst = (entries.map Prod.fst).map Label.text := by
    rw [byText, List.map_map, List.map_map]
    rfl
  rw [hmap]
  exact List.nodup_map_iff fun s s' => Label.text.inj

theorem mapM_map_eq_some {α β γ : Type} {g : α → β} {f : β → Option γ} {k : α → γ} {xs : List α}
    (h : ∀ x ∈ xs, f (g x) = some (k x)) : (xs.map g).mapM f = some (xs.map k) := by
  induction xs with
  | nil => rfl
  | cons x xs ih =>
    have hx := h x (List.mem_cons_self ..)
    have hrest := ih fun y hy => h y (List.mem_cons_of_mem x hy)
    simp [List.mapM_cons, hx, hrest]

theorem eq_map_of_mapM_eq_some {α β : Type} {f : α → Option β} {g : β → α} {xs : List α}
    {ys : List β} (hf : ∀ x y, f x = some y → x = g y) (h : xs.mapM f = some ys) :
    xs = ys.map g := by
  induction xs generalizing ys with
  | nil =>
    cases h
    rfl
  | cons x xs ih =>
    rw [List.mapM_cons] at h
    obtain ⟨y, hy, h⟩ := Option.bind_eq_some_iff.mp h
    obtain ⟨zs, hzs, h⟩ := Option.bind_eq_some_iff.mp h
    cases h
    rw [List.map_cons, ← hf x y hy, ← ih hzs]

theorem texts?_eq_some_iff {β : Type} {t : Labelled β} {texts : List (String × β)} :
    t.texts? = some texts ↔ t.entries.toList = byText texts := by
  constructor
  · refine eq_map_of_mapM_eq_some fun x y hy => ?_
    obtain ⟨l, d⟩ := x
    cases l with
    | text s =>
      cases hy
      rfl
    | object b => cases hy
  · intro hlist
    simp only [Labelled.texts?]
    rw [hlist, byText, mapM_map_eq_some (k := id), List.map_id]
    intro e _
    rfl

theorem plainState?_eq_some_iff {state : Labelled Data} {table : Table String Data} :
    plainState? state = some table ↔
      ∃ texts, state.entries.toList = byText texts ∧ table = .ofList texts := by
  simp only [plainState?]
  rw [Option.map_eq_some_iff]
  constructor
  · rintro ⟨texts, htexts, rfl⟩
    exact ⟨texts, texts?_eq_some_iff.mp htexts, rfl⟩
  · rintro ⟨texts, htexts, rfl⟩
    exact ⟨texts, texts?_eq_some_iff.mpr htexts, rfl⟩

theorem plainParameters?_eq_some {h : Heap} {params : Labelled Address} {rows : Table String Int}
    (hrows : plainParameters? h params = some rows) : ∃ numbered, rows = .ofList numbered := by
  obtain ⟨texts, -, hrows⟩ := Option.bind_eq_some_iff.mp hrows
  obtain ⟨numbered, -, hrows⟩ := Option.bind_eq_some_iff.mp hrows
  cases hrows
  exact ⟨numbered, rfl⟩

/-- What goes by texts, for labels. -/
def onTexts {α : Type} (f : String → Option α) : Label → Option α
  | .text s => f s
  | .object _ => none

theorem loadsBefore_byText {place : String → Option (Option Nat)} {entries : List (String × Data)}
    {bufs bufs' : Buffers} {outcome : Except Error Unit}
    (h : Buffers.LoadsBefore place [] entries bufs bufs' outcome) :
    Buffers.LoadsBefore (onTexts place) [] (byText entries) bufs bufs' outcome :=
  h.map fun _ => rfl

/-! ### Any object -/

variable {w w' : Workspace} {a : Address} {c : ContextId} {strict : Bool} {state : Labelled Data}
  {bufs : Buffers} {params : Labelled Address}

theorem attempt_ok {α : Type} (x : Work α) (w : Workspace) :
    ∃ r w', attempt x w = .ok r w' := by
  simp only [attempt]
  cases x w with
  | ok v w' => exact ⟨.ok v, w', rfl⟩
  | error e w' => exact ⟨.error e, w', rfl⟩

/-- The buffer for each entry is asked for when it is its turn. -/
theorem loadEntries_before (params : Labelled Address) (c : ContextId) (strict : Bool)
    (w : Workspace) {entries : List (Label × Data)} (hkeys : (entries.map Prod.fst).Nodup)
    {bufs₀ : Buffers} {before : List (Nat × Data)} (hbefore : Buffers.Holding bufs₀ bufs before) :
    ∃ outcome bufs' w', loadEntries params c strict entries bufs w = .ok (outcome, bufs') w' ∧
      ∃ place, Buffers.LoadsBefore place before entries bufs₀ bufs' outcome := by
  induction entries generalizing w bufs before with
  | nil =>
    refine ⟨.ok (), bufs, w, rfl, fun _ => none, [], [], rfl, ?_, fun _ => rfl⟩
    simpa [Buffers.uploads] using hbefore
  | cons entry entries ih =>
    obtain ⟨l, d⟩ := entry
    obtain ⟨hfresh, hkeys⟩ := List.nodup_cons.mp hkeys
    cases hasked : bufferFor params c strict l w with
    | error e w₁ =>
      have hattempt : attempt (bufferFor params c strict l) w = .ok (.error e) w₁ := by
        simp only [attempt, hasked]
      exact ⟨.error e, bufs, w₁, bind_of_ok hattempt, fun _ => none,
        Buffers.loadsBefore_error hbefore e⟩
    | ok o w₁ =>
      have hattempt : attempt (bufferFor params c strict l) w = .ok (.ok o) w₁ := by
        simp only [attempt, hasked]
      -- the rest is loaded after this entry
      have hnext : ∀ bufs₁, Buffers.Holding bufs₀ bufs₁ (before ++ (o.map (·, d)).toList) →
          ∃ outcome bufs' w',
            loadEntries params c strict entries bufs₁ w₁ = .ok (outcome, bufs') w' ∧
            ∃ place, Buffers.LoadsBefore place before ((l, d) :: entries) bufs₀ bufs' outcome := by
        intro bufs₁ hholding
        obtain ⟨outcome, bufs', w', hrun, place, hloads⟩ := ih w₁ hkeys hholding
        exact ⟨outcome, bufs', w', hrun, _, hloads.cons hfresh⟩
      cases o with
      | none =>
        obtain ⟨outcome, bufs', w', hrun, hloads⟩ := hnext bufs (by simpa using hbefore)
        exact ⟨outcome, bufs', w', (bind_of_ok hattempt).trans hrun, hloads⟩
      | some id =>
        cases hload : bufs.loadInto id d with
        | error e =>
          refine ⟨.error e, bufs, w₁, (bind_of_ok hattempt).trans ?_, fun _ => none,
            Buffers.loadsBefore_error hbefore e⟩
          simp only [hload]
          rfl
        | ok bufs₁ =>
          obtain ⟨outcome, bufs', w', hrun, hloads⟩ := hnext bufs₁ (hbefore.loadInto hload)
          refine ⟨outcome, bufs', w', (bind_of_ok hattempt).trans ?_, hloads⟩
          simp only [hload]
          exact hrun

theorem loadEach_before {entries : List (Label × Data)} (hkeys : (entries.map Prod.fst).Nodup)
    (hstate : state.entries = .ofList entries) :
    ∃ outcome bufs' w', loadEach params c strict state bufs w = .ok (outcome, bufs') w' ∧
      ∃ place, Buffers.LoadsBefore place [] entries bufs bufs' outcome := by
  obtain ⟨outcome, bufs', w', hrun, place, hloads⟩ :=
    loadEntries_before params c strict w hkeys (Buffers.holding_nil bufs)
  rw [← Table.toList_ofList_of_nodup hkeys, ← hstate] at hrun
  cases outcome with
  | error e => exact ⟨.error e, bufs', w', bind_of_ok hrun, place, hloads⟩
  | ok _ =>
    cases strict with
    | false => exact ⟨.ok (), bufs', w', bind_of_ok hrun, place, hloads⟩
    | true =>
      obtain ⟨r, w'', hchecked⟩ := attempt_ok (checkMissing params state) w'
      exact ⟨r, bufs', w'', (bind_of_ok hrun).trans (bind_of_ok hchecked), place, hloads.of_ok r⟩

theorem load_of_plain {rows : Table String Int} {table : Table String Data}
    (hnames : namedParameters a (.text "") w = .ok params w')
    (hparams : plainParameters? w'.heap params = some rows)
    (hstate : plainState? state = some table) (hcodes : (w'.evaluator c).ties.codes = []) :
    load a c strict state bufs w =
      match Buffers.load rows (w'.evaluator c).context.values strict table bufs with
      | .ok () bufs => .ok (.ok (), bufs) w'
      | .error e bufs => .ok (.error e, bufs) w' := by
  have hcontext : contextOf c id w' = .ok (w'.evaluator c) w' := rfl
  have hasked : asking (fun h => plainParameters? h params) w' = .ok (some rows) w' := by
    simp only [asking, hparams]
  refine (bind_of_ok hnames).trans ((bind_of_ok hcontext).trans ((bind_of_ok hasked).trans ?_))
  simp only [hstate, hcodes, List.isEmpty_nil]
  cases Buffers.load rows (w'.evaluator c).context.values strict table bufs <;> rfl

theorem load_of_labels (hnames : namedParameters a (.text "") w = .ok params w')
    (h : plainParameters? w'.heap params = none ∨ plainState? state = none ∨
      (w'.evaluator c).ties.codes ≠ []) :
    load a c strict state bufs w = loadEach params c strict state bufs w' := by
  have hcontext : contextOf c id w' = .ok (w'.evaluator c) w' := rfl
  have hasked : asking (fun h => plainParameters? h params) w' =
      .ok (plainParameters? w'.heap params) w' := rfl
  refine (bind_of_ok hnames).trans ((bind_of_ok hcontext).trans ((bind_of_ok hasked).trans ?_))
  rcases h with h | h | h
  · simp only [h]
  · simp only [h]
    cases plainParameters? w'.heap params <;> rfl
  · have hcodes : (w'.evaluator c).ties.codes.isEmpty = false := by simpa using h
    simp only [hcodes]
    cases plainParameters? w'.heap params <;> cases plainState? state <;> rfl

theorem load_before {entries : List (Label × Data)} (hkeys : (entries.map Prod.fst).Nodup)
    (hstate : state.entries = .ofList entries)
    (hnames : namedParameters a (.text "") w = .ok params w') :
    ∃ outcome bufs' w', load a c strict state bufs w = .ok (outcome, bufs') w' ∧
      ∃ place, Buffers.LoadsBefore place [] entries bufs bufs' outcome := by
  by_cases hlabels : plainParameters? w'.heap params = none ∨ plainState? state = none ∨
      (w'.evaluator c).ties.codes ≠ []
  · rw [load_of_labels hnames hlabels]
    exact loadEach_before hkeys hstate
  · simp only [not_or, Option.ne_none_iff_exists', not_not] at hlabels
    obtain ⟨⟨rows, hrows⟩, ⟨table, htable⟩, hcodes⟩ := hlabels
    obtain ⟨numbered, rfl⟩ := plainParameters?_eq_some hrows
    obtain ⟨texts, htexts, rfl⟩ := plainState?_eq_some_iff.mp htable
    rw [hstate, Table.toList_ofList_of_nodup hkeys] at htexts
    subst htexts
    obtain ⟨bufs', done, outcome, hloads, hrun⟩ := Buffers.load_loads
      (w'.evaluator c).context.values strict numbered (byText_nodup_iff.mp hkeys) bufs
    have hbefore := loadsBefore_byText hloads.before
    rw [load_of_plain hnames hrows htable hcodes, hrun]
    cases outcome with
    | ok _ => exact ⟨.ok (), bufs', w', rfl, _, hbefore⟩
    | error e => exact ⟨.error e, bufs', w', rfl, _, hbefore⟩

/-! ### Ordinary objects -/

/-- The buffer for a name: the one that the context has under the number of the parameter. -/
def place (w : Workspace) (a : Address) (c : ContextId) (key : String) : Option (Option Nat) :=
  (named? (w.search "" a) key).map fun f => (w.evaluator c).context.values[f.param.index]?

theorem exists_map_eq {α β : Type} {g : α → β} {p : α → Prop} {ys : List β}
    (h : ∀ y ∈ ys, ∃ x, p x ∧ g x = y) : ∃ xs : List α, xs.map g = ys ∧ ∀ x ∈ xs, p x := by
  induction ys with
  | nil => exact ⟨[], rfl, by simp⟩
  | cons y ys ih =>
    obtain ⟨x, hx, rfl⟩ := h y (List.mem_cons_self ..)
    obtain ⟨xs, rfl, hxs⟩ := ih fun z hz => h z (List.mem_cons_of_mem _ hz)
    exact ⟨x :: xs, rfl, List.forall_mem_cons.mpr ⟨hx, hxs⟩⟩

/-- A table lists what was found last under each name. -/
theorem exists_last (found : List Found) :
    ∃ last : List Found, (nameTable found).toList = last.map (fun f => (.text f.name, f.holder)) ∧
      (last.map Found.name).Nodup ∧ ∀ f, f ∈ last ↔ named? found f.name = some f := by
  have hentries : ∀ entry ∈ (nameTable found).toList, ∃ f : Found,
      named? found f.name = some f ∧ (Label.text f.name, f.holder) = entry := by
    intro entry hentry
    obtain ⟨f, hf, heq⟩ := mem_toList_nameTable.mp hentry
    exact ⟨f, hf, heq.symm⟩
  obtain ⟨last, hlist, hnamed⟩ := exists_map_eq hentries
  have hkeys : ((nameTable found).toList.map Prod.fst).Nodup := by
    rw [nameTable, Table.map_fst_toList_ofList]
    exact (Table.keys_ofList _).1
  rw [← hlist, List.map_map] at hkeys
  refine ⟨last, hlist.symm, ?_, fun f => ⟨hnamed f, fun hf => ?_⟩⟩
  · exact List.Nodup.of_map Label.text (by rw [List.map_map]; exact hkeys)
  · have hentry := mem_toList_nameTable.mpr ⟨f, hf, rfl⟩
    rw [← hlist] at hentry
    obtain ⟨f', hf', heq⟩ := List.mem_map.mp hentry
    have hsame := hnamed f' hf'
    rw [Label.text.inj (Prod.mk.inj heq).1, hf] at hsame
    cases hsame
    exact hf'

/-- The numbers of the parameters of an object, by name. -/
theorem plainParameters?_nameTable (h : w.Searchable a) (hadds : w.Adds Object.IsValue w')
    (ht : params.entries = nameTable (w.search "" a)) :
    ∃ rows, plainParameters? w'.heap params = some (.ofList rows) ∧
      ∀ key, (Table.ofList rows).get? key =
        (named? (w.search "" a) key).map fun f => f.param.index := by
  obtain ⟨last, hlist, hnodup, hlast⟩ := exists_last (w.search "" a)
  have htexts : params.texts? = some (last.map fun f => (f.name, f.holder)) := by
    rw [texts?_eq_some_iff, ht, hlist, byText, List.map_map]
    rfl
  have hindex : ∀ f ∈ last, (do
      return (f.name, (← (← w'.heap.handle? f.holder).expr?).index) : Option (String × Int)) =
        some (f.name, f.param.index) := by
    intro f hf
    obtain ⟨path', n, ⟨-, ho, -⟩, -⟩ := search_sound h "" f (named?_eq_some ((hlast f).mp hf)).1
    have ho' := hadds.objects.get?_eq ho
    simp [Heap.handle?, ho']
  refine ⟨last.map fun f => (f.name, f.param.index), ?_, fun key => ?_⟩
  · simp only [plainParameters?, htexts]
    refine (congrArg (fun rows => rows >>= _) (mapM_map_eq_some hindex)).trans ?_
    rfl
  · have hkeys : ((last.map fun f => (f.name, f.param.index)).map Prod.fst).Nodup := by
      rw [List.map_map]
      exact hnodup
    refine Option.ext fun i => ?_
    rw [Table.get?_ofList_of_nodup hkeys, Option.map_eq_some_iff, List.mem_map]
    constructor
    · rintro ⟨f, hf, heq⟩
      cases heq
      exact ⟨f, (hlast f).mp hf, rfl⟩
    · rintro ⟨f, hf, rfl⟩
      obtain rfl := (named?_eq_some hf).2
      exact ⟨f, (hlast f).mpr hf, rfl⟩

/-- Data by text are loaded into the buffers for their names. -/
theorem load_byText (h : w.Searchable a) (hcodes : (w.evaluator c).ties.codes = [])
    {entries : List (String × Data)} (hkeys : (entries.map Prod.fst).Nodup)
    (hstate : state.entries = .ofList (byText entries)) (strict : Bool) (bufs : Buffers) :
    ∃ outcome bufs' w' done, load a c strict state bufs w = .ok (outcome, bufs') w' ∧
      Buffers.Loads (w.place a c) strict entries bufs bufs' done outcome := by
  obtain ⟨params, w', hadds, hnames, -, ht⟩ := namedParameters_search h ""
  obtain ⟨rows, hrows, hindex⟩ := plainParameters?_nameTable h hadds ht
  have hcontext := hadds.evaluator c
  have htexts : plainState? state = some (.ofList entries) := by
    rw [plainState?_eq_some_iff, hstate, Table.toList_ofList_of_nodup (byText_nodup_iff.mpr hkeys)]
    exact ⟨entries, rfl, rfl⟩
  obtain ⟨bufs', done, outcome, hloads, hrun⟩ := Buffers.load_loads
    (w'.evaluator c).context.values strict rows hkeys bufs
  have hplace : Buffers.placeOf (.ofList rows) (w'.evaluator c).context.values = w.place a c := by
    funext key
    rw [Buffers.placeOf, hindex, hcontext, Option.map_map, place]
    rfl
  rw [hplace] at hloads
  rw [load_of_plain hnames hrows htexts (hcontext ▸ hcodes), hrun]
  cases outcome with
  | ok _ => exact ⟨.ok (), bufs', w', done, rfl, hloads⟩
  | error e => exact ⟨.error e, bufs', w', done, rfl, hloads⟩

/-! ### What stays when loading fails -/

/-- Loading fails when the parameters are named, before there are any uploads, or it loads entries
from the first on. When it fails then, the entries before stay loaded and nothing else is changed.
Where names are texts and objects ordinary, it says which entry failed and why. -/
theorem load_keeps_entries_before (w : Workspace) (a : Address) (c : ContextId) (strict : Bool)
    (state : Labelled Data) (bufs : Buffers) {entries : List (Label × Data)}
    (hkeys : (entries.map Prod.fst).Nodup) (hstate : state.entries = .ofList entries) :
    (¬w.Searchable a ∧ ∃ e w', load a c strict state bufs w = .error e w') ∨
    ∃ outcome bufs' w', load a c strict state bufs w = .ok (outcome, bufs') w' ∧
      (∃ place, Buffers.LoadsBefore place [] entries bufs bufs' outcome) ∧
      ∀ texts, entries = byText texts → w.Searchable a → (w.evaluator c).ties.codes = [] →
        ∃ done, Buffers.Loads (w.place a c) strict texts bufs bufs' done outcome := by
  cases hnames : namedParameters a (.text "") w with
  | error e w' =>
    refine .inl ⟨fun h => ?_, e, w', bind_of_error hnames⟩
    obtain ⟨t, w'', -, hrun, -⟩ := namedParameters_search h ""
    rw [hnames] at hrun
    cases hrun
  | ok params w' =>
    obtain ⟨outcome, bufs', w'', hrun, hbefore⟩ := load_before hkeys hstate hnames
    refine .inr ⟨outcome, bufs', w'', hrun, hbefore, ?_⟩
    rintro texts rfl h hcodes
    obtain ⟨outcome', bufs'', w₁, done, hrun', hloads⟩ :=
      load_byText h hcodes (byText_nodup_iff.mp hkeys) hstate strict bufs
    rw [hrun] at hrun'
    cases hrun'
    exact ⟨done, hloads⟩

/-- A dictionary with parameters of two arenas that have the same number, and a context that
evaluated the first one. -/
def twoArenas : Workspace :=
  { start with
    arenas := #[⟨#[⟨.leaf .param, ⟨[1]⟩, none⟩]⟩, ⟨#[⟨.leaf .param, ⟨[1]⟩, none⟩]⟩]
    programs := #[{ cells := #[.leaf ⟨[1]⟩ false], users := #[#[]] }]
    evaluators := #[{ context :=
      { arena := some 0, counter := 1, ids := .ofList [(0, 1)], values := .ofList [(0, 1)] } }]
    heap := ⟨Heap.start.objects ++
      #[.expr ⟨0, 0⟩, .expr ⟨1, 0⟩, .dict [(.text "p", 2), (.text "q", 3)]]⟩ }

/-- The buffer of the first parameter, not written yet. -/
def oneBuffer : Buffers := .ofList [(1, ⟨.host, ⟨[1]⟩, .unwritten⟩)]

/-- The data of one number. -/
def one : Data := .nested (.branch [.leaf (.int 1)])

theorem get?_oneBuffer : Table.get? oneBuffer 1 = some ⟨.host, ⟨[1]⟩, .unwritten⟩ := by
  rw [oneBuffer, Table.get?_ofList]
  rfl

/-- The buffer takes one number. -/
theorem oneBuffer_fills : Buffers.Fills ⟨.host, ⟨[1]⟩, .unwritten⟩ one
    ⟨.host, ⟨[1]⟩, .elements [.finite false ⟨8388608, -23⟩]⟩ :=
  ⟨rfl, ⟨⟨[1]⟩, [.finite false ⟨8388608, -23⟩]⟩, rfl, rfl, rfl⟩

theorem twoArenas_searchable : twoArenas.Searchable 4 :=
  searchable_of_closed [4, 2, 3] (by decide) (by decide)

theorem twoArenas_search :
    twoArenas.search "" 4 = [⟨"p", 2, ⟨0, 0⟩⟩, ⟨"q", 3, ⟨1, 0⟩⟩] := by decide

theorem twoArenas_values : (twoArenas.evaluator 0).context.values[(0 : Int)]? = some 1 := by
  simp [twoArenas, evaluator]

/-- Both parameters have the buffer under their number. -/
theorem twoArenas_place {key : String} (hkey : key = "p" ∨ key = "q") :
    twoArenas.place 4 0 key = some (some 1) := by
  have hfound : (named? (twoArenas.search "" 4) key).map (fun f => f.param.index) = some 0 := by
    rw [twoArenas_search]
    rcases hkey with rfl | rfl <;> decide
  obtain ⟨f, hf, hindex⟩ := Option.map_eq_some_iff.mp hfound
  rw [place, hf, Option.map_some, hindex, twoArenas_values]

/-- One number under a name. -/
def given (key : String) : Labelled Data := { entries := .ofList (byText [(key, one)]) }

/-- The buffer takes data under either name. -/
theorem load_given {key : String} (hkey : key = "p" ∨ key = "q") (strict : Bool) :
    ∃ outcome bufs' w', load 4 0 strict (given key) oneBuffer twoArenas = .ok (outcome, bufs') w' ∧
      Table.get? bufs' 1 ≠ Table.get? oneBuffer 1 ∧
      (outcome = .ok () ↔
        (strict = true → ∀ other, twoArenas.place 4 0 other ≠ none → other = key)) := by
  have hkeys : ([(key, one)].map Prod.fst).Nodup := List.nodup_singleton key
  have hstate : (given key).entries = .ofList (byText [(key, one)]) := rfl
  obtain ⟨outcome, bufs', w', done, hrun, hloads⟩ :=
    load_byText twoArenas_searchable (c := 0) rfl hkeys hstate strict oneBuffer
  obtain ⟨hget, hok⟩ := hloads.taken (twoArenas_place hkey) get?_oneBuffer oneBuffer_fills
  refine ⟨outcome, bufs', w', hrun, ?_, hok⟩
  rw [hget, get?_oneBuffer]
  decide

/-- One parameter is given data, and that the other one is not is noticed after that. -/
theorem load_keeps_entries_before_missing :
    let entries : List (Label × Data) := [(.text "p", one)]
    (entries.map Prod.fst).Nodup ∧ (given "p").entries = .ofList entries ∧
      ((¬twoArenas.Searchable 4 ∧
        ∃ e w', load 4 0 true (given "p") oneBuffer twoArenas = .error e w') ∨
      ∃ outcome bufs' w', load 4 0 true (given "p") oneBuffer twoArenas = .ok (outcome, bufs') w' ∧
        (∃ place, Buffers.LoadsBefore place [] entries oneBuffer bufs' outcome) ∧
        ∀ texts, entries = byText texts → twoArenas.Searchable 4 →
          (twoArenas.evaluator 0).ties.codes = [] →
          ∃ done, Buffers.Loads (twoArenas.place 4 0) true texts oneBuffer bufs' done outcome) := by
  intro entries
  have hkeys : (entries.map Prod.fst).Nodup := by decide
  exact ⟨hkeys, rfl, load_keeps_entries_before twoArenas 4 0 true (given "p") oneBuffer hkeys rfl⟩

/-- Then the loading fails, but it has changed a buffer. -/
theorem load_fails_after_writing :
    ∃ e bufs' w', load 4 0 true (given "p") oneBuffer twoArenas = .ok (.error e, bufs') w' ∧
      Table.get? bufs' 1 ≠ Table.get? oneBuffer 1 := by
  obtain ⟨outcome, bufs', w', hrun, hne, hok⟩ := load_given (.inl rfl) true
  cases outcome with
  | error e => exact ⟨e, bufs', w', hrun, hne⟩
  | ok _ =>
    have honly := hok.mp rfl rfl "q" (by simp [twoArenas_place (.inr rfl)])
    simp at honly

/-! ### Parameters of other arenas -/

/-- Entries are loaded into the buffers that the context assigned to the parameters with their names
when these are of the arena of the context, and only then. -/
theorem load_uses_assigned_iff (h : w.Searchable a) (hcodes : (w.evaluator c).ties.codes = [])
    {entries : List (String × Data)} (hkeys : (entries.map Prod.fst).Nodup)
    (hstate : state.entries = .ofList (byText entries)) (strict : Bool) (bufs : Buffers) :
    ∃ outcome bufs' w' done, load a c strict state bufs w = .ok (outcome, bufs') w' ∧
      Buffers.Loads (w.place a c) strict entries bufs bufs' done outcome ∧
      ((∀ entry ∈ done, ∀ f, named? (w.search "" a) entry.1 = some f →
          w.place a c entry.1 = some ((w.evaluator c).context.assigned? f.param)) ↔
        ∀ entry ∈ done, ∀ f, named? (w.search "" a) entry.1 = some f →
          (w.evaluator c).context.arena = some f.param.arena) := by
  obtain ⟨outcome, bufs', w', done, hrun, hloads⟩ := load_byText h hcodes hkeys hstate strict bufs
  refine ⟨outcome, bufs', w', done, hrun, hloads, ?_⟩
  have hplace : ∀ {key f}, named? (w.search "" a) key = some f →
      w.place a c key = some (w.evaluator c).context.values[f.param.index]? := by
    intro key f hf
    rw [place, hf, Option.map_some]
  constructor
  · intro hassigned entry hentry f hf
    obtain ⟨hnone, -⟩ | ⟨id, hid⟩ := hloads.passed entry hentry
    · rw [hplace hf] at hnone
      cases hnone
    · have hown := hassigned entry hentry f hf
      rw [hid] at hown
      by_contra hother
      simp [Context.assigned?, hother] at hown
  · intro harena entry hentry f hf
    rw [hplace hf, Context.assigned?, if_pos (harena entry hentry f hf)]

/-- A parameter of the other arena is loaded into the buffer of the parameter with its number. -/
theorem load_uses_assigned_iff_foreign :
    let entries : List (String × Data) := [("q", one)]
    twoArenas.Searchable 4 ∧ (twoArenas.evaluator 0).ties.codes = [] ∧
      (entries.map Prod.fst).Nodup ∧ (given "q").entries = .ofList (byText entries) ∧
      ∃ outcome bufs' w' done,
        load 4 0 false (given "q") oneBuffer twoArenas = .ok (outcome, bufs') w' ∧
        Buffers.Loads (twoArenas.place 4 0) false entries oneBuffer bufs' done outcome ∧
        ((∀ entry ∈ done, ∀ f, named? (twoArenas.search "" 4) entry.1 = some f →
            twoArenas.place 4 0 entry.1 =
              some ((twoArenas.evaluator 0).context.assigned? f.param)) ↔
          ∀ entry ∈ done, ∀ f, named? (twoArenas.search "" 4) entry.1 = some f →
            (twoArenas.evaluator 0).context.arena = some f.param.arena) := by
  intro entries
  have hkeys : (entries.map Prod.fst).Nodup := List.nodup_singleton "q"
  exact ⟨twoArenas_searchable, rfl, hkeys, rfl,
    load_uses_assigned_iff twoArenas_searchable rfl hkeys rfl false oneBuffer⟩

/-- The context has assigned no buffer to the second parameter, but loading changes the one that it
assigned to the first. -/
theorem load_overwrites_other_parameter :
    (named? (twoArenas.search "" 4) "q").map Found.param = some ⟨1, 0⟩ ∧
      (twoArenas.evaluator 0).context.assigned? ⟨1, 0⟩ = none ∧
      (twoArenas.evaluator 0).context.assigned? ⟨0, 0⟩ = some 1 ∧
      ∃ bufs' w', load 4 0 false (given "q") oneBuffer twoArenas = .ok (.ok (), bufs') w' ∧
        Table.get? bufs' 1 ≠ Table.get? oneBuffer 1 := by
  have harena : (twoArenas.evaluator 0).context.arena = some 0 := rfl
  obtain ⟨outcome, bufs', w', hrun, hne, hok⟩ := load_given (.inr rfl) false
  refine ⟨?_, ?_, ?_, bufs', w', ?_, hne⟩
  · rw [twoArenas_search]
    decide
  · simp [Context.assigned?, harena]
  · simp [Context.assigned?, harena, twoArenas_values]
  · rw [hrun, hok.mpr nofun]

end Workspace

end TensorGraph
