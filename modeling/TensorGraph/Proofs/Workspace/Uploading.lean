import TensorGraph.Proofs.Device.Binding
import TensorGraph.Proofs.Network.Separation
import TensorGraph.Proofs.Workspace.Evaluation
import TensorGraph.Proofs.Workspace.Loading

/-!
# Loading into the buffers of parameters

When the parameters that an object holds are of the arena of a context, each has a buffer of its own
there, with its shape. So data that are loaded end up in the buffer of the parameter under their
name, and nowhere else, in whatever order they come.
-/

namespace TensorGraph.Workspace

/-! ### Keys of contexts -/

/-- The keys of all tables of contexts are integers. -/
def IntegerKeys (w : Workspace) : Prop := ∀ c, (w.evaluator c).ties.codes = []

def StaysInteger (w w' : Workspace) : Prop := w.IntegerKeys → w'.IntegerKeys

instance : IsPreorder Workspace StaysInteger where
  refl _ := id
  trans _ _ _ huv hvw h := hvw (huv h)

/-- A context at work keeps its ties. -/
theorem staysInteger_of_context {w w' : Workspace} {c : ContextId} {context : Context}
    (h : ∀ d, w'.evaluator d =
      if d = c ∧ c < w.evaluators.size then { w.evaluator c with context } else w.evaluator d) :
    w.StaysInteger w' := by
  intro hw d
  rw [h]
  split
  · exact hw c
  · exact hw d

theorem inContext_integer {α : Type} (c : ContextId) (x : EStateM Error Context α) :
    Keeps StaysInteger (inContext c x) := by
  intro w
  obtain ⟨evaluators, hafter, -, hevaluators⟩ := inContext_after c x w
  rw [hafter]
  exact staysInteger_of_context hevaluators

theorem lowering_integer {α : Type} (c : ContextId) (x : Lower α) :
    Keeps StaysInteger (lowering c x) := by
  intro w
  obtain ⟨evaluators, programs, history, hafter, -, -, hevaluators, -⟩ := lowering_after c x w
  rw [hafter]
  exact staysInteger_of_context hevaluators

theorem differentiating_integer {α : Type} (c : ContextId) (k : ArenaId) (x : Differentiate α) :
    Keeps StaysInteger (differentiating c k x) := by
  intro w
  obtain ⟨evaluators, arenas, hafter, -, hevaluators, -⟩ := differentiating_after c k x w
  rw [hafter]
  exact staysInteger_of_context hevaluators

theorem newContext_integer (program : Option ProgramId) (requiresGrad : Bool) :
    Keeps StaysInteger (Workspace.newContext program requiresGrad) := by
  have hpush : ∀ (w : Workspace) (s : Evaluator), s.ties.codes = [] →
      w.StaysInteger { w with evaluators := w.evaluators.push s } := by
    intro w s hs h c
    rw [evaluator, getD_push]
    split
    · exact hs
    · exact h c
  cases program with
  | some p => exact fun w => hpush w _ rfl
  | none => exact fun w => hpush { w with programs := w.programs.push {} } _ rfl

theorem reset_integer (c : ContextId) : Keeps StaysInteger (reset c) := by
  intro w h d
  rw [evaluator_reset]
  split
  · rfl
  · exact h d

theorem carryOut_integer (call : Call) : Keeps StaysInteger call.carryOut := by
  have hbuild : ∀ (k : ArenaId) (x : Build Nat), Keeps StaysInteger (Workspace.building k x) :=
    building_frame fun _ _ h => h
  have hemit : ∀ (p : ProgramId) (x : Emit Emission), Keeps StaysInteger (emitting p x) :=
    emitting_frame fun _ _ _ h => h
  cases call with
  | newArena | newProgram => exact fun _ h => h
  | newContext program requiresGrad => exact Keeps.discard (newContext_integer program requiresGrad)
  | setStrict strict => exact fun _ h => h
  | param k shape name => exact Keeps.discard fun w => hbuild k _ w
  | zero k shape => exact Keeps.discard fun w => hbuild k _ w
  | addNode k kind operands shape name => exact Keeps.discard (hbuild k _)
  | unary k e => exact Keeps.discard (hbuild e.arena _)
  | binary op l r =>
    exact Keeps.discard (Keeps.bind (rightOperand_keeps l r) fun e => hbuild l.arena _)
  | alloc p shape isZero => exact Keeps.discard (hemit p _)
  | emit p op shape source1 source2 => exact Keeps.discard fun w => hemit p _ w
  | evaluate c o =>
    refine Keeps.discard (Keeps.bind (inContext_integer c _) fun e w => ?_)
    simp only [evaluateExpr]
    split
    · exact id
    · exact lowering_integer c _ w
  | backward c output seed wrt => exact Keeps.discard (differentiating_integer c output.arena _)
  | enter c id => exact lowering_integer c _
  | exit c id => exact lowering_integer c fun s => .ok () (s.exit id)
  | makeId c => exact Keeps.discard (inContext_integer c _)
  | reset c => exact reset_integer c

/-- No call puts anything else in the place of a key. -/
theorem afterAll_integerKeys (calls : List Call) : (afterAll calls).IntegerKeys := by
  have hall : ∀ {w : Workspace}, w.IntegerKeys → (calls.foldl after w).IntegerKeys := by
    induction calls with
    | nil => exact id
    | cons call calls ih =>
      intro w h
      refine ih ?_
      simp only [after]
      split
      · exact carryOut_integer call w h
      · exact h
  exact hall fun _ => rfl

/-! ### Buffers of parameters -/

/-- All parameters that an object holds are nodes of the arena of a context, by their numbers. -/
def Owns (w : Workspace) (c : ContextId) (a : Address) : Prop :=
  ∀ e, w.HoldsParameter a e → (w.evaluator c).context.arena = some e.arena ∧ 0 ≤ e.index

section Buffers

variable {w : Workspace} {a : Address} {c : ContextId} {e : Expr} {id : Nat}

/-- The buffer of a parameter is a leaf with its shape, and that of no other node. -/
theorem Coherent.assigned (hw : w.Coherent) (hown : w.Owns c a) (he : w.HoldsParameter a e)
    (hid : (w.evaluator c).context.assigned? e = some id) :
    ∃ n, w.arenas.node? e = some n ∧ (w.programOf c).cell? id = some (.leaf n.shape false) ∧
      ∀ i : Nat, (w.evaluator c).context.buffer? i = some id → (i : Int) = e.index := by
  obtain ⟨harena, hindex⟩ := hown e he
  obtain ⟨path', b, n, -, -, hn, hkind⟩ := he
  obtain ⟨i, hi⟩ : ∃ i : Nat, e.index = i := Int.eq_ofNat_of_zero_le hindex
  have hat := (node?_eq_at? w e).symm.trans hn
  rw [hi, Arena.at?_ofNat] at hat
  rw [Context.assigned?, if_pos harena, hi] at hid
  have hfaithful := hw.contexts c
  rw [arenaOf, harena, Option.map_some, Option.getD_some] at hfaithful
  obtain ⟨n', hn', hholds⟩ := hfaithful.holds i id hid
  rw [hat] at hn'
  cases hn'
  have hform : n.form = .leaf .param := by
    cases hf : n.form with
    | leaf k =>
      simp only [Node.kind, hf, Form.kind] at hkind
      rw [Kind.leaf.inj hkind]
    | unary k x => simp [Node.kind, hf, Form.kind] at hkind
    | binary k x y => simp [Node.kind, hf, Form.kind] at hkind
  simp only [Program.Holds, hform] at hholds
  refine ⟨n, hn, hholds, fun j hj => ?_⟩
  rw [hi, hfaithful.leaf_injective j i id _ _ hj hid hholds]

/-- The buffer for a name is the one that the context assigned to the parameter. -/
theorem place_of_named (hown : w.Owns c a) (h : w.Searchable a) {key : String} {f : Found}
    (hf : named? (w.search "" a) key = some f) :
    w.place a c key = some ((w.evaluator c).context.assigned? f.param) := by
  have he := (mem_search_iff h "" f.param).mp (List.mem_map_of_mem (named?_eq_some hf).1)
  rw [place, hf, Option.map_some, Context.assigned?, if_pos (hown f.param he).1]

theorem exists_of_place {key : String} {o : Option Nat} (hplace : w.place a c key = some o) :
    ∃ f, named? (w.search "" a) key = some f := by
  obtain ⟨f, hf, -⟩ := Option.map_eq_some_iff.mp hplace
  exact ⟨f, hf⟩

/-- No two names have one buffer. -/
theorem Coherent.separates (hw : w.Coherent) (hown : w.Owns c a) (h : w.Searchable a) :
    Buffers.Separates (w.place a c) := by
  intro key key' id hplace hplace'
  obtain ⟨f, hf⟩ := exists_of_place hplace
  obtain ⟨f', hf'⟩ := exists_of_place hplace'
  rw [place_of_named hown h hf, Option.some.injEq] at hplace
  rw [place_of_named hown h hf', Option.some.injEq] at hplace'
  obtain ⟨hmem, rfl⟩ := named?_eq_some hf
  obtain ⟨hmem', rfl⟩ := named?_eq_some hf'
  have he := (mem_search_iff h "" f.param).mp (List.mem_map_of_mem hmem)
  have he' := (mem_search_iff h "" f'.param).mp (List.mem_map_of_mem hmem')
  obtain ⟨harena, hindex⟩ := hown _ he
  obtain ⟨harena', -⟩ := hown _ he'
  obtain ⟨-, -, -, honly⟩ := hw.assigned hown he' hplace'
  -- the number of the first parameter is that of a node with the buffer
  have hbuffer : (w.evaluator c).context.buffer? f.param.index.toNat = some id := by
    rw [Context.assigned?, if_pos harena] at hplace
    rw [Context.buffer?, Int.toNat_of_nonneg hindex, hplace]
  have hsame : f.param = f'.param := by
    have harenas := Option.some.inj (harena.symm.trans harena')
    have hindices := honly _ hbuffer
    rw [Int.toNat_of_nonneg hindex] at hindices
    calc f.param = ⟨f.param.arena, f.param.index⟩ := rfl
      _ = f'.param := by rw [harenas, hindices]
  exact congrArg Found.name (List.inj_on_of_nodup_map (search_nodup h "") hmem hmem' hsame)

end Buffers

/-! ### What loading does -/

/-- A table has a parameter under a name. -/
def HasUnder (w : Workspace) (params : Labelled Address) (key : String) (e : Expr) : Prop :=
  ∃ b, params.entries.get? (.text key) = some b ∧ w.heap.get? b = some (.expr e)

/-- Entries were loaded into the buffers that a context assigned to the parameters of a table. -/
structure Uploaded (w : Workspace) (c : ContextId) (params : Labelled Address)
    (entries : List (String × Data)) (bufs bufs' : Buffers) : Prop where
  /-- The buffer of a parameter has its shape and holds what came under its name. It is the buffer
  of no other node, and not that of a leaf of zeros. -/
  filled : ∀ entry ∈ entries, ∀ e, w.HasUnder params entry.1 e → ∃ id n t,
    (w.evaluator c).context.assigned? e = some id ∧ w.arenas.node? e = some n ∧
    Tensor.ofData entry.2 = .ok t ∧ t.shape = n.shape ∧
    bufs'.download id = .ok (n.shape, some t.elements) ∧
    (w.programOf c).cell? id = some (.leaf n.shape false) ∧
    ∀ i : Nat, (w.evaluator c).context.buffer? i = some id → (i : Int) = e.index
  /-- Every other buffer is as it was. -/
  unchanged : ∀ id, (∀ entry ∈ entries, ∀ e, w.HasUnder params entry.1 e →
    (w.evaluator c).context.assigned? e ≠ some id) → Table.get? bufs' id = Table.get? bufs id

section Loading

variable {w w' : Workspace} {a : Address} {c : ContextId} {params : Labelled Address}
  {entries done : List (String × Data)} {strict : Bool} {bufs bufs' : Buffers}

/-- What a table has under a name is what was found last under it. -/
theorem hasUnder_iff (h : w.Searchable a) (ht : params.entries = nameTable (w.search "" a))
    {key : String} {e : Expr} :
    w.HasUnder params key e ↔ ∃ f, named? (w.search "" a) key = some f ∧ f.param = e := by
  have hholder : ∀ {f}, named? (w.search "" a) key = some f →
      w.heap.get? f.holder = some (.expr f.param) := by
    intro f hf
    obtain ⟨path', n, ⟨-, ho, -⟩, -⟩ := search_sound h "" f (named?_eq_some hf).1
    exact ho
  rw [HasUnder, ht]
  simp only [get?_nameTable, Option.map_eq_some_iff]
  constructor
  · rintro ⟨-, ⟨f, hf, rfl⟩, ho⟩
    rw [hholder hf] at ho
    cases ho
    exact ⟨f, hf, rfl⟩
  · rintro ⟨f, hf, rfl⟩
    exact ⟨f.holder, ⟨f, hf, rfl⟩, hholder hf⟩

theorem Coherent.uploaded (hw : w.Coherent) (h : w.Searchable a) (hown : w.Owns c a)
    (ht : params.entries = nameTable (w.search "" a)) (hfit : bufs.Fit (w.programOf c))
    (hkeys : (entries.map Prod.fst).Nodup)
    (hloads : Buffers.Loads (w.place a c) strict entries bufs bufs' done (.ok ())) :
    w.Uploaded c params entries bufs bufs' where
  filled := by
    intro entry hmem e he
    obtain ⟨f, hf, rfl⟩ := (hasUnder_iff h ht).mp he
    have hplace := place_of_named hown h hf
    have hholds := (mem_search_iff h "" f.param).mp (List.mem_map_of_mem (named?_eq_some hf).1)
    obtain ⟨id, hid⟩ : ∃ id, (w.evaluator c).context.assigned? f.param = some id := by
      cases hloads with
      | complete passed holding given =>
        rcases passed entry hmem with ⟨hnone, -⟩ | ⟨id, hid⟩
        · rw [hnone] at hplace
          cases hplace
        · rw [hid] at hplace
          exact ⟨id, (Option.some.inj hplace).symm⟩
    obtain ⟨n, hn, hcell, honly⟩ := hw.assigned hown hholds hid
    rw [hid] at hplace
    obtain ⟨b, b', hb, ⟨hhost, t, hdata, hshape, rfl⟩, hb'⟩ :=
      hloads.filled (hw.separates hown h) hkeys hmem hplace
    -- the buffer was made for the leaf that the parameter is
    obtain ⟨-, zero, hleaf⟩ := hfit id b hb
    obtain ⟨hleaf, -⟩ : n.shape = b.shape ∧ false = zero := by simpa [hcell] using hleaf
    refine ⟨id, n, t, hid, hn, hdata, hshape.trans hleaf.symm, ?_, hcell, honly⟩
    exact Buffers.download_elements (by rw [hb', hleaf, ← hhost])
  unchanged := by
    intro id hother
    refine hloads.unchanged fun entry hmem hplace => ?_
    obtain ⟨f, hf⟩ := exists_of_place hplace
    rw [place_of_named hown h hf] at hplace
    exact hother entry hmem f.param ((hasUnder_iff h ht).mpr ⟨f, hf, rfl⟩)
      (Option.some.inj hplace)

/-- The names of a table are those that have a place. -/
theorem get?_isSome_iff (ht : params.entries = nameTable (w.search "" a)) (c : ContextId)
    (key : String) : (params.entries.get? (.text key)).isSome ↔ w.place a c key ≠ none := by
  rw [ht, get?_nameTable, place, Option.isSome_map, ne_eq, Option.map_eq_none_iff,
    Option.isSome_iff_ne_none]

/-- In strict loading the labels of a table are those of the entries. -/
theorem labels_eq (ht : params.entries = nameTable (w.search "" a)) {state : Labelled Data}
    (hstate : state.entries = .ofList (byText entries))
    (hnames : ∀ key, w.place a c key ≠ none ↔ key ∈ entries.map Prod.fst) (l : Label) :
    (params.entries.get? l).isSome ↔ (state.entries.get? l).isSome := by
  rw [hstate, Table.get?_ofList_isSome_iff]
  cases l with
  | text key =>
    rw [get?_isSome_iff ht c, hnames]
    simp [byText]
  | object b =>
    rw [ht, nameTable, Table.get?_ofList_isSome_iff]
    simp [byText]

end Loading

/-- The workspace after calls, with any objects in it. -/
def afterAllWith (calls : List Call) (heap : Heap) : Workspace := { afterAll calls with heap }

theorem afterAllWith_coherent (calls : List Call) (heap : Heap) :
    (afterAllWith calls heap).Coherent := by
  obtain ⟨harenas, hprograms, hlt, hcontexts⟩ := afterAll_coherent calls
  exact ⟨harenas, hprograms, hlt, hcontexts⟩

/-- After any calls, whatever the objects: let all parameters that an object holds be nodes of the
arena of a context, and let its program, at any time before, have been bound to buffers on the host
that anything may have been uploaded into since. When loading data by text returns, each parameter
that is given data holds these in its own buffer, every other buffer is as it was, any other order of
the data does the same, and in strict mode the names given are exactly those of the object. -/
theorem load_fills_parameters (calls : List Call) (heap : Heap) {a : Address} {c : ContextId}
    {room : Nat → Bool}
    (h : (afterAllWith calls heap).Searchable a) (hown : (afterAllWith calls heap).Owns c a)
    {p : Program} (hp : p.Extends ((afterAllWith calls heap).programOf c)) {bound : Buffers}
    (hbound : Backend.host.bind room p = .ok bound) (us : List (Int × Data))
    {entries : List (String × Data)} (hkeys : (entries.map Prod.fst).Nodup)
    {state : Labelled Data} (hstate : state.entries = .ofList (byText entries)) {strict : Bool}
    {bufs' : Buffers} {w' : Workspace}
    (hload : load a c strict state (bound.afterUploads us) (afterAllWith calls heap) =
      .ok (.ok (), bufs') w') :
    ∃ params w₁, namedParameters a (.text "") (afterAllWith calls heap) = .ok params w₁ ∧
      (afterAllWith calls heap).Uploaded c params entries (bound.afterUploads us) bufs' ∧
      (∀ (entries' : List (String × Data)) (state' : Labelled Data), entries'.Perm entries →
        state'.entries = .ofList (byText entries') → ∃ bufs'' w'',
          load a c strict state' (bound.afterUploads us) (afterAllWith calls heap) =
            .ok (.ok (), bufs'') w'' ∧ ∀ id, Table.get? bufs'' id = Table.get? bufs' id) ∧
      (strict = true → ∀ l, (params.entries.get? l).isSome ↔ (state.entries.get? l).isSome) := by
  have hw := afterAllWith_coherent calls heap
  have hcodes : ((afterAllWith calls heap).evaluator c).ties.codes = [] :=
    afterAll_integerKeys calls c
  have hfit := ((Buffers.fit_bind hbound).mono hp).afterUploads us
  obtain ⟨params, w₁, -, hnames, -, ht⟩ := namedParameters_search h ""
  obtain ⟨outcome, bufs₁, w₂, done, hrun, hloads⟩ :=
    load_byText h hcodes hkeys hstate strict (bound.afterUploads us)
  rw [hload] at hrun
  cases hrun
  refine ⟨params, w₁, hnames, hw.uploaded h hown ht hfit hkeys hloads, ?_, ?_⟩
  · intro entries' state' hperm hstate'
    have hkeys' := (hperm.map Prod.fst).nodup_iff.mpr hkeys
    obtain ⟨outcome, bufs'', w'', done', hrun', hloads'⟩ :=
      load_byText h hcodes hkeys' hstate' strict (bound.afterUploads us)
    obtain rfl : done = entries := by
      cases hloads
      rfl
    obtain ⟨rfl, hsame⟩ := hloads.perm (hw.separates hown h) hkeys hperm hloads'
    exact ⟨bufs'', w'', hrun', hsame⟩
  · rintro rfl l
    exact labels_eq ht hstate hloads.names_iff l

/-- A parameter that a context evaluated. -/
def evaluatedParameter : List Call :=
  [.newContext none true, .param 0 (.shape ⟨[1]⟩) (some "p"), .evaluate 0 (.expr ⟨0, 0⟩)]

/-- Its node. -/
def parameterNode : Node := ⟨.leaf .param, ⟨[1]⟩, some "p"⟩

/-- The parameter in a dictionary. -/
def parameterHeap : Heap := ⟨Heap.start.objects ++ #[.expr ⟨0, 0⟩, .dict [(.text "p", 2)]]⟩

/-- A context with nothing in its tables evaluates it into the first buffer. -/
theorem evaluate_parameterNode (arena : Option ArenaId) :
    ∃ s, Lowering.evaluate true ⟨#[parameterNode]⟩ 0 ⟨{ arena }, {}, #[]⟩ = .ok 1 s ∧
      s.context.values[(0 : Int)]? = some 1 ∧ s.context.arena = arena ∧
      s.program.cells = #[.leaf ⟨[1]⟩ false] := by
  have hpending : Lowering.pending { arena } ⟨#[parameterNode]⟩ 0 = some [0] := by
    simp [Lowering.pending, Arena.reach?, Arena.at?, Arena.node?, reached, sweep]
  have hassign : Lowering.assignId 0 ⟨{ arena }, {}, #[]⟩ =
      .ok 1 ⟨{ arena, counter := 1, ids := (∅ : Std.HashMap Int Nat).insert 0 1 }, {}, #[]⟩ := by
    simp [Lowering.assignId, Context.idOf, Context.makeId]
  have halloc : Program.alloc (.shape ⟨[1]⟩) false {} =
      .ok (.leaf 1 ⟨[1]⟩ false) (Program.push {} (.leaf ⟨[1]⟩ false)) := rfl
  obtain ⟨s, hlower, hvalues, harena, hcells⟩ : ∃ s,
      Lowering.within (1 : Nat) (Lowering.lowerNode true parameterNode)
        ⟨{ arena, counter := 1, ids := (∅ : Std.HashMap Int Nat).insert 0 1 }, {}, #[]⟩ =
          .ok 1 s ∧ s.context.values = ∅ ∧ s.context.arena = arena ∧
        s.program.cells = #[.leaf ⟨[1]⟩ false] := by
    have hnode : Lowering.lowerNode true parameterNode =
        Lowering.emitting (Program.alloc (.shape ⟨[1]⟩) false) := rfl
    simp [hnode, Lowering.within, Lowering.enter, Lowering.emitting, halloc, Lowering.exit,
      Program.push, Emission.id]
  have hrun : Lowering.evaluateNode true ⟨#[parameterNode]⟩ 0 ⟨{ arena }, {}, #[]⟩ =
      .ok () { s with context.values := s.context.values.insert 0 1 } :=
    (bind_of_ok hassign).trans (bind_of_ok hlower)
  have hvalue : (s.context.values.insert (0 : Int) 1)[(0 : Int)]? = some 1 := by simp
  refine ⟨{ s with context.values := s.context.values.insert 0 1 }, ?_, hvalue, harena, hcells⟩
  have hall : [(0 : Int)].forM (Lowering.evaluateNode true ⟨#[parameterNode]⟩)
      ⟨{ arena }, {}, #[]⟩ = .ok () { s with context.values := s.context.values.insert 0 1 } :=
    bind_of_ok hrun
  simp only [Lowering.evaluate, hpending, hall, Std.HashMap.getElem?_empty, hvalue]

/-- Its context assigned the first buffer to it. -/
theorem evaluatedParameter_after : ∃ s, afterAll evaluatedParameter =
      (afterAll [.newContext none true, .param 0 (.shape ⟨[1]⟩) (some "p")]).setLowered 0 s ∧
    s.context.values[(0 : Int)]? = some 1 ∧ s.context.arena = some 0 ∧
    s.program.cells = #[.leaf ⟨[1]⟩ false] := by
  obtain ⟨s, hrun, hstate⟩ := evaluate_parameterNode (some 0)
  refine ⟨s, ?_, hstate⟩
  generalize hw : afterAll [.newContext none true, .param 0 (.shape ⟨[1]⟩) (some "p")] = w
  have hadmits : (w.evaluator 0).context.Admits (.expr ⟨0, 0⟩) ⟨0, 0⟩ := by
    subst hw
    exact ⟨rfl, nofun⟩
  have hevaluated := evaluateOperand_eq (c := 0) (by subst hw; decide) hadmits (by subst hw; decide)
  have hlowered : Lowering.evaluate w.strict (w.arena 0) 0
      { w.lowered 0 with context := { (w.evaluator 0).context with arena := some 0 } } =
      .ok 1 s := by
    subst hw
    exact hrun
  rw [hlowered] at hevaluated
  have hafter : afterAll evaluatedParameter = w.after (.evaluate 0 (.expr ⟨0, 0⟩)) := by
    subst hw
    rfl
  rw [hafter, after, if_pos (by subst hw; decide), Call.carryOut, stateAfter_discard, hevaluated]
  rfl

/-- The parameter in a dictionary, after it was evaluated. -/
def evaluated : Workspace := afterAllWith evaluatedParameter parameterHeap

/-- The same before it was. -/
def unevaluated : Workspace :=
  { start with arenas := #[⟨#[parameterNode]⟩], heap := parameterHeap }

theorem evaluated_eq : ∃ s, evaluated =
      { (afterAll [.newContext none true, .param 0 (.shape ⟨[1]⟩) (some "p")]).setLowered 0 s with
        heap := parameterHeap } ∧
    s.context.values[(0 : Int)]? = some 1 ∧ s.context.arena = some 0 ∧
    s.program.cells = #[.leaf ⟨[1]⟩ false] := by
  obtain ⟨s, hafter, hstate⟩ := evaluatedParameter_after
  exact ⟨s, by rw [evaluated, afterAllWith, hafter], hstate⟩

theorem evaluated_searchable : evaluated.Searchable 3 := by
  have h : unevaluated.Searchable 3 := searchable_of_closed [3, 2] (by decide) (by decide)
  obtain ⟨s, hs, -⟩ := evaluated_eq
  rw [hs]
  exact h

theorem evaluated_search : evaluated.search "" 3 = [⟨"p", 2, ⟨0, 0⟩⟩] := by
  have h : unevaluated.search "" 3 = [⟨"p", 2, ⟨0, 0⟩⟩] := by decide
  obtain ⟨s, hs, -⟩ := evaluated_eq
  rw [hs]
  exact h

theorem evaluated_assigned : (evaluated.evaluator 0).context.arena = some 0 ∧
    (evaluated.evaluator 0).context.values[(0 : Int)]? = some 1 := by
  obtain ⟨s, hs, hvalues, harena, -⟩ := evaluated_eq
  rw [hs]
  exact ⟨harena, hvalues⟩

theorem evaluated_cells : (evaluated.programOf 0).cells = #[.leaf ⟨[1]⟩ false] := by
  obtain ⟨s, hs, -, -, hcells⟩ := evaluated_eq
  rw [hs]
  exact hcells

theorem evaluated_node : evaluated.arenas.node? ⟨0, 0⟩ = some parameterNode := by
  obtain ⟨s, hs, -⟩ := evaluated_eq
  rw [hs]
  rfl

theorem evaluated_owns : evaluated.Owns 0 3 := by
  intro e he
  have hmem := (mem_search_iff evaluated_searchable "" e).mpr he
  rw [evaluated_search] at hmem
  obtain rfl : e = ⟨0, 0⟩ := by simpa using hmem
  exact ⟨evaluated_assigned.1, Int.le_refl 0⟩

theorem evaluated_place (key : String) :
    evaluated.place 3 0 key = if "p" == key then some (some 1) else none := by
  rw [place, evaluated_search, named?]
  by_cases hkey : ("p" == key) = true
  · simp [hkey, evaluated_assigned.2]
  · simp [hkey]

/-- The parameter can be given a number under its name. -/
theorem load_evaluated : ∃ bufs' w',
    load 3 0 true (given "p") oneBuffer evaluated = .ok (.ok (), bufs') w' := by
  have hkeys : ([("p", one)].map Prod.fst).Nodup := List.nodup_singleton "p"
  have hstate : (given "p").entries = .ofList (byText [("p", one)]) := rfl
  have hcodes : (evaluated.evaluator 0).ties.codes = [] :=
    afterAll_integerKeys evaluatedParameter 0
  obtain ⟨outcome, bufs', w', done, hrun, hloads⟩ :=
    load_byText evaluated_searchable hcodes hkeys hstate true oneBuffer
  obtain ⟨-, hok⟩ := hloads.taken (evaluated_place "p") get?_oneBuffer oneBuffer_fills
  obtain rfl := hok.mpr fun _ key hkey => by
    rw [evaluated_place] at hkey
    by_contra hne
    simp [Ne.symm hne] at hkey
  exact ⟨bufs', w', hrun⟩

/-- Then its buffer holds the number. -/
theorem load_fills_parameters_evaluated :
    ∃ bufs' w', load 3 0 true (given "p") oneBuffer evaluated = .ok (.ok (), bufs') w' ∧
      bufs'.download 1 = .ok (⟨[1]⟩, some [.finite false ⟨8388608, -23⟩]) := by
  obtain ⟨bufs', w', hrun⟩ := load_evaluated
  refine ⟨bufs', w', hrun, ?_⟩
  let p : Program := { cells := #[.leaf ⟨[1]⟩ false] }
  have hp : p.Extends (evaluated.programOf 0) := by
    intro id cell hcell
    rw [Program.cell?, evaluated_cells]
    exact hcell
  have hbound : Backend.host.bind (fun _ => true) p = .ok oneBuffer := rfl
  have hkeys : ([("p", one)].map Prod.fst).Nodup := List.nodup_singleton "p"
  obtain ⟨params, w₁, hnames, huploaded, -, -⟩ := load_fills_parameters evaluatedParameter
    parameterHeap evaluated_searchable evaluated_owns hp hbound [] hkeys rfl hrun
  have hunder : evaluated.HasUnder params "p" ⟨0, 0⟩ := by
    obtain ⟨params', w₂, -, hnames', -, ht⟩ := namedParameters_search evaluated_searchable ""
    rw [evaluated, hnames] at hnames'
    cases hnames'
    refine (hasUnder_iff evaluated_searchable ht).mpr ⟨⟨"p", 2, ⟨0, 0⟩⟩, ?_, rfl⟩
    rw [evaluated_search]
    decide
  obtain ⟨id, n, t, hid, hn, hdata, -, hdownload, -, -⟩ :=
    huploaded.filled _ (List.mem_singleton_self _) _ hunder
  obtain rfl : id = 1 := by
    change (evaluated.evaluator 0).context.assigned? ⟨0, 0⟩ = some id at hid
    rw [Context.assigned?, if_pos evaluated_assigned.1, evaluated_assigned.2] at hid
    exact (Option.some.inj hid).symm
  obtain rfl : n = parameterNode := Option.some.inj (hn.symm.trans evaluated_node)
  cases hdata
  exact hdownload

end TensorGraph.Workspace
