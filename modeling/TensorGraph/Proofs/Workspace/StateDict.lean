import TensorGraph.Proofs.Workspace.Naming

/-!
# Parameters under names

A table of parameters by name has one parameter under each name, the one that was found last. So it
has all parameters that an object holds when their names are distinct, and loses one when two of
them meet in a name.
-/

namespace TensorGraph.Workspace

/-- What was found last under a name. -/
def named? (found : List Found) (key : String) : Option Found :=
  found.reverse.find? fun f => f.name == key

/-- A table has a parameter under some name. -/
def Lists (w : Workspace) (t : Labelled Address) (e : Expr) : Prop :=
  ∃ entry ∈ t.entries.toList, w.heap.get? entry.2 = some (.expr e)

variable {w w' : Workspace} {a : Address} {found : List Found}

theorem named?_eq_some {key : String} {f : Found} (h : named? found key = some f) :
    f ∈ found ∧ f.name = key :=
  ⟨List.mem_reverse.mp (List.mem_of_find?_eq_some h), by simpa using List.find?_some h⟩

theorem named?_of_mem {f : Found} (hf : f ∈ found) : ∃ f', named? found f.name = some f' := by
  rw [← Option.isSome_iff_exists, named?, List.find?_isSome]
  exact ⟨f, List.mem_reverse.mpr hf, by simp⟩

theorem get?_nameTable (key : String) :
    (nameTable found).get? (.text key) = (named? found key).map Found.holder := by
  have hkey : ((fun e : Label × Address => e.1 == .text key) ∘
      fun f : Found => (.text f.name, f.holder)) = fun f => f.name == key := by
    funext f
    simp
  rw [nameTable, Table.get?_ofList, ← List.map_reverse, List.find?_map, hkey, Option.map_map,
    named?]
  rfl

theorem mem_toList_nameTable {entry : Label × Address} :
    entry ∈ (nameTable found).toList ↔
      ∃ f, named? found f.name = some f ∧ entry = (.text f.name, f.holder) := by
  have hget : entry ∈ (nameTable found).toList ↔ (nameTable found).get? entry.1 = some entry.2 :=
    Table.mem_toList_ofList
  rw [hget]
  obtain ⟨l, b⟩ := entry
  constructor
  · intro h
    cases l with
    | text key =>
      rw [get?_nameTable] at h
      obtain ⟨f, hf, rfl⟩ := Option.map_eq_some_iff.mp h
      obtain rfl := (named?_eq_some hf).2
      exact ⟨f, hf, rfl⟩
    | object c =>
      have hsome : ((nameTable found).get? (.object c)).isSome := by rw [h]; rfl
      rw [nameTable, Table.get?_ofList_isSome_iff] at hsome
      simp at hsome
  · rintro ⟨f, hf, heq⟩
    cases heq
    rw [get?_nameTable, hf]
    rfl

/-- A table lists what was found, unless something else was found later under the name. -/
theorem lists_iff (h : w.Searchable a) (hadds : w.Adds Object.IsValue w') {path : String}
    {t : Labelled Address} (ht : t.entries = nameTable (w.search path a)) (e : Expr) :
    w'.Lists t e ↔
      ∃ f ∈ w.search path a, f.param = e ∧ named? (w.search path a) f.name = some f := by
  have hholder : ∀ f ∈ w.search path a, w'.heap.get? f.holder = some (.expr f.param) := by
    intro f hf
    obtain ⟨path', n, ⟨-, ho, -⟩, -⟩ := search_sound h path f hf
    exact hadds.objects.get?_eq ho
  rw [Lists, ht]
  constructor
  · rintro ⟨entry, hentry, ho⟩
    obtain ⟨f, hf, rfl⟩ := mem_toList_nameTable.mp hentry
    have hmem := (named?_eq_some hf).1
    rw [hholder f hmem] at ho
    cases ho
    exact ⟨f, hmem, rfl, hf⟩
  · rintro ⟨f, hmem, rfl, hf⟩
    exact ⟨_, mem_toList_nameTable.mpr ⟨f, hf, rfl⟩, hholder f hmem⟩

/-- No parameter is lost when names are distinct, and only then. -/
theorem named_all_iff (hnodup : (found.map Found.param).Nodup) :
    (∀ f ∈ found, named? found f.name = some f) ↔ (found.map Found.name).Nodup := by
  constructor
  · intro hall
    refine List.Nodup.map_on ?_ (List.Nodup.of_map _ hnodup)
    intro f hf g hg heq
    have hsame := (hall f hf).symm.trans (heq ▸ hall g hg)
    exact Option.some.inj hsame
  · intro hnames f hf
    obtain ⟨f', hf'⟩ := named?_of_mem hf
    obtain ⟨hmem, hname⟩ := named?_eq_some hf'
    rw [hf', List.inj_on_of_nodup_map hnames hmem hf hname]

theorem keeps_all_iff (h : w.Searchable a) (hadds : w.Adds Object.IsValue w') {path : String}
    {t : Labelled Address} (ht : t.entries = nameTable (w.search path a)) :
    (∀ e, w.HoldsParameter a e → w'.Lists t e) ↔
      ((w.search path a).map Found.name).Nodup := by
  rw [← named_all_iff (search_nodup h path)]
  constructor
  · intro hall f hf
    have hheld := (mem_search_iff h path f.param).mp (List.mem_map_of_mem hf)
    obtain ⟨g, hg, hparam, hnamed⟩ := (lists_iff h hadds ht f.param).mp (hall f.param hheld)
    rw [List.inj_on_of_nodup_map (search_nodup h path) hg hf hparam] at hnamed
    exact hnamed
  · intro hall e he
    obtain ⟨f, hf, rfl⟩ := List.mem_map.mp ((mem_search_iff h path e).mpr he)
    exact (lists_iff h hadds ht f.param).mpr ⟨f, hf, rfl, hall f hf⟩

/-- The parameters of an object by name: each of them is a parameter that the object holds, and all
of these are there exactly when the search gave them distinct names. -/
theorem names_keep_parameters_iff (h : w.Searchable a) (path : String) :
    ∃ t w', namedParameters a (.text path) w = .ok t w' ∧
      (∀ e, w'.Lists t e → w.HoldsParameter a e) ∧
      ((∀ e, w.HoldsParameter a e → w'.Lists t e) ↔
        ((w.search path a).map Found.name).Nodup) := by
  obtain ⟨t, w', hadds, hrun, -, ht⟩ := namedParameters_search h path
  refine ⟨t, w', hrun, fun e he => ?_, keeps_all_iff h hadds ht⟩
  obtain ⟨f, hf, rfl, -⟩ := (lists_iff h hadds ht e).mp he
  exact (mem_search_iff h path f.param).mp (List.mem_map_of_mem hf)

/-- A dictionary with two parameters, under the number 1 and under the text of that number. -/
def numberAndText : Workspace :=
  { start with
    arenas := #[⟨#[⟨.leaf .param, ⟨[2]⟩, none⟩, ⟨.leaf .param, ⟨[2]⟩, none⟩]⟩]
    heap := ⟨Heap.start.objects ++
      #[.expr ⟨0, 0⟩, .expr ⟨0, 1⟩, .dict [(.int 1, 2), (.text "1", 3)]]⟩ }

theorem numberAndText_searchable : numberAndText.Searchable 4 :=
  searchable_of_closed [4, 2, 3] (by decide) (by decide +kernel)

/-- Here the names of the two parameters are not distinct. -/
theorem names_keep_parameters_iff_number_and_text :
    numberAndText.Searchable 4 ∧ ∃ t w', namedParameters 4 (.text "") numberAndText = .ok t w' ∧
      (∀ e, w'.Lists t e → numberAndText.HoldsParameter 4 e) ∧
      ((∀ e, numberAndText.HoldsParameter 4 e → w'.Lists t e) ↔
        ((numberAndText.search "" 4).map Found.name).Nodup) :=
  ⟨numberAndText_searchable, names_keep_parameters_iff numberAndText_searchable ""⟩

/-- The two parameters are held, but the table does not list both. -/
theorem number_and_text_meet :
    numberAndText.HoldsParameter 4 ⟨0, 0⟩ ∧
      ∃ t w', namedParameters 4 (.text "") numberAndText = .ok t w' ∧ ¬w'.Lists t ⟨0, 0⟩ := by
  have h := numberAndText_searchable
  have hfound : numberAndText.search "" 4 = [⟨"1", 2, ⟨0, 0⟩⟩, ⟨"1", 3, ⟨0, 1⟩⟩] := by
    decide +kernel
  obtain ⟨t, w', hadds, hrun, -, ht⟩ := namedParameters_search h ""
  refine ⟨(mem_search_iff h "" ⟨0, 0⟩).mp (by rw [hfound]; decide), t, w', hrun, ?_⟩
  rw [lists_iff h hadds ht, hfound]
  decide

end TensorGraph.Workspace
