import TensorGraph.Proofs.Network.Paths
import TensorGraph.Proofs.Workspace.Forgetful
import TensorGraph.Proofs.Workspace.StateDict

/-!
# Names that are paths

Every name in a table of parameters is a way to its parameter: the names of the parts on the way,
joined to a path. Where that is empty, the own name of the parameter or its index stands for it.
-/

namespace TensorGraph.Workspace

/-- A name says how an object leads to a handle of a parameter. There is a way to the handle, and
what its names give, folded onto a start, is the name, unless it is empty. Since handles hold
nothing, no way goes through one. -/
def NamesWay (w : Workspace) (start : String) (a : Address) (name : String) (b : Address) : Prop :=
  ∃ names e n, w.heap.Way a names b ∧ w.heap.get? b = some (.expr e) ∧
    w.arenas.node? e = some n ∧ n.kind = .param ∧
      name = nameOf (names.foldl joinName start) e n

variable {w w' : Workspace} {a : Address} {t : Labelled Address} {start : String}

/-- What is found goes by a way to it. -/
theorem namesWay_of_mem_search (h : w.Searchable a) {f : Found} (hf : f ∈ w.search start a) :
    w.NamesWay start a f.name f.holder := by
  obtain ⟨path, n, ⟨hleads, ho, hn, hkind⟩, hname⟩ := search_sound h start f hf
  obtain ⟨names, hway, rfl⟩ := Heap.leads_iff_way.mp hleads
  exact ⟨names, f.param, n, hway, ho, hn, hkind, hname⟩

/-- No parameter is in a table twice. -/
theorem entry_unique (h : w.Searchable a) (hadds : w.Adds Object.IsValue w')
    (ht : t.entries = nameTable (w.search start a)) {x y : Label × Address}
    (hx : x ∈ t.entries.toList) (hy : y ∈ t.entries.toList)
    (hsame : w'.heap.expr? x.2 = w'.heap.expr? y.2) : x = y := by
  rw [ht] at hx hy
  obtain ⟨f, hf, rfl⟩ := mem_toList_nameTable.mp hx
  obtain ⟨g, hg, rfl⟩ := mem_toList_nameTable.mp hy
  have hexpr : ∀ {f}, f ∈ w.search start a → w'.heap.expr? f.holder = some f.param := by
    intro f hf
    obtain ⟨path, n, ⟨-, ho, -⟩, -⟩ := search_sound h start f hf
    exact Heap.expr?_eq_some_iff.mpr (hadds.objects.get?_eq ho)
  have hfmem := (named?_eq_some hf).1
  have hgmem := (named?_eq_some hg).1
  rw [hexpr hfmem, hexpr hgmem, Option.some.injEq] at hsame
  rw [List.inj_on_of_nodup_map (search_nodup h start) hfmem hgmem hsame]

/-- Naming the parameters of an object ends, whatever objects are shared and also where they lead
back to themselves. Every name says how the object leads to its parameter, no parameter has two
names, and each is among the parameters that are collected from the object. -/
theorem names_say_ways (h : w.Searchable a) (start : String) : ∃ t w',
    namedParameters a (.text start) w = .ok t w' ∧
      (∀ entry ∈ t.entries.toList, ∃ name, entry.1 = .text name ∧
        w.NamesWay start a name entry.2) ∧
      (∀ x ∈ t.entries.toList, ∀ y ∈ t.entries.toList,
        w'.heap.expr? x.2 = w'.heap.expr? y.2 → x = y) ∧
      (w.Collectable a → ∃ (ps : List Expr) (v : Workspace),
        parameters a w = .ok (ps.map .ofExpr) v ∧ ∀ e, w'.Lists t e → e ∈ ps) := by
  obtain ⟨t, w', hadds, hrun, -, ht⟩ := namedParameters_search h start
  refine ⟨t, w', hrun, fun entry hentry => ?_,
    fun x hx y hy => entry_unique h hadds ht hx hy, fun hcollectable => ?_⟩
  · rw [ht] at hentry
    obtain ⟨f, hf, rfl⟩ := mem_toList_nameTable.mp hentry
    exact ⟨f.name, rfl, namesWay_of_mem_search h (named?_eq_some hf).1⟩
  · obtain ⟨depth, met, v, hmet, hcollected⟩ := parameters_tour hcollectable
    refine ⟨_, v, hcollected, fun e he => ?_⟩
    obtain ⟨f, hf, rfl, -⟩ := (lists_iff h hadds ht e).mp he
    have hholds := (mem_search_iff h start f.param).mp (List.mem_map_of_mem hf)
    rw [List.mem_eraseDups, mem_collected_iff hcollectable hmet]
    exact hholds.leadsToBelow

/-- The parameter that is held itself is named on the way through the pair. The other one is below
the sum only, and has no name. -/
theorem names_say_ways_sharedAndLooped :
    sharedAndLooped.Searchable 6 ∧ sharedAndLooped.Collectable 6 ∧
      ∃ t w', namedParameters 6 (.text "net") sharedAndLooped = .ok t w' ∧
        (∀ entry, entry ∈ t.entries.toList ↔ entry = (.text "net.0.0.0", 3)) ∧
        sharedAndLooped.NamesWay "net" 6 "net.0.0.0" 3 ∧
        ∃ (ps : List Expr) (v : Workspace),
          parameters 6 sharedAndLooped = .ok (ps.map .ofExpr) v ∧ ∀ e, w'.Lists t e → e ∈ ps := by
  have hcollectable := sharedAndLooped_collectable 6 (by decide)
  have h := hcollectable.searchable
  obtain ⟨t, w', hrun, hways, -, hparameters⟩ := names_say_ways h "net"
  have hentries : ∀ entry, entry ∈ t.entries.toList ↔ entry = (.text "net.0.0.0", 3) := by
    have hfound : sharedAndLooped.search "net" 6 = [⟨"net.0.0.0", 3, ⟨0, 1⟩⟩] := by decide
    obtain ⟨t', w'', -, hrun', -, ht⟩ := namedParameters_search h "net"
    rw [hrun] at hrun'
    cases hrun'
    intro entry
    rw [ht, hfound, mem_toList_nameTable]
    constructor
    · rintro ⟨f, hf, rfl⟩
      obtain rfl := List.mem_singleton.mp (named?_eq_some hf).1
      rfl
    · rintro rfl
      exact ⟨⟨"net.0.0.0", 3, ⟨0, 1⟩⟩, rfl, rfl⟩
  obtain ⟨name, hname, hway⟩ := hways _ ((hentries _).mpr rfl)
  cases hname
  exact ⟨h, hcollectable, t, w', hrun, hentries, hway, hparameters hcollectable⟩

/-! ### Objects that are not ordinary -/

theorem namedParameters_of_partsOf_error {err : Error} {path : Label}
    (hhandle : w.heap.handle? a = none) (hask : askClass call a w = .ok () w)
    (hparts : partsOf a w = .error err w') : namedParameters a path w = .error err w' := by
  have hnone : asking (fun h => h.handle? a) w = .ok none w := by rw [asking, hhandle]
  have hname : nameWithin w.searchDepth {} path a w = .error err w' := by
    refine (bind_of_ok hnone).trans ((bind_of_ok hask).trans ?_)
    rw [if_neg Std.HashSet.not_mem_empty]
    exact bind_of_error hparts
  exact bind_of_error hname

/-- From none of them are parameters named. -/
theorem unruly_names :
    (∃ w', namedParameters 3 (.text "") unruly = .error .emptyCell w') ∧
      (∃ w', namedParameters 4 (.text "") unruly = .error .integerTooLong w') ∧
      (∃ type w', namedParameters 6 (.text "") unruly =
        .error (.noAttribute type "startswith") w') ∧
      (∃ type w', namedParameters 9 (.text "") unruly =
        .error (.noAttribute type "__code__") w') ∧
      (∃ w', namedParameters 10 (.text "") unruly = .error (.absent 99) w') ∧
      ∃ type w', namedParameters 12 (.text "") unruly = .error (.notCallable type) w' := by
  refine ⟨⟨_, namedParameters_of_partsOf_error rfl rfl rfl⟩, ?_,
    ⟨_, _, namedParameters_of_partsOf_error rfl rfl rfl⟩,
    ⟨_, _, namedParameters_of_partsOf_error rfl rfl rfl⟩, ⟨_, rfl⟩, ⟨_, _, rfl⟩⟩
  -- evaluating the key would write its digits
  have hparts := partsOf_of_contents_error rfl unruly_contents
  exact ⟨_, namedParameters_of_partsOf_error rfl rfl hparts⟩

end TensorGraph.Workspace
