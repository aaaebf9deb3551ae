import TensorGraph.Proofs.Workspace.Collecting
import TensorGraph.Proofs.Workspace.Forwarding
import TensorGraph.Proofs.Workspace.Restriction
import TensorGraph.Proofs.Workspace.Plain
import TensorGraph.Proofs.Workspace.StateDict

/-!
# The parameters of networks

A network, an expression that it computes and a pass tell of parameters: what is collected from the
network, what is listed under names, what the expression has below it, and what the pass gives. They
all tell of the same ones.
-/

namespace TensorGraph.Workspace

/-- What objects are as handles. -/
def handlesAt (w : Workspace) (items : List Address) : List (Option Handle) :=
  items.map w.heap.handle?

variable {w w' : Workspace} {k : ArenaId} {s : Shape} {a : Address} {P : Nat → Prop}

theorem Adds.handlesAt (h : w.Adds Object.IsValue w') (items : List Address) :
    w'.handlesAt items = w.handlesAt items :=
  List.map_congr_left fun b _ => h.objects.handle?_of_values b

/-! ### Discovery -/

/-- All that components lead to is there. -/
theorem IsComponent.present (ha : w.IsComponent k s a) : (w.heap.get? a).isSome := by
  cases ha with
  | network hnetwork =>
    cases hnetwork with
    | relu hfunction _ => rw [hfunction]; rfl
    | affine hlayer _ _ | sequential hlayer _ _ =>
      obtain ⟨attrs, ho, -⟩ := hlayer
      rw [ho]
      rfl
  | layers hlist _ => rw [hlist]; rfl
  | param hparam =>
    obtain ⟨p, ⟨ho, -⟩, -⟩ := hparam
    rw [ho]
    rfl
  | absent habsent => rw [habsent]; rfl

theorem IsComponent.collectable (hplain : w.operandForms.isEmpty = true)
    (hw : (w.arena k).WellFormed) (ha : w.IsComponent k s a) : w.Collectable a where
  searchable := ha.searchable
  present _ _ _ hb := (ha.leads hb).present
  plain := hplain
  wellFormed _ _ b e hb ho := by
    obtain ⟨p, -, ho', -⟩ := ((ha.leads hb).isParam ho).node
    rw [ho] at ho'
    cases ho'
    exact hw

/-- The handles that a component leads to are parameters, so nothing else is below them. -/
theorem IsComponent.leadsToBelow_iff (ha : w.IsComponent k s a) (e : Expr) :
    w.LeadsToBelow a e ↔ w.HoldsParameter a e := by
  constructor
  · rintro ⟨path, b, x, hleads, ho, hbelow, hparam⟩
    obtain ⟨p, n, ho', hn, hkind⟩ := ((ha.leads hleads).isParam ho).node
    rw [ho] at ho'
    cases ho'
    obtain rfl := (below_of_isParameter ⟨n, hn, hkind⟩).mp hbelow
    exact ⟨path, b, n, hleads, ho, hn, hkind⟩
  · exact fun h => h.leadsToBelow

theorem exists_handlesAt {es : List Expr}
    (h : ∀ e ∈ es, ∃ b, w.heap.get? b = some (.expr e)) :
    ∃ items, w.handlesAt items = es.map fun e => some (.ofExpr e) := by
  induction es with
  | nil => exact ⟨[], rfl⟩
  | cons e es ih =>
    obtain ⟨b, ho⟩ := h e (List.mem_cons_self ..)
    obtain ⟨items, hitems⟩ := ih fun e' he' => h e' (List.mem_cons_of_mem e he')
    refine ⟨b :: items, ?_⟩
    rw [handlesAt, List.map_cons, Heap.handle?, ho]
    exact congrArg _ hitems

/-- What is collected from a network is its parameters. There are objects that hold them. -/
theorem parameters_network (hplain : w.operandForms.isEmpty = true)
    (hw : (w.arena k).WellFormed) (ha : w.IsNetwork k s a) : ∃ (ps : List Nat) (w' : Workspace),
    parameters a w = .ok (ps.map fun p : Nat => .ofExpr ⟨k, p⟩) w' ∧
      (∃ items, w.handlesAt items = ps.map fun p : Nat => some (.ofExpr ⟨k, p⟩)) ∧
      ∀ p, p ∈ ps ↔ w.HoldsParameter a ⟨k, p⟩ := by
  have hcomponent : w.IsComponent k s a := .network ha
  have hcollectable := hcomponent.collectable hplain hw
  obtain ⟨depth, t, w', ht, hrun⟩ := parameters_tour hcollectable
  have hmem : ∀ e, e ∈ (w.collected t).eraseDups ↔ w.HoldsParameter a e := fun e => by
    rw [List.mem_eraseDups, mem_collected_iff hcollectable ht, hcomponent.leadsToBelow_iff]
  have hindex : ∀ e ∈ (w.collected t).eraseDups, (⟨k, e.index.toNat⟩ : Expr) = e := by
    intro e he
    obtain ⟨p, rfl, -⟩ := ((hmem e).mp he).exists_index hcomponent
    rfl
  have hheld : ∀ e ∈ (w.collected t).eraseDups, ∃ b, w.heap.get? b = some (.expr e) := by
    intro e he
    obtain ⟨path, b, n, -, ho, -⟩ := (hmem e).mp he
    exact ⟨b, ho⟩
  obtain ⟨items, hitems⟩ := exists_handlesAt hheld
  refine ⟨(w.collected t).eraseDups.map fun e => e.index.toNat, w', ?_, ⟨items, ?_⟩, fun p => ?_⟩
  · rw [hrun, List.map_map]
    refine congrArg (fun ps => EStateM.Result.ok ps w') (List.map_congr_left fun e he => ?_)
    exact congrArg Handle.ofExpr (hindex e he).symm
  · rw [hitems, List.map_map]
    refine List.map_congr_left fun e he => ?_
    exact congrArg (fun e => some (Handle.ofExpr e)) (hindex e he).symm
  · rw [← hmem, List.mem_map]
    constructor
    · rintro ⟨e, he, rfl⟩
      rwa [hindex e he]
    · intro hp
      exact ⟨_, hp, rfl⟩

/-- What is listed under names is the parameters of the network, since their names are distinct. -/
theorem namedParameters_network (ha : w.IsNetwork k s a) :
    ∃ t w', namedParameters a (.text "") w = .ok t w' ∧ t.codes = [] ∧
      ∀ o, o ∈ w'.handlesAt (t.entries.toList.map Prod.snd) ↔
        ∃ p : Nat, o = some (.ofExpr ⟨k, p⟩) ∧ w.HoldsParameter a ⟨k, p⟩ := by
  have hcomponent : w.IsComponent k s a := .network ha
  have hsearchable := hcomponent.searchable
  have hnamed := (named_all_iff (search_nodup hsearchable "")).mpr ha.names_nodup
  obtain ⟨t, w', hadds, hrun, hcodes, ht⟩ := namedParameters_search hsearchable ""
  refine ⟨t, w', hrun, hcodes, fun o => ?_⟩
  rw [hadds.handlesAt, ht, handlesAt, List.map_map, List.mem_map]
  constructor
  · rintro ⟨entry, hentry, rfl⟩
    obtain ⟨f, hf, rfl⟩ := mem_toList_nameTable.mp hentry
    have hmem := (named?_eq_some hf).1
    have hholds := (mem_search_iff hsearchable "" f.param).mp (List.mem_map_of_mem hmem)
    obtain ⟨p, hp, -⟩ := hholds.exists_index hcomponent
    have hhandle := handle?_of_mem_search hsearchable hmem
    rw [hp] at hholds hhandle
    exact ⟨p, hhandle, hholds⟩
  · rintro ⟨p, rfl, hholds⟩
    have hmem := (mem_search_iff hsearchable "" _).mpr hholds
    obtain ⟨f, hf, hparam⟩ := List.mem_map.mp hmem
    refine ⟨_, mem_toList_nameTable.mpr ⟨f, hnamed f hf, rfl⟩, ?_⟩
    rw [← hparam]
    exact handle?_of_mem_search hsearchable hf

/-! ### Below an expression -/

/-- A node has the parameters below it on which it depends. -/
theorem mem_parametersUnder_iff (hw : (w.arena k).WellFormed) {i : Nat} {n : Node}
    (hn : (w.arena k).node? i = some n) (e : Expr) :
    e ∈ w.parametersUnder ⟨k, i⟩ ↔ ∃ p : Nat, e = ⟨k, p⟩ ∧ (w.arena k).DependsOn i p := by
  have hnode : w.arenas.node? ⟨k, i⟩ = some n := node?_ofNat.mpr hn
  have hops := Arena.operands_of_node? hn
  rw [mem_parametersUnder hw hnode, Below]
  simp only [hnode, Option.some.injEq, exists_eq_left']
  constructor
  · rintro ⟨rfl | ⟨hk, c, hc, p, hp, hr⟩, hparam⟩
    · exact ⟨i, rfl, .refl i, (isParam_iff k i).mpr hparam⟩
    · obtain ⟨k', i'⟩ := e
      obtain rfl : k' = k := hk
      obtain rfl : i' = p := hp
      exact ⟨p, rfl, .step (hops ▸ hc) hr, (isParam_iff k' p).mpr hparam⟩
  · rintro ⟨p, rfl, hr, hparam⟩
    refine ⟨?_, (isParam_iff k p).mp hparam⟩
    rcases reaches_iff.mp hr with rfl | ⟨c, hc, hr⟩
    · exact .inl rfl
    · exact .inr ⟨rfl, c, hops ▸ hc, p, rfl, hr⟩

/-- The parameters below an expression, as new handles. -/
theorem parametersOf_depends (hplain : w.operandForms.isEmpty = true) (hw : (w.arena k).WellFormed)
    (ha : w.Depends k s a P) : ∃ items w', parametersOf a w = .ok items w' ∧
      ∀ o, o ∈ w'.handlesAt items ↔ ∃ p : Nat, o = some (.ofExpr ⟨k, p⟩) ∧ P p := by
  obtain ⟨i, ⟨ho, n, hn, -⟩, hP⟩ := ha
  obtain ⟨items, w', hrun, -, hitems⟩ :=
    parametersOf_ok hplain (x := ⟨k, i⟩) hw (node?_ofNat.mpr hn) ho
  refine ⟨items, w', hrun, fun o => ?_⟩
  rw [handlesAt, map_handle? hitems, List.mem_map]
  constructor
  · rintro ⟨e, he, rfl⟩
    obtain ⟨p, rfl, hp⟩ := (mem_parametersUnder_iff hw hn e).mp he
    exact ⟨p, rfl, (hP p).mp hp⟩
  · rintro ⟨p, rfl, hp⟩
    exact ⟨_, (mem_parametersUnder_iff hw hn _).mpr ⟨p, rfl, (hP p).mpr hp⟩, rfl⟩

/-! ### Passes -/

/-- A new context is fresh, and nothing else changes. -/
theorem newContext_fresh (program : Option ProgramId) (w : Workspace) : ∃ c w' p,
    newContext program true w = .ok c w' ∧ c < w'.evaluators.size ∧
      w'.evaluator c = { context := .fresh true, program := p } ∧ w'.arenas = w.arenas ∧
      w'.heap = w.heap ∧ w'.operandForms = w.operandForms := by
  have hnew : ∀ p, (w.evaluators.push { context := .fresh true, program := p }).getD
      w.evaluators.size {} = { context := .fresh true, program := p } := fun p =>
    (getD_push ..).trans (if_pos rfl)
  cases program with
  | some p => exact ⟨_, _, p, rfl, by simp, hnew p, rfl, rfl, rfl⟩
  | none => exact ⟨_, _, w.programs.size, rfl, by simp, hnew _, rfl, rfl, rfl⟩

/-- A pass that is asked for objects is asked for the parameters that they are. -/
theorem backward_of_handles {c : ContextId} (h : w.Plain c) {i : Nat}
    (ha : w.heap.handle? a = some (.ofExpr ⟨k, i⟩)) {ps : List Nat} {wrt : List Address}
    (hwrt : w.handlesAt wrt = ps.map fun p : Nat => some (.ofExpr ⟨k, p⟩)) :
    Mirrors k
      (differentiate c (.expr ⟨k, i⟩) none (some (Differentiation.handles k ps)) w)
      (backward c a none (some wrt) w) := by
  have hlength : wrt.length = (ps.map fun p : Nat => (⟨k, p⟩ : Expr)).length := by
    have hboth := congrArg List.length hwrt
    rw [handlesAt, List.length_map, List.length_map] at hboth
    rw [List.length_map, hboth]
  have hpairs : ∀ pair ∈ wrt.zip (ps.map fun p : Nat => (⟨k, p⟩ : Expr)),
      w.heap.handle? pair.1 = some (.ofExpr pair.2) := by
    intro pair hpair
    obtain ⟨j, hj⟩ := List.mem_iff_getElem?.mp hpair
    obtain ⟨hitem, hexpr⟩ := List.getElem?_zip_eq_some.mp hj
    have hsame := congrArg (fun items => items[j]?) hwrt
    rw [List.getElem?_map] at hexpr
    obtain ⟨p, hp, hpe⟩ := Option.map_eq_some_iff.mp hexpr
    simpa only [handlesAt, List.getElem?_map, hitem, hp, hpe, Option.map_some,
      Option.some.injEq] using hsame
  have hseed : ∀ pair : Address × Expr, none = some pair →
      w.heap.handle? pair.1 = some (.ofExpr pair.2) := by simp
  have hmirrors := backward_mirrors h ha hseed (fun pairs hp => (Option.some.inj hp) ▸ hpairs)
  have hexprs : (wrt.zip (ps.map fun p : Nat => (⟨k, p⟩ : Expr))).map
      (fun pair => Operand.expr pair.2) = Differentiation.handles k ps := by
    have hsnd := List.map_snd_zip (Nat.le_of_eq hlength.symm)
    have hcomp := congrArg (List.map Operand.expr) hsnd
    rw [List.map_map, List.map_map] at hcomp
    exact hcomp
  rw [Option.map_some, Option.map_some, hexprs, List.map_fst_zip (Nat.le_of_eq hlength)] at hmirrors
  exact hmirrors

section Fresh

variable {c : ContextId} {program : ProgramId}

theorem plain_of_fresh (hplain : w.operandForms.isEmpty = true)
    (hfresh : w.evaluator c = { context := .fresh true, program }) : w.Plain c := by
  refine ⟨hplain, by rw [hfresh], by rw [hfresh], ?_⟩
  have hnone : (w.evaluator c).ties.owners.toList = [] := by
    rw [hfresh]
    exact Std.HashMap.toList_empty
  rw [hnone]
  rfl

/-- A fresh context has no gradients to account for. -/
theorem tallied_of_fresh (hregular : (w.arena k).Regular)
    (hfresh : w.evaluator c = { context := .fresh true, program }) :
    Tallied (R := Int) ⟨id, id, id, id⟩ (fun _ => 0) k c w [] := by
  have hcontext : (w.evaluator c).context = .fresh true := by rw [hfresh]
  refine ⟨hregular, fun _ => ⟨rfl, fun j => ?_⟩, fun hbound => ?_⟩
  · rw [hcontext]
    exact Table.get?_empty j
  · rw [hcontext] at hbound
    cases hbound

end Fresh

/-- A pass that is asked for parameters on which its output depends gives these. -/
theorem keys_of_complete {o : Outcome} {b : Arena} {y : Nat} {ps : List Nat}
    {before after : Table Int Int} (hps : ∀ p ∈ ps, b.DependsOn y p)
    (h : o.Complete b (Differentiation.AskedFor (some (Differentiation.handles k ps))) y
      before after) (i : Int) :
    (∃ g, (i, g) ∈ o.gradients) ↔ ∃ p ∈ ps, i = (p : Nat) := by
  rw [h.keys]
  constructor
  · rintro ⟨p, rfl, -, -, hasked⟩
    exact ⟨p, Differentiation.askedFor_handles.mp hasked, rfl⟩
  · rintro ⟨p, hp, rfl⟩
    obtain ⟨hr, hparam⟩ := hps p hp
    exact ⟨p, rfl, hr, hparam, Differentiation.askedFor_handles.mpr hp⟩

/-- A pass of a fresh context gives the parameters that it is asked for, if its output depends on
them. -/
theorem backward_fresh (hplain : w.operandForms.isEmpty = true) (hregular : (w.arena k).Regular)
    (ha : w.Depends k s a P) {ps : List Nat} (hps : ∀ p ∈ ps, P p) {wrt : List Address}
    (hwrt : w.handlesAt wrt = ps.map fun p : Nat => some (.ofExpr ⟨k, p⟩))
    (program : Option ProgramId) : ∃ c v gradients v', newContext program true w = .ok c v ∧
      backward c a none (some wrt) v = .ok gradients v' ∧
      ∀ h, h ∈ gradients.map Prod.fst ↔ ∃ p ∈ ps, h = .ofExpr ⟨k, (p : Nat)⟩ := by
  obtain ⟨i, ⟨ho, n, hn, -⟩, hP⟩ := ha
  obtain ⟨c, v, program', hnew, hc, hfresh, harenas, hheap, hforms⟩ := newContext_fresh program w
  have harena : v.arena k = w.arena k := by rw [arena, arena, harenas]
  have hdepends : ∀ p ∈ ps, (v.arena k).DependsOn i p := by
    intro p hp
    rw [harena]
    exact (hP p).mpr (hps p hp)
  have haccepts : (v.differentiation c k).Accepts (.expr ⟨k, i⟩) none
      (some (Differentiation.handles k ps)) ⟨k, i⟩ n := by
    rw [differentiation, hfresh]
    refine Differentiation.accepts_handles ?_ (by simp [Differentiation.SeedFits]) fun p hp =>
      (hdepends p hp).2
    rw [harena]
    exact hn
  have htallied := tallied_of_fresh (k := k) (by rw [harena]; exact hregular) hfresh
  obtain ⟨o, v₁, hok, hcomplete⟩ := htallied.complete hc haccepts (by simp)
  have hhandle : v.heap.handle? a = some (.ofExpr ⟨k, i⟩) := by rw [hheap, Heap.handle?, ho]
  have hasked : v.handlesAt wrt = ps.map fun p : Nat => some (.ofExpr ⟨k, p⟩) := by
    rw [handlesAt, hheap]
    exact hwrt
  have hmirrors := backward_of_handles (plain_of_fresh (hforms ▸ hplain) hfresh) hhandle hasked
  rw [hok] at hmirrors
  cases hrun : backward c a none (some wrt) v with
  | error err v₂ =>
    rw [hrun] at hmirrors
    exact hmirrors.elim
  | ok gradients v₂ =>
    rw [hrun] at hmirrors
    have hkeys := keys_of_complete hdepends hcomplete
    refine ⟨c, v, gradients, v₂, hnew, hrun, fun h => ?_⟩
    rw [hmirrors.2, List.mem_map]
    constructor
    · rintro ⟨⟨j, g⟩, hentry, rfl⟩
      obtain ⟨p, hp, rfl⟩ := (hkeys j).mp ⟨g, hentry⟩
      exact ⟨p, hp, rfl⟩
    · rintro ⟨p, hp, rfl⟩
      obtain ⟨g, hentry⟩ := (hkeys p).mpr ⟨p, hp, rfl⟩
      exact ⟨(p, g), hentry, rfl⟩

/-! ### No parameter is lost -/

/-- A network, what it gave for an input and a pass from there tell of the same parameters. -/
structure SameParameters (w : Workspace) (network input output : Address) (ps : List Handle) :
    Prop where
  /-- They are collected from the network. -/
  collected : ∃ v, parameters network w = .ok ps v
  /-- They are what the network lists under names. -/
  named : ∃ t v, namedParameters network (.text "") w = .ok t v ∧
    ∀ o, o ∈ v.handlesAt (t.entries.toList.map Prod.snd) ↔ o ∈ ps.map some
  /-- They are below the output, beside what is below the input. -/
  below : ∃ items v given v', parametersOf output w = .ok items v ∧
    parametersOf input w = .ok given v' ∧
    ∀ o, o ∈ v.handlesAt items ↔ o ∈ ps.map some ∨ o ∈ v'.handlesAt given
  /-- There are objects to ask for them. -/
  held : ∃ wrt, w.handlesAt wrt = ps.map some
  /-- They are what a pass of a fresh context gives that is asked for them. -/
  differentiated : ∀ wrt, w.handlesAt wrt = ps.map some → ∀ program, ∃ c v gradients v',
    newContext program true w = .ok c v ∧ backward c output none (some wrt) v = .ok gradients v' ∧
    ∀ h, h ∈ gradients.map Prod.fst ↔ h ∈ ps

/-- Whatever the network and whichever of its layers are shared: it can be applied to an expression
of its arena and shape, and no parameter is lost between what is collected, what is listed, what is
computed and what is differentiated. -/
theorem networks_keep_parameters (hplain : w.operandForms.isEmpty = true)
    (hregular : (w.arena k).Regular) {network input : Address} {i : Nat}
    (hnetwork : w.IsNetwork k s network) (hinput : w.RefersTo k s input i) :
    ∃ output w' ps, forward call network input w = .ok output w' ∧
      w'.SameParameters network input output ps := by
  have hgiven : w.Depends k s input fun p => (w.arena k).DependsOn i p :=
    ⟨i, hinput, fun p => Iff.rfl⟩
  obtain ⟨output, w', hforward, hgoes, houtput⟩ :=
    forward_network hregular.wellFormed hnetwork hgiven
  have hplain' : w'.operandForms.isEmpty = true := by
    rw [hgoes.same]
    exact hplain
  have hregular' := hgoes.arena.regular hregular
  have hnetwork' := hgoes.isNetwork hnetwork
  obtain ⟨ps, v, hcollected, ⟨items, hitems⟩, hps⟩ :=
    parameters_network hplain' hregular'.wellFormed hnetwork'
  obtain ⟨t, v₁, hnamed, -, ht⟩ := namedParameters_network hnetwork'
  obtain ⟨below, v₂, hbelow, hbelow'⟩ := parametersOf_depends hplain' hregular'.wellFormed houtput
  obtain ⟨given, v₃, hof, hgiven'⟩ := parametersOf_depends hplain' hregular'.wellFormed
    (hgoes.depends hregular.wellFormed hgiven)
  have hholds : ∀ p : Nat, w.HoldsParameter network ⟨k, p⟩ ↔ p ∈ ps := fun p => by
    rw [hps, hgoes.holdsParameter_iff hnetwork]
  have hsome : ∀ o, o ∈ (ps.map fun p : Nat => Handle.ofExpr ⟨k, p⟩).map some ↔
      ∃ p : Nat, o = some (.ofExpr ⟨k, p⟩) ∧ p ∈ ps := by
    intro o
    simp only [List.map_map, List.mem_map, Function.comp_apply, and_comm, eq_comm]
  have hmap : ps.map (fun p : Nat => some (Handle.ofExpr ⟨k, p⟩)) =
      (ps.map fun p : Nat => Handle.ofExpr ⟨k, p⟩).map some := by
    rw [List.map_map]
    rfl
  refine ⟨output, w', ps.map fun p : Nat => .ofExpr ⟨k, p⟩, hforward, ⟨v, hcollected⟩,
    ⟨t, v₁, hnamed, fun o => ?_⟩, ⟨below, v₂, given, v₃, hbelow, hof, fun o => ?_⟩,
    ⟨items, hitems.trans hmap⟩, fun wrt hwrt program => ?_⟩
  · rw [ht, hsome]
    exact exists_congr fun p => and_congr_right fun _ => (hps p).symm
  · rw [hbelow', hsome, hgiven', ← exists_or]
    refine exists_congr fun p => ?_
    rw [hholds, ← and_or_left, or_comm]
  · have hdepends : ∀ p ∈ ps, (w.arena k).DependsOn i p ∨ w.HoldsParameter network ⟨k, p⟩ :=
      fun p hp => .inr ((hholds p).mpr hp)
    obtain ⟨c, v, gradients, v', hnew, hbackward, hkeys⟩ :=
      backward_fresh hplain' hregular' houtput hdepends (hwrt.trans hmap.symm) program
    refine ⟨c, v, gradients, v', hnew, hbackward, fun h => ?_⟩
    rw [hkeys, List.mem_map]
    exact exists_congr fun p => and_congr_right fun _ => eq_comm

/-- A sequence of an affine layer, relu and a sequence of that layer and one without a bias. -/
def sharedLayers : Workspace :=
  { start with
    arenas := #[⟨#[⟨.leaf .param, ⟨[2]⟩, some "weight"⟩, ⟨.leaf .param, ⟨[2]⟩, some "bias"⟩,
      ⟨.leaf .param, ⟨[2]⟩, some "weight"⟩, ⟨.leaf .param, ⟨[2]⟩, some "input"⟩]⟩]
    heap := ⟨Heap.start.objects ++
      #[.expr ⟨0, 0⟩, .expr ⟨0, 1⟩, .dict [(.text "weight", 2), (.text "bias", 3)],
        .member (.layer .affine) 4 [], .expr ⟨0, 2⟩, .value .none,
        .dict [(.text "weight", 6), (.text "bias", 7)], .member (.layer .affine) 8 [],
        .list [5, 9], .dict [(.text "layers", 10)], .member (.layer .sequential) 11 [],
        .list [5, 0, 12], .dict [(.text "layers", 13)], .member (.layer .sequential) 14 [],
        .expr ⟨0, 3⟩]⟩ }

theorem sharedLayers_network : sharedLayers.IsNetwork 0 ⟨[2]⟩ 15 := by
  have hparam : ∀ {b : Address} {p : Nat} {name : Option String},
      sharedLayers.heap.get? b = some (.expr ⟨0, p⟩) →
      (sharedLayers.arena 0).node? p = some ⟨.leaf .param, ⟨[2]⟩, name⟩ →
      sharedLayers.IsParam 0 ⟨[2]⟩ b := fun ho hn =>
    ⟨_, ⟨ho, _, hn, rfl⟩, (Arena.isParam_ofNat hn).mpr rfl⟩
  have hweight : sharedLayers.IsParam 0 ⟨[2]⟩ 2 := @hparam 2 0 _ rfl rfl
  have hbias : sharedLayers.IsParam 0 ⟨[2]⟩ 3 := @hparam 3 1 _ rfl rfl
  have hother : sharedLayers.IsParam 0 ⟨[2]⟩ 6 := @hparam 6 2 _ rfl rfl
  have haffine : sharedLayers.IsNetwork 0 ⟨[2]⟩ 5 := .affine ⟨4, rfl, rfl⟩ hweight (.inr hbias)
  have hwithout : sharedLayers.IsNetwork 0 ⟨[2]⟩ 9 := .affine ⟨8, rfl, rfl⟩ hother (.inl rfl)
  have hrelu : sharedLayers.IsNetwork 0 ⟨[2]⟩ 0 := @IsNetwork.relu _ _ _ 0 1 rfl rfl
  have hinner : sharedLayers.IsNetwork 0 ⟨[2]⟩ 12 :=
    .sequential ⟨11, rfl, rfl⟩ rfl (by simp [haffine, hwithout])
  exact .sequential ⟨14, rfl, rfl⟩ rfl (by simp [haffine, hrelu, hinner])

/-- The layer that occurs twice is applied twice, and its parameters are told once. -/
theorem networks_keep_parameters_sharedLayers :
    sharedLayers.operandForms.isEmpty = true ∧ (sharedLayers.arena 0).Regular ∧
      sharedLayers.IsNetwork 0 ⟨[2]⟩ 15 ∧ sharedLayers.RefersTo 0 ⟨[2]⟩ 16 3 ∧
      ∃ output w' ps, forward call 15 16 sharedLayers = .ok output w' ∧
        w'.SameParameters 15 16 output ps := by
  have hleaves : ∀ n ∈ (sharedLayers.arena 0).nodes.toList, n.operands = [] := by decide
  have hregular : (sharedLayers.arena 0).Regular := by
    refine ⟨fun j n hn c hc => ?_, fun j n hn c hc => ?_⟩
    · rw [hleaves n (Array.mem_toList_iff.mpr (Array.mem_of_getElem? hn))] at hc
      cases hc
    · rw [hleaves n (Array.mem_toList_iff.mpr (Array.mem_of_getElem? hn))] at hc
      cases hc
  have hinput : sharedLayers.RefersTo 0 ⟨[2]⟩ 16 3 := ⟨rfl, _, rfl, rfl⟩
  have hplain : sharedLayers.operandForms.isEmpty = true := Std.HashMap.isEmpty_empty
  exact ⟨hplain, hregular, sharedLayers_network, hinput,
    networks_keep_parameters hplain hregular sharedLayers_network hinput⟩

/-! ### Inputs that no operator has built -/

/-- A layer without a bias, and the product of its weight with a parameter of another shape, which no
operator has built. -/
def handMade : Workspace :=
  { start with
    arenas := #[⟨#[⟨.leaf .param, ⟨[4]⟩, some "weight"⟩, ⟨.leaf .param, ⟨[5]⟩, none⟩,
      ⟨.binary .mul 0 1, ⟨[4]⟩, none⟩]⟩]
    heap := ⟨Heap.start.objects ++
      #[.expr ⟨0, 0⟩, .value .none, .dict [(.text "weight", 2), (.text "bias", 3)],
        .member (.layer .affine) 4 [], .expr ⟨0, 2⟩]⟩ }

theorem handMade_network : handMade.IsNetwork 0 ⟨[4]⟩ 5 :=
  .affine ⟨4, rfl, rfl⟩ ⟨_, ⟨rfl, _, rfl, rfl⟩, rfl⟩ (.inl rfl)

/-- What the layer makes of the product. -/
def applied : Workspace := stateAfter (forward call 5 6 handMade)

/-- The first nodes of the arena: the output is the fourth, a seed the fifth, and a pass appends the
others. -/
def appliedNodes (count : Nat) : Arena :=
  ⟨([⟨.leaf .param, ⟨[4]⟩, some "weight"⟩, ⟨.leaf .param, ⟨[5]⟩, none⟩,
    ⟨.binary .mul 0 1, ⟨[4]⟩, none⟩, ⟨.binary .mul 2 0, ⟨[4]⟩, none⟩,
    ⟨.leaf .param, ⟨[4]⟩, some "grad"⟩, ⟨.binary .mul 4 0, ⟨[4]⟩, none⟩,
    ⟨.binary .mul 4 2, ⟨[4]⟩, none⟩].take count).toArray⟩

/-- The rule of the product multiplies its gradient by a parameter of another shape. -/
theorem meet_applied (live : Std.HashSet Int) (hweight : ((0 : Nat) : Int) ∈ live)
    (hproduct : ((2 : Nat) : Int) ∈ live) (houtput : ((3 : Nat) : Int) ∈ live) :
    ∃ t, [3, 2, 1, 0].forM (Pass.meet live)
        ⟨appliedNodes 5, {}, (∅ : Std.HashMap Int (List Int)).insert 3 [4], #[]⟩ =
      .error (.shapeMismatch (.operator .mul) ⟨[4]⟩ ⟨[5]⟩) t := by
  set s : Pass :=
    ⟨appliedNodes 5, {}, (∅ : Std.HashMap Int (List Int)).insert 3 [4], #[]⟩ with hs
  have hwait : s.waiting 3 = [4] := by simp [hs, Pass.waiting]
  have hmeet := Pass.meet_single (n := ⟨.binary .mul 2 0, ⟨[4]⟩, none⟩)
    (m := ⟨.leaf .param, ⟨[4]⟩, some "grad"⟩) houtput hwait (Table.get?_empty 3) rfl (by decide) rfl
    (by decide)
  obtain ⟨⟨arena, grads, pending, found⟩, hu, hwait', hgrads, harena⟩ :
      ∃ u, Pass.meet live 3 s = .ok () u ∧ u.waiting 2 = [5] ∧ u.grads.get? 2 = none ∧
        u.arena = appliedNodes 7 := by
    refine ⟨_, hmeet.trans ((Pass.sendByRules_cons (h := 5) (b := appliedNodes 6) hproduct rfl).trans
      (Pass.sendByRules_cons (h := 6) (b := appliedNodes 7) hweight rfl)), ?_, ?_, rfl⟩
    · simp [Pass.waiting, hs, Std.HashMap.getD_insert, Std.HashMap.getD_erase]
    · exact (Table.get?_insert ..).trans ((if_neg (by decide)).trans (Table.get?_empty 2))
  obtain rfl : arena = appliedNodes 7 := harena
  have hmeet' := Pass.meet_single (n := ⟨.binary .mul 0 1, ⟨[4]⟩, none⟩)
    (m := ⟨.binary .mul 4 0, ⟨[4]⟩, none⟩) hproduct hwait' hgrads rfl (by decide) rfl (by decide)
  exact ⟨_, (bind_of_ok hu).trans
    (bind_of_error (hmeet'.trans (Pass.sendByRules_error hweight rfl)))⟩

theorem run_applied {c : Context} (hgrads : c.grads = {}) {targets : Std.HashSet Int}
    (hweight : (0 : Int) ∈ targets) (hother : (1 : Int) ∉ targets) :
    ∃ t, Differentiation.run 3 4 (some targets) ⟨appliedNodes 5, c⟩ =
      .error (.shapeMismatch (.operator .mul) ⟨[4]⟩ ⟨[5]⟩) t := by
  have horder : (appliedNodes 5).toposort? 3 = some [0, 1, 2, 3] := by
    simp [appliedNodes, Arena.toposort?, Arena.reach?, Arena.at?, Arena.node?, reached, sweep,
      Arena.openOperands, Arena.operands, Form.operands, Node.operands]
  have hlive : (appliedNodes 5).live (some targets) [0, 1, 2, 3] =
      (((∅ : Std.HashSet Int).insert 0).insert 2).insert 3 := by
    simp [appliedNodes, Arena.live, Arena.at?, Arena.node?, Node.operands, Form.operands, Node.kind,
      Form.kind, hweight, hother]
  obtain ⟨t, ht⟩ := meet_applied ((((∅ : Std.HashSet Int).insert 0).insert 2).insert 3)
    (by simp) (by simp) (by simp)
  refine ⟨⟨t.arena, { c with grads := t.grads }⟩, ?_⟩
  rw [← hgrads] at ht
  simp only [Differentiation.run, horder, hlive, List.reverse_cons, List.reverse_nil,
    List.nil_append, List.cons_append, ht]

/-- A pass of a fresh context that is asked for the weight only does not come to its end. -/
theorem differentiation_applied {ps : List Nat} (hps : ∀ p, p ∈ ps ↔ p = 0) :
    ∃ t, Differentiation.backward (.expr ⟨0, (3 : Nat)⟩) none
        (some (Differentiation.handles 0 ps)) ⟨appliedNodes 4, .fresh true⟩ =
      .error (.shapeMismatch (.operator .mul) ⟨[4]⟩ ⟨[5]⟩) t := by
  have haccepts : Differentiation.Accepts ⟨appliedNodes 4, .fresh true⟩ (.expr ⟨0, (3 : Nat)⟩) none
      (some (Differentiation.handles 0 ps)) ⟨0, (3 : Nat)⟩ ⟨.binary .mul 2 0, ⟨[4]⟩, none⟩ := by
    refine Differentiation.accepts_handles rfl (by simp [Differentiation.SeedFits]) fun q hq => ?_
    obtain rfl := (hps q).mp hq
    rfl
  obtain ⟨targets, htargets, hrun⟩ := haccepts.backward_eq_run rfl
  have hasks : ∀ q : Nat, Arena.AskedIn targets q ↔ q = 0 := fun q =>
    (htargets q).symm.trans (Differentiation.askedFor_handles.trans (hps q))
  rw [hrun]
  cases targets with
  | none =>
    have hone := (hasks 1).mp (by rintro ts ⟨⟩)
    cases hone
  | some targets =>
    have hother : (1 : Int) ∉ targets := fun h => by
      have hone := (hasks 1).mp fun ts hts => by
        cases hts
        exact h
      cases hone
    exact run_applied rfl ((hasks 0).mpr rfl targets rfl) hother

/-- So does one that is asked for objects that are the weight. -/
theorem backward_applied {ps : List Nat} (hps : ∀ p, p ∈ ps ↔ p = 0) {wrt : List Address}
    (hwrt : applied.handlesAt wrt = ps.map fun p : Nat => some (.ofExpr ⟨0, p⟩)) :
    ∃ c u u', newContext none true applied = .ok c u ∧ backward c 7 none (some wrt) u =
      .error (.shapeMismatch (.operator .mul) ⟨[4]⟩ ⟨[5]⟩) u' := by
  obtain ⟨c, u, p, hnew, -, hfresh, harenas, hheap, hforms⟩ := newContext_fresh none applied
  have hstart : u.differentiation c 0 = ⟨appliedNodes 4, .fresh true⟩ := by
    rw [differentiation, hfresh, arena, harenas]
    rfl
  have hhandle : u.heap.handle? 7 = some (.ofExpr ⟨0, (3 : Nat)⟩) := by
    rw [hheap]
    rfl
  have hasked : u.handlesAt wrt = ps.map fun p : Nat => some (.ofExpr ⟨0, p⟩) := by
    rw [handlesAt, hheap]
    exact hwrt
  obtain ⟨t, ht⟩ := differentiation_applied hps
  rw [← hstart] at ht
  obtain ⟨w', hw'⟩ := differentiating_of_error ht
  have hdifferentiate : differentiate c (.expr ⟨0, (3 : Nat)⟩) none
      (some (Differentiation.handles 0 ps)) u =
        .error (.shapeMismatch (.operator .mul) ⟨[4]⟩ ⟨[5]⟩) w' := hw'
  have hmirrors := backward_of_handles
    (plain_of_fresh (hforms ▸ Std.HashMap.isEmpty_empty) hfresh) hhandle hasked
  rw [hdifferentiate] at hmirrors
  cases hbackward : backward c 7 none (some wrt) u with
  | ok gradients u' =>
    rw [hbackward] at hmirrors
    exact hmirrors.elim
  | error err u' =>
    rw [hbackward] at hmirrors
    obtain ⟨rfl, -⟩ := hmirrors
    exact ⟨c, u, u', hnew, hbackward⟩

/-- For an input that no operator has built, the pass does not come to its end. -/
theorem handMade_input_fails :
    handMade.IsNetwork 0 ⟨[4]⟩ 5 ∧ handMade.RefersTo 0 ⟨[4]⟩ 6 2 ∧
      ∃ output w' ps v wrt c u u', forward call 5 6 handMade = .ok output w' ∧
        parameters 5 w' = .ok ps v ∧ w'.handlesAt wrt = ps.map some ∧
        newContext none true w' = .ok c u ∧ backward c output none (some wrt) u =
          .error (.shapeMismatch (.operator .mul) ⟨[4]⟩ ⟨[5]⟩) u' := by
  have hnetwork : applied.IsNetwork 0 ⟨[4]⟩ 5 :=
    .affine ⟨4, rfl, rfl⟩ ⟨_, ⟨rfl, _, rfl, rfl⟩, rfl⟩ (.inl rfl)
  have hplain : applied.operandForms.isEmpty = true := Std.HashMap.isEmpty_empty
  have hwellFormed : (applied.arena 0).WellFormed := by
    have hparams : (Arena.mk #[⟨.leaf .param, ⟨[4]⟩, some "weight"⟩,
        ⟨.leaf .param, ⟨[5]⟩, none⟩]).WellFormed :=
      (Arena.wellFormed_empty.push (by decide)).push (by decide)
    exact (hparams.push (n := ⟨.binary .mul 0 1, ⟨[4]⟩, none⟩) (by decide)).push
      (n := ⟨.binary .mul 2 0, ⟨[4]⟩, none⟩) (by decide)
  obtain ⟨ps, v, hcollected, ⟨wrt, hwrt⟩, hps⟩ :=
    parameters_network hplain hwellFormed hnetwork
  have hweight : ∀ p, p ∈ ps ↔ p = 0 := fun p => by
    rw [hps, holdsParameter_affine ⟨4, rfl, rfl⟩,
      holdsParameter_iff_of_isParam (k := 0) (s := ⟨[4]⟩) (p := 0) ⟨rfl, _, rfl, rfl⟩ rfl]
    simp [not_holdsParameter_of_value (w := applied) (a := 3) (v := .none) rfl]
  obtain ⟨c, u, u', hnew, hfails⟩ := backward_applied hweight hwrt
  refine ⟨handMade_network, ⟨rfl, _, rfl, rfl⟩, 7, applied, _, v, wrt, c, u, u', rfl, hcollected,
    ?_, hnew, hfails⟩
  rw [hwrt, List.map_map]
  rfl

end TensorGraph.Workspace
