import Mathlib.Data.List.Nodup
import Mathlib.Data.Set.Function
import TensorGraph.Proofs.Context.Once
import TensorGraph.Proofs.Context.Shaped
import TensorGraph.Proofs.Program.Readers

/-!
# Renamed buffers

The order in which a context evaluates nodes of a well-shaped arena shows in the ids of its buffers
and nowhere else. Each buffer is the buffer of some node, and nodes share one exactly when they
stand for one tree; so where two contexts have evaluated the same nodes, each into a program of its
own, the buffer of a node here and the buffer of the same node there name each other.
-/

namespace TensorGraph

def Sources.rename (ρ : Nat → Nat) : Sources → Sources
  | .one a => .one (ρ a)
  | .two a b => .two (ρ a) (ρ b)

theorem Sources.toList_rename (ρ : Nat → Nat) (r : Sources) :
    (r.rename ρ).toList = r.toList.map ρ := by
  cases r <;> rfl

/-- A cell that reads buffers under other ids. -/
def Cell.rename (ρ : Nat → Nat) : Cell → Cell
  | .leaf s z => .leaf s z
  | .instruction i => .instruction { i with sources := i.sources.rename ρ }

/-- The only id that a call may add is the one that it is granted. -/
theorem Program.mem_ids_of_granted {digits : Option Nat} {p q : Program} {call : Call}
    {e : Emission} (h : call.carryOut digits p = .ok e q) {id : Nat} (hid : id ∈ q.ids) :
    id ∈ p.ids ∨ id = e.id := by
  have hpushed : ∀ {c : Cell}, q.cells = p.cells.push c → id ∈ p.ids ∨ id = p.size + 1 := by
    intro c hcells
    rw [mem_ids, size, hcells, Array.size_push] at hid
    rw [mem_ids, size]
    omega
  cases outcome digits p call with
  | refused e' hits hrun | unnamed e' i _ _ _ _ hrun =>
    rw [hrun] at h
    cases h
  | leaf s z _ hrun =>
    rw [hrun] at h
    cases h
    exact hpushed rfl
  | fresh i _ _ _ _ hrun =>
    rw [hrun] at h
    cases h
    exact hpushed (cells_addUsers _ _ _)
  | hit i id' _ _ _ hrun =>
    rw [hrun] at h
    cases h
    rw [mem_ids, size, cells_addUsers] at hid
    exact .inl (mem_ids.mpr hid)

theorem Program.leafCount_add_instructionCount (p : Program) :
    p.leafCount + p.instructionCount = p.size := by
  have h : p.cells.size = p.cells.countP Cell.isLeaf + _ := Array.size_eq_countP_add_countP
  simpa [leafCount, instructionCount, size] using h.symm

/-- Buffers that hold what one node computes, over operands that are renamed, are the same but for
their sources. -/
theorem Program.Holds.cell?_eq_map {p q : Program} {memo memo' : Nat → Option Nat} {n : Node}
    {b b' : Nat} {ρ : Nat → Nat} (h : p.Holds memo n b) (h' : q.Holds memo' n b')
    (hmemo : ∀ i, memo' i = (memo i).map ρ) (hshape : p.HasShape b n.shape)
    (hshape' : q.HasShape b' n.shape) : q.cell? b' = (p.cell? b).map (Cell.rename ρ) := by
  obtain ⟨form, shape, name⟩ := n
  obtain ⟨c, hc, hcs⟩ := hshape
  obtain ⟨c', hc', hcs'⟩ := hshape'
  cases form with
  | leaf k =>
    rw [show p.cell? b = _ from h, show q.cell? b' = _ from h']
    rfl
  | unary k x =>
    obtain ⟨u, s, hu, hcell⟩ := h
    obtain ⟨u', s', hu', hcell'⟩ := h'
    cases hc.symm.trans hcell
    cases hc'.symm.trans hcell'
    rw [hmemo, hu] at hu'
    cases hu'
    cases hcs.trans hcs'.symm
    rw [hcell, hcell']
    rfl
  | binary k l r =>
    obtain ⟨u, v, s, hu, hv, hcell⟩ := h
    obtain ⟨u', v', s', hu', hv', hcell'⟩ := h'
    cases hc.symm.trans hcell
    cases hc'.symm.trans hcell'
    rw [hmemo, hu] at hu'
    rw [hmemo, hv] at hv'
    cases hu'
    cases hv'
    cases hcs.trans hcs'.symm
    rw [hcell, hcell']
    rfl

namespace Lowering

open Number.Numeral (digitLimit)

/-! ### What visits keep -/

/-- The evaluation of a node that was not remembered, which is granted, keeps a property. -/
def KeptByVisits (strict : Bool) (a : Arena) (I : Lowering → Prop) : Prop :=
  ∀ (i : Nat) n x e q s, I s → s.context.buffer? i = none → a.node? i = some n →
    request? strict s.context.buffer? n = some x → x s.program = .ok e q → I (visited i e q s)

section Kept

variable {strict : Bool} {a : Arena} {I : Lowering → Prop} {s t : Lowering}

theorem KeptByVisits.evaluateNodes (h : KeptByVisits strict a I) (hidle : s.context.Idle)
    (hs : I s) {todo : List Nat} (hnodup : todo.Nodup)
    (hnew : ∀ i ∈ todo, s.context.buffer? i = none)
    (hok : (todo.map Int.ofNat).forM (evaluateNode strict a) s = .ok () t) : I t := by
  induction todo generalizing s with
  | nil =>
    cases hok
    exact hs
  | cons i todo ih =>
    obtain ⟨hi, hnodup⟩ := List.nodup_cons.mp hnodup
    obtain ⟨u, s', hfirst, hrest⟩ := exists_of_bind_ok hok
    obtain ⟨n, x, e, q, hn, hask, hx, rfl⟩ := exists_of_evaluateNode_ok hidle hfirst
    have hvisit := h i n x e q s hs (hnew i (List.mem_cons_self ..))
      (by rw [← Arena.at?_ofNat]; exact hn) hask hx
    refine ih (idle_visited _ e q s hidle) hvisit hnodup (fun j hj => ?_) hrest
    have hne : ¬(i : Int) = j := fun hij => hi (Int.natCast_inj.mp hij ▸ hj)
    exact (buffer?_visited _ e q s j).trans
      ((if_neg hne).trans (hnew j (List.mem_cons_of_mem i hj)))

/-- What each visit keeps, an evaluation that succeeds keeps. -/
theorem KeptByVisits.evaluate (h : KeptByVisits strict a I) (ha : a.WellFormed)
    (hidle : s.context.Idle) (hs : I s) {root b : Nat}
    (hok : Lowering.evaluate strict a root s = .ok b t) : I t := by
  cases hroot : s.context.buffer? root with
  | some b' =>
    rw [evaluate_of_known hroot] at hok
    cases hok
    exact hs
  | none =>
    obtain ⟨todo, htodo, hrun⟩ := exists_of_evaluate_ok ha hroot hok
    exact h.evaluateNodes hidle hs htodo.nodup htodo.unknown hrun

theorem indexed_keptByVisits :
    KeptByVisits strict a fun s => s.program.Indexed (some digitLimit) := by
  intro i n x e q s hs _ _ hask hx
  rw [request?_eq, Option.map_eq_some_iff] at hask
  obtain ⟨call, -, rfl⟩ := hask
  have hafter := hs.after call
  rw [hx] at hafter
  exact hafter

/-- Each buffer of the program is the buffer of a node. -/
def Covered (s : Lowering) : Prop := ∀ id ∈ s.program.ids, ∃ i, s.context.buffer? i = some id

theorem covered_keptByVisits : KeptByVisits strict a Covered := by
  intro i n x e q s hs hnew _ hask hx id hid
  rw [request?_eq, Option.map_eq_some_iff] at hask
  obtain ⟨call, -, rfl⟩ := hask
  simp only [buffer?_visited, Int.natCast_inj]
  rcases Program.mem_ids_of_granted hx hid with hold | rfl
  · obtain ⟨j, hj⟩ := hs id hold
    have hne : i ≠ j := by
      rintro rfl
      rw [hnew] at hj
      cases hj
    exact ⟨j, by rw [if_neg hne, hj]⟩
  · exact ⟨i, if_pos rfl⟩

theorem remembered_keptByVisits (j b : Nat) :
    KeptByVisits strict a fun s => s.context.buffer? j = some b := by
  intro i n x e q s hs hnew _ _ _
  have hne : ¬(i : Int) = j := by
    intro hij
    obtain rfl := Int.natCast_inj.mp hij
    rw [hnew] at hs
    cases hs
  exact (buffer?_visited _ e q s j).trans ((if_neg hne).trans hs)

end Kept

/-- An evaluation that succeeds gives the buffer that is remembered from then on. -/
theorem buffer?_of_evaluate_ok {strict : Bool} {a : Arena} {root b : Nat} {s t : Lowering}
    (h : evaluate strict a root s = .ok b t) : t.context.buffer? root = some b := by
  simp only [evaluate] at h
  split at h
  · rename_i hb
    cases h
    exact hb
  · split at h
    · cases h
    split at h
    · cases h
    split at h
    · rename_i hb
      cases h
      exact hb
    · cases h

/-! ### Settled contexts -/

/-- A context that evaluated nodes of a well-shaped arena in some order, alone with its program. -/
structure Settled (a : Arena) (before : List (String × Int)) (order : List Nat) (s : Lowering) :
    Prop where
  once : Once a before order s
  shapely : Shapely a s
  faithful : s.context.Faithful a s.program
  indexed : s.program.Indexed (some digitLimit)
  covered : Covered s

namespace Settled

variable {a : Arena} {before before' : List (String × Int)} {order order' : List Nat}
  {s t : Lowering}

theorem fresh (a : Arena) (requiresGrad : Bool) (history : Array Event) :
    Settled a (observed history) [] ⟨.fresh requiresGrad, {}, history⟩ where
  once := Once.fresh a requiresGrad history
  shapely := ⟨Program.sound_empty, Program.uniform_empty,
    fun i b hb => by simp [Context.fresh] at hb, fun id => by simp [Context.fresh]⟩
  faithful := .of_empty _ _ fun i => by simp [Context.buffer?, Context.fresh]
  indexed := Program.indexed_empty _
  covered := by simp [Covered, Program.ids, Program.size]

/-- The context may get bound. -/
theorem bind (h : Settled a before order s) {k : ArenaId}
    (hbound : ∀ k', s.context.arena = some k' → k' = k) :
    Settled a before order { s with context := { s.context with arena := some k } } where
  once := h.once.mono (.refl a)
    ⟨rfl, rfl, rfl, rfl, fun k' hk' => congrArg some (hbound k' hk').symm⟩ rfl rfl
  shapely := ⟨h.shapely.sound, h.shapely.uniform, h.shapely.shaped, h.shapely.idle⟩
  faithful := h.faithful.congr rfl
  indexed := h.indexed
  covered := h.covered

/-- Each node is evaluated, and what it reaches is remembered with it. -/
theorem evaluate (strict : Bool) (h : Settled a before order s) (hwell : a.WellFormed)
    (ha : a.Uniform) {root : Nat} (hroot : root < a.size) :
    ∃ b t order', Lowering.evaluate strict a root s = .ok b t ∧ Settled a before order' t ∧
      t.context.buffer? root = some b ∧
      (∀ j u, s.context.buffer? j = some u → t.context.buffer? j = some u) ∧
      ∀ i, i ∈ order' ↔ i ∈ order ∨ Reaches a.operands root i := by
  obtain ⟨n, hn⟩ := Arena.exists_node? hroot
  obtain ⟨b, t, hrun, hshapely, -⟩ := h.shapely.evaluate strict hwell ha hn
  obtain ⟨order', honce, hmem⟩ := h.once.evaluate hwell hrun
  have hready := evaluate_keeps strict hwell root s ⟨h.shapely.sound, h.faithful⟩
  rw [hrun] at hready
  have hidle := h.once.idle
  refine ⟨b, t, order', hrun, ⟨honce, hshapely, hready.2, ?_, ?_⟩, ?_, fun j u hu => ?_, hmem⟩
  · exact indexed_keptByVisits.evaluate hwell hidle h.indexed hrun
  · exact covered_keptByVisits.evaluate hwell hidle h.covered hrun
  · exact buffer?_of_evaluate_ok hrun
  · exact (remembered_keptByVisits j u).evaluate hwell hidle hu hrun

end Settled

/-! ### The renaming -/

/-- The buffer of one context, as another one has it for the first node that it holds. -/
def nameIn (order : List Nat) (s t : Lowering) (id : Nat) : Nat :=
  ((order.find? fun i => s.context.buffer? i = some id).bind t.context.buffer?).getD 0

/-- Two contexts with their programs are the same up to the ids of buffers. -/
structure Renames (ρ : Nat → Nat) (s t : Lowering) : Prop where
  bijective : Set.BijOn ρ {id | id ∈ s.program.ids} {id | id ∈ t.program.ids}
  values : ∀ i : Int, t.context.values[i]? = s.context.values[i]?.map ρ
  /-- Leaves keep shape and filling, and instructions operation and shape over renamed sources. -/
  cells : ∀ id ∈ s.program.ids, t.program.cell? (ρ id) = (s.program.cell? id).map (Cell.rename ρ)
  consumers : ∀ id ∈ s.program.ids, ∀ user,
    user ∈ t.program.usersOf (ρ id) ↔ ∃ u ∈ s.program.usersOf id, ρ u = user
  leafCount : t.program.leafCount = s.program.leafCount
  instructionCount : t.program.instructionCount = s.program.instructionCount
  hits : t.program.hits = s.program.hits

/-- Only context and program matter. -/
theorem Renames.congr {ρ : Nat → Nat} {s s' t : Lowering} (h : Renames ρ s t)
    (hcontext : s'.context = s.context) (hprogram : s'.program = s.program) : Renames ρ s' t := by
  obtain ⟨context, program, history⟩ := s'
  cases hcontext
  cases hprogram
  exact ⟨h.bijective, h.values, h.cells, h.consumers, h.leafCount, h.instructionCount, h.hits⟩

namespace Settled

variable {a : Arena} {before before' : List (String × Int)} {order order' : List Nat}
  {s t : Lowering} {ρ : Nat → Nat}

/-- Nodes that share a buffer in one context share one in the other. -/
theorem buffer_eq_iff (h : Settled a before order s) (h' : Settled a before' order' t)
    (hwell : a.WellFormed) {i j b d b' d' : Nat} (hi : s.context.buffer? i = some b)
    (hj : s.context.buffer? j = some d) (hi' : t.context.buffer? i = some b')
    (hj' : t.context.buffer? j = some d') : b = d ↔ b' = d' := by
  constructor
  · rintro rfl
    exact h'.faithful.buffer_eq hwell h'.shapely.sound i j b' d' hi' hj'
      (h.faithful.tree_eq hwell i j b hi hj)
  · rintro rfl
    exact h.faithful.buffer_eq hwell h.shapely.sound i j b d hi hj
      (h'.faithful.tree_eq hwell i j b' hi' hj')

/-- In the other context, a node has what its buffer is named there. -/
theorem buffer?_eq_map (h : Settled a before order s) (h' : Settled a before' order' t)
    (hwell : a.WellFormed) (hsame : ∀ i, i ∈ order ↔ i ∈ order') (i : Nat) :
    t.context.buffer? i = (s.context.buffer? i).map (nameIn order s t) := by
  cases hi : s.context.buffer? i with
  | none =>
    have hout : i ∉ order' := by
      rw [← hsame, ← h.once.buffer?_isSome, hi]
      simp
    rw [← h'.once.buffer?_isSome] at hout
    simpa using hout
  | some b =>
    have hin : i ∈ order := h.once.buffer?_isSome.mp (by rw [hi]; rfl)
    obtain ⟨b', hb'⟩ := Option.isSome_iff_exists.mp (h'.once.buffer?_isSome.mpr ((hsame i).mp hin))
    have hfound : (order.find? fun j => s.context.buffer? j = some b).isSome :=
      List.find?_isSome.mpr ⟨i, hin, by simpa using hi⟩
    obtain ⟨j, hj⟩ := Option.isSome_iff_exists.mp hfound
    have hjb : s.context.buffer? j = some b := by simpa using List.find?_some hj
    obtain ⟨d', hd'⟩ := Option.isSome_iff_exists.mp (h'.once.buffer?_isSome.mpr
      ((hsame j).mp (List.mem_of_find?_eq_some hj)))
    have heq : b' = d' := (h.buffer_eq_iff h' hwell hi hjb hb' hd').mp rfl
    simp only [Option.map_some, nameIn, hj, Option.bind_some, hd', Option.getD_some, hb', heq]

section Names

variable (h : Settled a before order s) (h' : Settled a before' order' t) (hwell : a.WellFormed)
  (hρ : ∀ i, t.context.buffer? i = (s.context.buffer? i).map ρ)

include hρ in
theorem renamed {i b : Nat} (hb : s.context.buffer? i = some b) :
    t.context.buffer? i = some (ρ b) := by
  rw [hρ, hb]
  rfl

include h h' hρ

theorem mapsTo {id : Nat} (hid : id ∈ s.program.ids) : ρ id ∈ t.program.ids := by
  obtain ⟨i, hi⟩ := h.covered id hid
  obtain ⟨cell, hcell⟩ := h'.faithful.exists_cell (renamed hρ hi)
  exact Program.mem_ids.mpr (Program.le_size_of_cell? hcell)

theorem surjOn {id : Nat} (hid : id ∈ t.program.ids) : ∃ id' ∈ s.program.ids, ρ id' = id := by
  obtain ⟨i, hi⟩ := h'.covered id hid
  rw [hρ] at hi
  obtain ⟨id', hid', rfl⟩ := Option.map_eq_some_iff.mp hi
  obtain ⟨cell, hcell⟩ := h.faithful.exists_cell hid'
  exact ⟨id', Program.mem_ids.mpr (Program.le_size_of_cell? hcell), rfl⟩

theorem cell?_eq_map {id : Nat} (hid : id ∈ s.program.ids) :
    t.program.cell? (ρ id) = (s.program.cell? id).map (Cell.rename ρ) := by
  obtain ⟨i, hi⟩ := h.covered id hid
  have hi' := renamed hρ hi
  obtain ⟨n, hn, hholds⟩ := h.faithful.holds i id hi
  obtain ⟨n', hn', hholds'⟩ := h'.faithful.holds i (ρ id) hi'
  cases hn.symm.trans hn'
  exact hholds.cell?_eq_map hholds' hρ (h.shapely.hasShape hi hn) (h'.shapely.hasShape hi' hn)

include hwell

theorem injOn {b d : Nat} (hb : b ∈ s.program.ids) (hd : d ∈ s.program.ids) (heq : ρ b = ρ d) :
    b = d := by
  obtain ⟨i, hi⟩ := h.covered b hb
  obtain ⟨j, hj⟩ := h.covered d hd
  exact (h.buffer_eq_iff h' hwell hi hj (renamed hρ hi) (renamed hρ hj)).mpr heq

theorem bijOn : Set.BijOn ρ {id | id ∈ s.program.ids} {id | id ∈ t.program.ids} :=
  ⟨fun _ hid => h.mapsTo h' hρ hid, fun _ hb _ hd heq => h.injOn h' hwell hρ hb hd heq,
    fun _ hid => h.surjOn h' hρ hid⟩

theorem size_eq : t.program.size = s.program.size := by
  have hnodup : ∀ p : Program, p.ids.Nodup := fun p =>
    List.nodup_iff_pairwise_ne.mpr (p.ids_ascending.imp Nat.ne_of_lt)
  have hrenamed : (s.program.ids.map ρ).Nodup :=
    List.Nodup.map_on (fun _ hb _ hd heq => h.injOn h' hwell hρ hb hd heq) (hnodup _)
  have hperm : (s.program.ids.map ρ).Perm t.program.ids := by
    refine (List.perm_ext_iff_of_nodup hrenamed (hnodup _)).mpr fun id => ?_
    rw [List.mem_map]
    constructor
    · rintro ⟨b, hb, rfl⟩
      exact h.mapsTo h' hρ hb
    · exact h.surjOn h' hρ
  simpa [Program.ids] using hperm.length_eq.symm

/-- Instructions read renamed buffers, so the readers of a renamed buffer are renamed, too. -/
theorem mem_usersOf_iff {id : Nat} (hid : id ∈ s.program.ids) (user : Nat) :
    user ∈ t.program.usersOf (ρ id) ↔ ∃ u ∈ s.program.usersOf id, ρ u = user := by
  rw [h'.indexed.usersOf, h.indexed.usersOf]
  simp only [Program.mem_readers, Program.mem_schedule]
  constructor
  · rintro ⟨i', hi', hread, hnamed⟩
    obtain ⟨u, hu, rfl⟩ := h.surjOn h' hρ (Program.mem_ids.mpr (Program.le_size_of_cell? hi'))
    rw [h.cell?_eq_map h' hρ hu] at hi'
    obtain ⟨cell, hcell, hrenamed⟩ := Option.map_eq_some_iff.mp hi'
    cases cell with
    | leaf shape z => cases hrenamed
    | instruction i =>
      cases hrenamed
      rw [Sources.toList_rename, List.mem_map] at hread
      obtain ⟨b, hb, heq⟩ := hread
      have hlt := h.shapely.sound.source_lt u i hcell b hb
      have hle := Program.le_size_of_cell? hcell
      have hmem : b ∈ s.program.ids := Program.mem_ids.mpr ⟨hlt.1, by omega⟩
      exact ⟨u, ⟨i, hcell, h.injOn h' hwell hρ hmem hid heq ▸ hb, hnamed⟩, rfl⟩
  · rintro ⟨u, ⟨i, hcell, hread, hnamed⟩, rfl⟩
    refine ⟨{ i with sources := i.sources.rename ρ }, ?_, ?_, hnamed⟩
    · rw [h.cell?_eq_map h' hρ (Program.mem_ids.mpr (Program.le_size_of_cell? hcell)), hcell]
      rfl
    · rw [Sources.toList_rename]
      exact List.mem_map_of_mem hread

end Names

theorem values_eq_map (h : Settled a before order s) (h' : Settled a before' order' t)
    (hρ : ∀ i, t.context.buffer? i = (s.context.buffer? i).map ρ) (i : Int) :
    t.context.values[i]? = s.context.values[i]?.map ρ := by
  by_cases hi : ∃ j : Nat, i = j
  · obtain ⟨j, rfl⟩ := hi
    exact hρ j
  · have hnone : ∀ {before order s}, Settled a before order s → s.context.values[i]? = none := by
      intro before order s h
      refine Std.HashMap.getElem?_eq_none fun hmem => hi ?_
      obtain ⟨j, -, hj⟩ := (h.once.known i).mp hmem
      exact ⟨j, hj⟩
    rw [hnone h, hnone h']
    rfl

/-- Contexts that evaluated the same nodes, each alone with its program, are the same up to the ids
of buffers. -/
theorem renames (h : Settled a before order s) (h' : Settled a before' order' t)
    (hwell : a.WellFormed) (hsame : ∀ i, i ∈ order ↔ i ∈ order') :
    Renames (nameIn order s t) s t := by
  have hρ := h.buffer?_eq_map h' hwell hsame
  have hperm : order.Perm order' :=
    (List.perm_ext_iff_of_nodup h.once.ordered.nodup h'.once.ordered.nodup).mpr hsame
  have hleaves : t.program.leafCount = s.program.leafCount := by
    rw [h.once.leaves, h'.once.leaves, hperm.countP_eq]
  have hoperators : t.program.instructionCount + t.program.hits =
      s.program.instructionCount + s.program.hits := by
    rw [h.once.operators, h'.once.operators, hperm.countP_eq]
  have hinstructions : t.program.instructionCount = s.program.instructionCount := by
    have hsize := h.size_eq h' hwell hρ
    have hs := s.program.leafCount_add_instructionCount
    have ht := t.program.leafCount_add_instructionCount
    omega
  exact
    { bijective := h.bijOn h' hwell hρ
      values := h.values_eq_map h' hρ
      cells := fun id hid => h.cell?_eq_map h' hρ hid
      consumers := fun id hid => h.mem_usersOf_iff h' hwell hρ hid
      leafCount := hleaves
      instructionCount := hinstructions
      hits := by omega }

end Settled

end Lowering

end TensorGraph
