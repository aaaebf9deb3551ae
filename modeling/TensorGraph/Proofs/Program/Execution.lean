import TensorGraph.Program.Execution
import TensorGraph.Proofs.Program.Emission

/-!
# Runs of sound programs

The schedule of a sound program is an order of execution: whatever the operations stand for and
whatever the leaves hold, each instruction finds values in the buffers that it reads. Afterwards
every buffer holds the value of its leaf, or what its instruction computes.
-/

namespace TensorGraph.Program

/-! ### The schedule -/

theorem getElem?_ids (p : Program) (k : Nat) :
    p.ids[k]? = if k < p.size then some (k + 1) else none := by
  simp only [ids]
  rw [List.getElem?_map]
  by_cases h : k < p.size
  · rw [if_pos h, List.getElem?_range h]
    rfl
  · rw [if_neg h, List.getElem?_eq_none (by simpa using h)]
    rfl

theorem getElem?_entries {p : Program} {k id : Nat} {c : Cell} :
    p.entries[k]? = some (id, c) ↔ id = k + 1 ∧ p.cells[k]? = some c := by
  simp only [entries]
  rw [List.getElem?_zip_eq_some, getElem?_ids, Array.getElem?_toList]
  constructor
  · rintro ⟨hid, hc⟩
    split at hid
    · exact ⟨(Option.some.inj hid).symm, hc⟩
    · cases hid
  · rintro ⟨rfl, hc⟩
    exact ⟨if_pos (Array.getElem?_eq_some_iff.mp hc).1, hc⟩

theorem mem_entries {p : Program} {id : Nat} {c : Cell} :
    (id, c) ∈ p.entries ↔ p.cell? id = some c := by
  rw [List.mem_iff_getElem?]
  constructor
  · rintro ⟨k, hk⟩
    obtain ⟨rfl, hc⟩ := getElem?_entries.mp hk
    rw [cell?_succ, hc]
  · intro h
    have hpos := (le_size_of_cell? h).1
    obtain ⟨k, rfl⟩ : ∃ k, id = k + 1 := ⟨id - 1, by omega⟩
    exact ⟨k, getElem?_entries.mpr ⟨rfl, by rw [← cell?_succ, h]⟩⟩

theorem entries_ascending (p : Program) : p.entries.Pairwise fun x y => x.1 < y.1 := by
  rw [List.pairwise_iff_getElem]
  intro i j hi hj hij
  have hfst : ∀ k (hk : k < p.entries.length), (p.entries[k]).1 = k + 1 := fun k hk =>
    (getElem?_entries.mp (List.getElem?_eq_getElem hk)).1
  rw [hfst i hi, hfst j hj]
  omega

theorem entries_congr {p q : Program} (h : q.cells = p.cells) : q.entries = p.entries := by
  simp only [entries, ids, size, h]

theorem entries_push (p : Program) (c : Cell) :
    (p.push c).entries = p.entries ++ [(p.size + 1, c)] := by
  have hids : (p.push c).ids = p.ids ++ [p.size + 1] := by
    simp [ids, size, push, List.range_succ]
  have hlength : p.ids.length = p.cells.toList.length := by simp [ids, size]
  rw [entries, hids, entries]
  simp only [push, Array.toList_push]
  rw [List.zip_append hlength]
  rfl

theorem mem_schedule {p : Program} {id : Nat} {i : Instruction} :
    (id, i) ∈ p.schedule ↔ p.cell? id = some (.instruction i) := by
  simp only [schedule]
  rw [List.mem_filterMap]
  constructor
  · rintro ⟨⟨id', c⟩, hmem, hc⟩
    cases c with
    | leaf s z => cases hc
    | instruction j =>
      cases hc
      exact mem_entries.mp hmem
  · intro h
    exact ⟨(id, .instruction i), mem_entries.mpr h, rfl⟩

theorem schedule_ascending (p : Program) : p.schedule.Pairwise fun x y => x.1 < y.1 := by
  simp only [schedule]
  refine p.entries_ascending.filterMap _ ?_
  rintro ⟨id, c⟩ ⟨id', c'⟩ hlt x hx y hy
  cases c with
  | leaf s z => cases hx
  | instruction i =>
    cases c' with
    | leaf s z => cases hy
    | instruction j =>
      cases hx
      cases hy
      exact hlt

/-! ### Memory -/

variable {α : Type}

theorem mapM_congr {m m' : Memory α} {ids : List Nat} (h : ∀ s ∈ ids, m s = m' s) :
    ids.mapM m = ids.mapM m' := by
  induction ids with
  | nil => rfl
  | cons s ids ih =>
    rw [List.mapM_cons, List.mapM_cons, h s (List.mem_cons_self ..),
      ih fun t ht => h t (List.mem_cons_of_mem s ht)]

/-- A buffer holds what its instruction computes from the memory. -/
def Carried (I : Semantics α) (m : Memory α) (id : Nat) (i : Instruction) : Prop :=
  ∃ vs, i.sources.toList.mapM m = some vs ∧ m id = some (I i.op vs)

/-- Leaves hold their values, and so do the instructions carried out. -/
structure Executed (p : Program) (I : Semantics α) (leaf : Nat → α)
    (done : List (Nat × Instruction)) (m : Memory α) : Prop where
  leaves : ∀ id s z, p.cell? id = some (.leaf s z) → m id = some (leaf id)
  carried : ∀ id i, (id, i) ∈ done → Carried I m id i

/-- What a buffer does not read cannot change what it holds. -/
theorem Carried.of_agree {I : Semantics α} {m m' : Memory α} {id : Nat} {i : Instruction}
    (h : Carried I m id i) (hid : m' id = m id) (hread : ∀ s ∈ i.sources.toList, m' s = m s) :
    Carried I m' id i := by
  obtain ⟨vs, hvs, hv⟩ := h
  exact ⟨vs, by rw [mapM_congr hread, hvs], by rw [hid, hv]⟩

/-- The buffers that the next instruction reads have values. -/
theorem Executed.reads {p : Program} (hp : p.Sound) {I : Semantics α} {leaf : Nat → α}
    {done rest : List (Nat × Instruction)} {id : Nat} {i : Instruction} {m : Memory α}
    (hsched : p.schedule = done ++ (id, i) :: rest) (h : Executed p I leaf done m) :
    ∀ s ∈ i.sources.toList, ∃ v, m s = some v := by
  intro s hs
  have hcell : p.cell? id = some (.instruction i) := mem_schedule.mp (by rw [hsched]; simp)
  obtain ⟨hpos, hlt⟩ := hp.source_lt id i hcell s hs
  have hle : s ≤ p.size := Nat.le_trans (Nat.le_of_lt hlt) (le_size_of_cell? hcell).2
  obtain ⟨c, hc⟩ := cell?_of_le_size hpos hle
  cases c with
  | leaf shape z => exact ⟨_, h.leaves s shape z hc⟩
  | instruction j =>
    -- an instruction with a smaller id stands before this one in the schedule
    have hmem : (s, j) ∈ done ++ (id, i) :: rest := hsched ▸ mem_schedule.mpr hc
    have horder := hsched ▸ p.schedule_ascending
    rcases List.mem_append.mp hmem with hdone | hrest
    · obtain ⟨vs, _, hv⟩ := h.carried s j hdone
      exact ⟨_, hv⟩
    · have hafter := List.pairwise_cons.mp (List.pairwise_append.mp horder).2.1
      rcases List.mem_cons.mp hrest with heq | hrest
      · cases heq
        omega
      · have : id < s := hafter.1 (s, j) hrest
        omega

/-- One more instruction is carried out: what it writes was neither written nor read before. -/
theorem Executed.step {p : Program} (hp : p.Sound) {I : Semantics α} {leaf : Nat → α}
    {done rest : List (Nat × Instruction)} {id : Nat} {i : Instruction} {m : Memory α}
    (hsched : p.schedule = done ++ (id, i) :: rest) (h : Executed p I leaf done m) :
    ∃ m', execute I m (id, i) = some m' ∧ Executed p I leaf (done ++ [(id, i)]) m' := by
  have hcell : p.cell? id = some (.instruction i) := mem_schedule.mp (by rw [hsched]; simp)
  obtain ⟨vs, hvs⟩ := exists_mapM (h.reads hp hsched)
  have hother : ∀ t, t ≠ id → (fun t => if t = id then some (I i.op vs) else m t) t = m t :=
    fun t ht => if_neg ht
  refine ⟨fun t => if t = id then some (I i.op vs) else m t, by simp [execute, hvs], ?_, ?_⟩
  · intro t s z ht
    have hne : t ≠ id := by
      rintro rfl
      rw [hcell] at ht
      cases ht
    exact (hother t hne).trans (h.leaves t s z ht)
  · intro t j hj
    rcases List.mem_append.mp hj with hj | hj
    · have horder := hsched ▸ p.schedule_ascending
      have hlt : t < id := (List.pairwise_append.mp horder).2.2 (t, j) hj (id, i)
        (List.mem_cons_self ..)
      have ht : p.cell? t = some (.instruction j) := mem_schedule.mp (by rw [hsched]; simp [hj])
      refine (h.carried t j hj).of_agree (hother t (by omega)) fun s hs => hother s ?_
      have := (hp.source_lt t j ht s hs).2
      omega
    · cases List.mem_singleton.mp hj
      refine ⟨vs, ?_, if_pos rfl⟩
      rw [← hvs]
      refine mapM_congr fun s hs => hother s ?_
      have := (hp.source_lt id i hcell s hs).2
      omega

theorem Executed.run {p : Program} (hp : p.Sound) {I : Semantics α} {leaf : Nat → α}
    (done todo : List (Nat × Instruction)) {m : Memory α}
    (hsched : p.schedule = done ++ todo) (h : Executed p I leaf done m) :
    ∃ m', todo.foldlM (execute I) m = some m' ∧ Executed p I leaf p.schedule m' := by
  induction todo generalizing done m with
  | nil =>
    rw [List.append_nil] at hsched
    exact ⟨m, rfl, by rw [hsched]; exact h⟩
  | cons entry rest ih =>
    obtain ⟨id, i⟩ := entry
    obtain ⟨m', hm', hdone⟩ := h.step hp hsched
    have hsched' : p.schedule = done ++ [(id, i)] ++ rest := by
      rw [hsched, List.append_assoc, List.singleton_append]
    obtain ⟨m'', hm'', hall⟩ := ih (done ++ [(id, i)]) hsched' hdone
    exact ⟨m'', by rw [List.foldlM_cons, hm']; exact hm'', hall⟩

/-- The schedule of a sound program never reads a buffer without a value. -/
theorem Sound.exists_run {p : Program} (hp : p.Sound) (I : Semantics α) (leaf : Nat → α) :
    ∃ m, p.run? I leaf = some m ∧ Executed p I leaf p.schedule m := by
  refine Executed.run hp [] p.schedule rfl ⟨?_, ?_⟩
  · intro id s z h
    simp [initial, h]
  · intro id i h
    cases h

end TensorGraph.Program
