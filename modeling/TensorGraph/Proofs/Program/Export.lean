import TensorGraph.Proofs.Op.Name
import TensorGraph.Proofs.Program.Consing
import TensorGraph.Proofs.Program.Readers
import TensorGraph.Proofs.Text.Json

/-!
# What an export tells

The text of an export tells the leaves and the instructions of a program, the operations by their
names. All other tables follow from these: the shapes and the next id are read off the cells, the
readers off the sources, and the known keys off the operations and sources, in the order of
emission. Only the number of hits is not told.
-/

namespace TensorGraph

def Instruction.unsized (i : Instruction) : Instruction := { i with op := i.op.unsized }

/-- A cell whose operation, if any, has parameters without widths. -/
def Cell.unsized : Cell → Cell
  | .leaf s z => .leaf s z
  | .instruction i => .instruction i.unsized

namespace Program

/-- The keys of all instructions with their ids, in the order of emission. -/
def keyTable (p : Program) : List (Key × Nat) := p.schedule.map fun e => (e.2.key, e.1)

/-- No operation that the call names has a parameter with a width. -/
def Call.IsUnsized : Call → Prop
  | emit _ (.op op) _ _ _ => op.unsized = op
  | _ => True

/-! ### Tables that follow from the cells -/

/-- The table filled with keys one after the other. -/
def fillKnown (keys : List (Key × Nat)) : Std.HashMap Key Nat :=
  keys.foldl (fun known e => known.insert e.1 e.2) ∅

theorem keyTable_congr {p q : Program} (h : q.cells = p.cells) : q.keyTable = p.keyTable := by
  simp only [keyTable, schedule_congr h]

theorem keyTable_of_push {p q : Program} {c : Cell} (h : q.cells = p.cells.push c) :
    q.keyTable = p.keyTable ++ (c.instruction?.map fun i => (i.key, p.size + 1)).toList := by
  rw [keyTable_congr (p := p.push c) h, keyTable, schedule_push]
  cases c <;> simp [Cell.instruction?, keyTable]

/-- The known keys are those of the instructions. -/
theorem known_of_run (calls : List Call) :
    (run none calls).program.known = fillKnown (run none calls).program.keyTable := by
  refine run_invariant (P := fun p => p.known = fillKnown p.keyTable) rfl fun call _ p h => ?_
  rcases cells_known_after none p call with
    ⟨hcells, hknown⟩ | ⟨s, z, hcells, hknown⟩ | ⟨i, -, hcells, hknown⟩
  · rw [hknown, keyTable_congr hcells, h]
  · rw [hknown, keyTable_of_push hcells, h]
    exact congrArg fillKnown (List.append_nil _).symm
  · rw [hknown, keyTable_of_push hcells, h]
    simp [fillKnown, Cell.instruction?]

/-- Without widths in the calls there are none in the instructions. -/
theorem unsized_of_run {calls : List Call} (h : ∀ call ∈ calls, call.IsUnsized) :
    ∀ id i, (run none calls).program.cell? id = some (.instruction i) → i.op.unsized = i.op := by
  refine run_invariant (P := fun p => ∀ id i, p.cell? id = some (.instruction i) →
    i.op.unsized = i.op) (by simp [cell?]) fun call hmem p hp id i hi => ?_
  rcases cells_known_after none p call with ⟨hcells, -⟩ | ⟨s, z, hcells, -⟩ | ⟨j, hj, hcells, -⟩
  · rw [cell?_congr hcells] at hi
    exact hp id i hi
  · rw [Consed.cell?_of_push hcells] at hi
    split at hi
    · cases hi
    · exact hp id i hi
  · rw [Consed.cell?_of_push hcells] at hi
    split at hi
    · cases hi
      have hcall := h call hmem
      cases call with
      | alloc shape zero => cases hj
      | emit strict c shape a b =>
        obtain ⟨rfl, -⟩ := hj
        exact hcall
    · exact hp id i hi

/-- Every cell is a leaf or an instruction. -/
theorem size_eq (p : Program) : p.size = p.leaves.length + p.schedule.length := by
  have hsplit : ∀ entries : List (Nat × Cell), entries.length =
      (entries.filterMap fun e =>
        match e.2 with
        | .leaf s zero => some (e.1, s, zero)
        | .instruction _ => none).length +
      (entries.filterMap fun e => e.2.instruction?.map fun i => (e.1, i)).length := by
    intro entries
    induction entries with
    | nil => rfl
    | cons e entries ih =>
      obtain ⟨id, c⟩ := e
      cases c <;> simp [Cell.instruction?, ih] <;> omega
  have hlength : p.size = p.entries.length := by simp [entries, ids, size]
  rw [hlength, leaves, schedule]
  exact hsplit p.entries

/-! ### Reading an export back -/

theorem map_nat_injective {xs ys : List Nat} (h : xs.map Json.nat = ys.map Json.nat) : xs = ys :=
  (List.map_inj_right fun _ _ => Json.nat.inj).mp h

theorem shapeJson_injective {s t : Shape} (h : shapeJson s = shapeJson t) : s = t :=
  congrArg Shape.mk (map_nat_injective (Json.array.inj h))

theorem leafJson_injective {x y : Nat × Shape × Bool} (h : leafJson x = leafJson y) : x = y := by
  obtain ⟨id, s, z⟩ := x
  obtain ⟨id', s', z'⟩ := y
  simp only [leafJson, Json.object.injEq, List.cons.injEq, Prod.mk.injEq, true_and, and_true,
    Json.nat.injEq, Json.bool.injEq] at h
  obtain ⟨rfl, hshape, rfl⟩ := h
  rw [shapeJson_injective hshape]

theorem toList_injective {a b : Sources} (h : a.toList = b.toList) : a = b := by
  cases a <;> cases b <;> simp_all [Sources.toList]

theorem instructionJson_injective {x y : Nat × Instruction}
    (h : instructionJson x = instructionJson y) :
    x.1 = y.1 ∧ x.2.op.text = y.2.op.text ∧ x.2.shape = y.2.shape ∧ x.2.sources = y.2.sources := by
  simp only [instructionJson, Json.object.injEq, List.cons.injEq, Prod.mk.injEq, true_and, and_true,
    Json.nat.injEq, Json.string.injEq] at h
  obtain ⟨hid, htext, hshape, hsources⟩ := h
  exact ⟨hid, htext, shapeJson_injective hshape,
    toList_injective (map_nat_injective (Json.array.inj hsources))⟩

theorem tables_of_toJson_eq {p q : Program} (h : p.toJson = q.toJson) :
    p.leaves = q.leaves ∧ p.schedule.map instructionJson = q.schedule.map instructionJson := by
  simp only [toJson, Json.object.injEq, List.cons.injEq, Prod.mk.injEq, true_and,
    Json.array.injEq] at h
  obtain ⟨hleaves, hschedule, -⟩ := h
  exact ⟨(List.map_inj_right fun _ _ => leafJson_injective).mp hleaves, hschedule⟩

/-! ### What the tables tell -/

/-- The instructions with their ids, without the widths of parameters. -/
def unsizedSchedule (p : Program) : List (Nat × Instruction) :=
  p.schedule.map fun e => (e.1, e.2.unsized)

/-- Two programs have the same tables in the same order. Parameters count without widths, which do
not matter when operations are compared. -/
structure SameTables (p q : Program) : Prop where
  /-- The next id is the same. -/
  size : p.size = q.size
  leaves : p.leaves = q.leaves
  schedule : p.unsizedSchedule = q.unsizedSchedule
  /-- The operations under one id are equal. -/
  equals : ∀ id i j, (id, i) ∈ p.schedule → (id, j) ∈ q.schedule → i.op.equals j.op = .ok true
  keyTable : p.keyTable = q.keyTable
  known : p.known = q.known
  shapes : p.cells.map Cell.shape = q.cells.map Cell.shape
  users : p.users = q.users

/-- The parameters of all instructions are integers. -/
def Integral (p : Program) : Prop :=
  ∀ id i, p.cell? id = some (.instruction i) → i.op.integers?.isSome

theorem Integral.of_mem {p : Program} (h : p.Integral) {e : Nat × Instruction}
    (he : e ∈ p.schedule) : e.2.op.integers?.isSome := h e.1 e.2 (mem_schedule.mp he)

theorem unsizedSchedule_eq {p q : Program} (hp : p.Integral) (hq : q.Integral)
    (h : p.schedule.map instructionJson = q.schedule.map instructionJson) :
    p.unsizedSchedule = q.unsizedSchedule := by
  refine map_eq_of_map_eq (fun e he e' he' hjson => ?_) h
  obtain ⟨hid, htext, hshape, hsources⟩ := instructionJson_injective hjson
  have hop := Op.unsized_eq_of_text_eq (hp.of_mem he) (hq.of_mem he') htext
  rw [hid, Instruction.unsized, Instruction.unsized, hop, hshape, hsources]

theorem keyTable_eq {p q : Program} (hp : p.Integral) (hq : q.Integral)
    (h : p.unsizedSchedule = q.unsizedSchedule) : p.keyTable = q.keyTable := by
  refine map_eq_of_map_eq (fun e he e' he' hsame => ?_) h
  obtain ⟨hid, hunsized⟩ := Prod.mk.inj hsame
  obtain ⟨hop, -, hsources⟩ := Instruction.mk.inj hunsized
  have hsignature := Op.signature_eq_of_unsized_eq (hp.of_mem he) (hq.of_mem he') hop
  rw [hid, Instruction.key, Instruction.key, hsignature, hsources]

theorem readers_eq {p q : Program} (hp : p.Integral) (hq : q.Integral)
    (h : p.unsizedSchedule = q.unsizedSchedule) (id : Nat) :
    p.readers none id = q.readers none id := by
  have hread : ∀ r : Program, r.Integral → r.readers none id =
      (r.unsizedSchedule.filter fun e => id ∈ e.2.sources.toList).map Prod.fst := by
    intro r hr
    -- integers have names where there is no limit
    have hnamed : ∀ e ∈ r.schedule,
        decide (id ∈ e.2.sources.toList ∧ e.2.op.Named none) =
          decide (id ∈ e.2.sources.toList) := fun e he => by
      simp [Op.named_of_integers (hr.of_mem he)]
    rw [readers, List.filter_congr hnamed, unsizedSchedule, List.filter_map, List.map_map]
    rfl
  rw [hread p hp, h, ← hread q hq]

/-- The table of readers follows from the schedule. -/
theorem Indexed.users_eq {digits : Option Nat} {p : Program} (h : p.Indexed digits) :
    p.users.toList = p.ids.map fun id => (p.readers digits id).toArray := by
  apply List.ext_getElem?
  intro k
  rw [Array.getElem?_toList, List.getElem?_map, getElem?_ids]
  by_cases hk : k < p.size
  · have hlt : k < p.users.size := by rw [h.size_users]; exact hk
    rw [if_pos hk, Option.map_some, ← h.usersOf, Array.getElem?_eq_getElem hlt]
    simp [Program.usersOf, hlt]
  · rw [if_neg hk, Array.getElem?_eq_none (by rw [h.size_users]; omega)]
    rfl

/-- The export is read off the cells. -/
theorem exportText_eq_of_cells {digits : Option Nat} {p q : Program} (hp : p.Indexed digits)
    (hq : q.Indexed digits) (h : q.cells = p.cells) : q.exportText = p.exportText := by
  have hleaves : q.leaves = p.leaves := by simp only [leaves, entries, ids, size, h]
  have hids : q.ids = p.ids := by simp only [ids, size, h]
  have husers : q.usersOf = p.usersOf := by
    funext id
    rw [hq.usersOf, hp.usersOf, readers_congr h]
  rw [exportText, exportText, toJson, toJson, dependencies, dependencies, hleaves,
    schedule_congr h, hids, husers]

/-- The cells follow from leaves and instructions. -/
theorem unsized_cells_eq {p q : Program} (hsize : p.size = q.size) (hleaves : p.leaves = q.leaves)
    (hschedule : p.unsizedSchedule = q.unsizedSchedule) :
    p.cells.map Cell.unsized = q.cells.map Cell.unsized := by
  apply Array.ext_getElem?
  intro k
  rw [Array.getElem?_map, Array.getElem?_map]
  cases hc : p.cells[k]? with
  | none =>
    have hk : q.cells.size ≤ k := by
      have := Array.getElem?_eq_none_iff.mp hc
      simp only [size] at hsize
      omega
    rw [Array.getElem?_eq_none hk]
  | some c =>
    rw [← cell?_succ] at hc ⊢
    cases c with
    | leaf s z =>
      have hmem : (k + 1, s, z) ∈ q.leaves := hleaves ▸ mem_leaves.mpr hc
      rw [mem_leaves.mp hmem]
    | instruction i =>
      have hmem : (k + 1, i.unsized) ∈ q.unsizedSchedule := by
        rw [← hschedule]
        exact List.mem_map_of_mem (mem_schedule.mpr hc)
      obtain ⟨⟨id, j⟩, hj, heq⟩ := List.mem_map.mp hmem
      obtain ⟨rfl, hunsized⟩ := Prod.mk.inj heq
      rw [mem_schedule.mp hj]
      simp only [Option.map_some, Cell.unsized, hunsized]

theorem shapes_eq {p q : Program} (h : p.cells.map Cell.unsized = q.cells.map Cell.unsized) :
    p.cells.map Cell.shape = q.cells.map Cell.shape := by
  have hshape : ∀ cells : Array Cell,
      cells.map Cell.shape = (cells.map Cell.unsized).map Cell.shape := by
    intro cells
    rw [Array.map_map]
    refine Array.map_congr_left fun c _ => ?_
    cases c <;> rfl
  rw [hshape p.cells, h, ← hshape q.cells]

/-- Where no parameter has a width there is nothing to forget. -/
theorem unsized_cells_self {p : Program}
    (h : ∀ id i, p.cell? id = some (.instruction i) → i.op.unsized = i.op) :
    p.cells.map Cell.unsized = p.cells := by
  apply Array.ext_getElem?
  intro k
  rw [Array.getElem?_map]
  cases hc : p.cells[k]? with
  | none => rfl
  | some c =>
    cases c with
    | leaf s z => rfl
    | instruction i =>
      have hop := h (k + 1) i (by rw [cell?_succ, hc])
      simp only [Option.map_some, Cell.unsized, Instruction.unsized, hop]

/-! ### Exports of runs -/

theorem sameTables_of_toJson_eq {p q : Program} (hp : p.Indexed none) (hq : q.Indexed none)
    (hpi : p.Integral) (hqi : q.Integral) (hpk : p.known = fillKnown p.keyTable)
    (hqk : q.known = fillKnown q.keyTable) (h : p.toJson = q.toJson) : p.SameTables q := by
  obtain ⟨hleaves, hjson⟩ := tables_of_toJson_eq h
  have hschedule := unsizedSchedule_eq hpi hqi hjson
  have hkeys := keyTable_eq hpi hqi hschedule
  have hsize : p.size = q.size := by
    have hlength := congrArg List.length hjson
    simp only [List.length_map] at hlength
    rw [p.size_eq, q.size_eq, hleaves, hlength]
  constructor
  case size => exact hsize
  case leaves => exact hleaves
  case schedule => exact hschedule
  case equals =>
    intro id i j hi hj
    have hmem : (id, i.unsized) ∈ q.unsizedSchedule := by
      rw [← hschedule]
      exact List.mem_map_of_mem hi
    obtain ⟨⟨id', k⟩, hk, heq⟩ := List.mem_map.mp hmem
    obtain ⟨rfl, hunsized⟩ := Prod.mk.inj heq
    -- there is one instruction under an id
    have hjk : j = k := by
      have hcell := (mem_schedule.mp hj).symm.trans (mem_schedule.mp hk)
      exact Cell.instruction.inj (Option.some.inj hcell)
    have hop : i.op.unsized = j.op.unsized := by
      rw [hjk]
      exact (congrArg Instruction.op hunsized).symm
    exact Op.equals_of_unsized_eq (hpi.of_mem hi) (hqi.of_mem hj) hop
  case keyTable => exact hkeys
  case known => rw [hpk, hkeys, ← hqk]
  case shapes => exact shapes_eq (unsized_cells_eq hsize hleaves hschedule)
  case users =>
    have hids : p.ids = q.ids := by rw [ids, hsize, ← ids]
    have hreaders : p.readers none = q.readers none := funext (readers_eq hpi hqi hschedule)
    rw [← Array.toList_inj, hp.users_eq, hq.users_eq, hids, hreaders]

/-- Whatever calls with integer parameters are made on two new programs, if their exports are the
same bytes then all their tables are the same, and without widths in the parameters nothing but
the number of hits can differ. -/
theorem export_injective (calls calls' : List Call) (h : ∀ call ∈ calls, call.Integral)
    (h' : ∀ call ∈ calls', call.Integral)
    (hbytes : (run none calls).program.exportText.toUTF8 =
      (run none calls').program.exportText.toUTF8) :
    SameTables (run none calls).program (run none calls').program ∧
      ((∀ call ∈ calls, call.IsUnsized) → (∀ call ∈ calls', call.IsUnsized) →
        (run none calls').program =
          { (run none calls).program with hits := (run none calls').program.hits }) := by
  have hjson := Json.text_injective (String.toByteArray_inj.mp hbytes)
  have hsame := sameTables_of_toJson_eq (run_indexed none calls) (run_indexed none calls')
    (run_consed none h).integral (run_consed none h').integral (known_of_run calls)
    (known_of_run calls')
    hjson
  refine ⟨hsame, fun hplain hplain' => ?_⟩
  have hcells : (run none calls').program.cells = (run none calls).program.cells := by
    have hunsized := unsized_cells_eq hsame.size hsame.leaves hsame.schedule
    rw [unsized_cells_self (unsized_of_run hplain), unsized_cells_self (unsized_of_run hplain')]
      at hunsized
    exact hunsized.symm
  have hmk : ∀ p q : Program, q.cells = p.cells → p.known = q.known → p.users = q.users →
      q = { p with hits := q.hits } := by
    rintro p ⟨cells, known, users, hits⟩ rfl rfl rfl
    rfl
  exact hmk _ _ hcells hsame.known hsame.users

/-- A flip is emitted once and then twice: the exports are the same, and only the hits differ. -/
theorem export_injective_hit :
    let leaf : Call := .alloc (.tuple [.int 2]) false
    let flip : Call := .emit false (.op (.flip (.int 0))) (.tuple [.int 2]) 1 0
    let p := (run none [leaf, flip]).program
    let q := (run none [leaf, flip, flip]).program
    p.exportText.toUTF8 = q.exportText.toUTF8 ∧ q.hits = 1 ∧ SameTables p q ∧
      q = { p with hits := q.hits } := by
  intro leaf flip p q
  let i : Instruction := ⟨.flip (.int 0), ⟨[2]⟩, .one 1⟩
  let one : Program := push {} (.leaf ⟨[2]⟩ false)
  have hdefined : i.op.isUndefined = false := by decide
  have hempty : one.find? i = none := by
    simp only [find?, hdefined]
    exact Std.HashMap.getElem?_empty
  have hfirst : flip.carryOut none one = fresh none i one := by
    have hnew : one.newInstruction none (.op (.flip (.int 0))) (.tuple [.int 2]) 1 0 = .ok i := rfl
    exact emit_of_unknown hnew hempty
  have hp : p = stateAfter (fresh none i one) :=
    (Record.program_after _ flip).trans (congrArg stateAfter hfirst)
  have hq : q = stateAfter (hit none false i 2 p) := by
    have hnew : p.newInstruction none (.op (.flip (.int 0))) (.tuple [.int 2]) 1 0 = .ok i := by
      rw [hp]
      rfl
    have hfind : p.find? i = some 2 := by rw [hp, find?_fresh none one hdefined]; rfl
    have hsecond : flip.carryOut none p = hit none false i 2 p := emit_of_known hnew hfind
    exact (Record.program_after _ flip).trans (congrArg stateAfter hsecond)
  have hcells : q.cells = p.cells := by
    rw [hq]
    exact cells_addUsers _ _ _
  have hhits : q.hits = 1 := by
    rw [hq, hp]
    rfl
  have hbytes : p.exportText.toUTF8 = q.exportText.toUTF8 := by
    rw [exportText_eq_of_cells (run_indexed none _) (run_indexed none _) hcells]
  obtain ⟨hsame, heq⟩ :=
    export_injective [leaf, flip] [leaf, flip, flip] (by decide) (by decide) hbytes
  refine ⟨hbytes, hhits, hsame, heq ?_ ?_⟩
  · simp [leaf, flip, Call.IsUnsized, Op.unsized, Value.unsized]
  · simp [leaf, flip, Call.IsUnsized, Op.unsized, Value.unsized]

end Program

end TensorGraph
