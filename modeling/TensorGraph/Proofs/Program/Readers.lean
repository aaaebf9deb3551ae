import TensorGraph.Program.Export
import TensorGraph.Proofs.Program.Run

/-!
# Readers of buffers

A program keeps a table of which instructions read a buffer, and an instruction that is asked for
again is entered again. Whatever calls are made on a new program, the table is what the schedule
says: an instruction that is found was entered when it was emitted, and a new one has the largest
id of all, so it comes last. Only an instruction whose operation has no name is missing: it stands in
the schedule, but its emission failed before it was entered, and so does every other one that finds
it.
-/

namespace TensorGraph

/-- The first value that an object has under a name. -/
def Json.field? : Json → String → Option Json
  | .object fields, name => fields.lookup name
  | _, _ => none

namespace Program

/-- The instructions with names that read a buffer, in the order of emission. -/
def readers (digits : Option Nat) (p : Program) (id : Nat) : List Nat :=
  (p.schedule.filter fun e => id ∈ e.2.sources.toList ∧ e.2.op.Named digits).map Prod.fst

variable {digits : Option Nat}

theorem mem_readers {p : Program} {id user : Nat} :
    user ∈ p.readers digits id ↔
      ∃ i, (user, i) ∈ p.schedule ∧ id ∈ i.sources.toList ∧ i.op.Named digits := by
  simp [readers]

theorem readers_ascending (p : Program) (id : Nat) : (p.readers digits id).Pairwise (· < ·) :=
  List.pairwise_map.mpr (p.schedule_ascending.filter _)

/-! ### The schedule of a longer program -/

theorem schedule_push (p : Program) (c : Cell) :
    (p.push c).schedule = p.schedule ++ (c.instruction?.map fun i => (p.size + 1, i)).toList := by
  simp only [schedule]
  rw [entries_push, List.filterMap_append]
  cases c <;> rfl

theorem schedule_congr {p q : Program} (h : q.cells = p.cells) : q.schedule = p.schedule := by
  simp only [schedule, entries_congr h]

theorem readers_congr {p q : Program} (h : q.cells = p.cells) (id : Nat) :
    q.readers digits id = p.readers digits id := by
  simp only [readers, schedule_congr h]

theorem readers_push_leaf (p : Program) (s : Shape) (z : Bool) (id : Nat) :
    (p.push (.leaf s z)).readers digits id = p.readers digits id := by
  rw [readers, schedule_push]
  exact congrArg _ (congrArg _ (List.append_nil _))

theorem readers_addInstruction (p : Program) (i : Instruction) (id : Nat) :
    (p.addInstruction i).readers digits id = p.readers digits id ++
      if id ∈ i.sources.toList ∧ i.op.Named digits then [p.size + 1] else [] := by
  have hpush : (p.addInstruction i).schedule = (p.push (.instruction i)).schedule :=
    schedule_congr rfl
  rw [readers, hpush, schedule_push]
  simp only [Cell.instruction?, Option.map_some, Option.toList_some, List.filter_append,
    List.map_append, readers]
  split <;> simp [*]

/-! ### The table of readers -/

/-- A list with one more user, unless it has the user already. -/
def noted (users : List Nat) (user : Nat) : List Nat :=
  if user ∈ users then users else users ++ [user]

theorem mem_noted (users : List Nat) (user : Nat) : user ∈ noted users user := by
  simp only [noted]
  split <;> simp [*]

theorem noted_of_mem {users : List Nat} {user : Nat} (h : user ∈ users) :
    noted users user = users := if_pos h

theorem usersOf_addUser {p : Program} {s : Nat} (hpos : 0 < s) (hle : s ≤ p.users.size)
    (user id : Nat) :
    (p.addUser user s).usersOf id =
      if id = s then noted (p.usersOf id) user else p.usersOf id := by
  by_cases h0 : id = 0
  · rw [if_neg (by omega)]
    simp only [usersOf, h0, if_true]
  simp only [usersOf, h0, if_false, addUser, Array.getD_eq_getD_getElem?, Array.getElem?_modify]
  by_cases hid : id = s
  · subst hid
    have hlt : id - 1 < p.users.size := by omega
    rw [if_pos rfl, if_pos rfl, Array.getElem?_eq_getElem hlt]
    simp only [Option.map_some, Option.getD_some, noted, Array.contains_iff_mem,
      Array.mem_toList_iff]
    split <;> simp
  · rw [if_neg (by omega), if_neg hid]

theorem size_users_addUsers (p : Program) (user : Nat) (sources : List Nat) :
    (p.addUsers user sources).users.size = p.users.size := by
  simp only [addUsers]
  induction sources generalizing p with
  | nil => rfl
  | cons s sources ih =>
    rw [List.foldl_cons, ih]
    simp [addUser]

theorem usersOf_addUsers {p : Program} {sources : List Nat}
    (hs : ∀ s ∈ sources, 0 < s ∧ s ≤ p.users.size) (user id : Nat) :
    (p.addUsers user sources).usersOf id =
      if id ∈ sources then noted (p.usersOf id) user else p.usersOf id := by
  induction sources generalizing p with
  | nil => rfl
  | cons s sources ih =>
    obtain ⟨hpos, hle⟩ := hs s (List.mem_cons_self ..)
    have hsize : (p.addUser user s).users.size = p.users.size := size_users_addUsers p user [s]
    have htail : ∀ t ∈ sources, 0 < t ∧ t ≤ (p.addUser user s).users.size := fun t ht =>
      hsize ▸ hs t (List.mem_cons_of_mem s ht)
    have hfold : p.addUsers user (s :: sources) = (p.addUser user s).addUsers user sources := rfl
    rw [hfold, ih htail, usersOf_addUser hpos hle]
    by_cases hid : id = s
    · -- the second of two equal sources finds the user there
      have hmem : id ∈ s :: sources := hid ▸ List.mem_cons_self ..
      rw [if_pos hid, if_pos hmem, noted_of_mem (mem_noted _ _), ite_self]
    · simp only [hid, if_false, List.mem_cons, false_or]

theorem usersOf_congr {p q : Program} (h : q.users = p.users) (id : Nat) :
    q.usersOf id = p.usersOf id := by
  simp only [usersOf, h]

theorem usersOf_push {p : Program} {c : Cell} (id : Nat) :
    (p.push c).usersOf id = p.usersOf id := by
  simp only [usersOf, push, Array.getD_eq_getD_getElem?, Array.getElem?_push]
  split
  · rfl
  · split
    · rename_i hid
      rw [hid, Array.getElem?_eq_none (Nat.le_refl _)]
      rfl
    · rfl

/-! ### Runs -/

/-- The table of readers has a list for each buffer, and it is the one that the schedule gives. -/
structure Indexed (digits : Option Nat) (p : Program) : Prop where
  sound : p.Sound
  size_users : p.users.size = p.size
  usersOf : ∀ id, p.usersOf id = p.readers digits id

theorem indexed_empty (digits : Option Nat) : Indexed digits {} where
  sound := sound_empty
  size_users := rfl
  usersOf id := by simp [Program.usersOf, readers, schedule, entries]

namespace Indexed

variable {p q : Program} {i : Instruction}

theorem of_same (h : p.Indexed digits) (hcells : q.cells = p.cells) (hknown : q.known = p.known)
    (husers : q.users = p.users) : q.Indexed digits where
  sound := (grows_of_same hcells hknown).2 h.sound
  size_users := by rw [husers, size, hcells, h.size_users, size]
  usersOf id := by rw [readers_congr hcells, usersOf_congr husers, h.usersOf]

theorem push_leaf (h : p.Indexed digits) (s : Shape) (z : Bool) :
    (p.push (.leaf s z)).Indexed digits where
  sound := h.sound.push_leaf s z
  size_users := by simp [push, size, h.size_users]
  usersOf id := by rw [usersOf_push, readers_push_leaf, h.usersOf]

/-- An instruction with a name that is there has been entered for each of its sources. -/
theorem enter (h : p.Indexed digits) {id : Nat} (hi : p.cell? id = some (.instruction i))
    (hnamed : i.op.Named digits) : (p.addUsers id i.sources.toList).Indexed digits := by
  have hcells : (p.addUsers id i.sources.toList).cells = p.cells := cells_addUsers _ _ _
  have hle := (le_size_of_cell? hi).2
  have hs : ∀ s ∈ i.sources.toList, 0 < s ∧ s ≤ p.users.size := by
    intro s hs
    obtain ⟨hpos, hlt⟩ := h.sound.source_lt id i hi s hs
    exact ⟨hpos, by rw [h.size_users]; omega⟩
  refine ⟨?_, ?_, ?_⟩
  · exact (grows_of_same hcells (known_addUsers _ _ _)).2 h.sound
  · rw [size_users_addUsers, size, hcells, h.size_users, size]
  · intro b
    rw [usersOf_addUsers hs, readers_congr hcells, h.usersOf]
    split
    · rename_i hb
      exact noted_of_mem (mem_readers.mpr ⟨i, mem_schedule.mpr hi, hb, hnamed⟩)
    · rfl

theorem hit (h : p.Indexed digits) {id : Nat} (hfind : p.find? i = some id)
    (hnamed : i.op.Named digits) :
    (addUsers { p with hits := p.hits + 1 } id i.sources.toList).Indexed digits := by
  obtain ⟨j, hj, hkey⟩ := find?_ok h.sound hfind
  have hsources : j.sources = i.sources := congrArg Key.sources hkey
  have hname : j.op.Named digits := (Op.named_congr (congrArg Key.signature hkey)).mpr hnamed
  have hhit : Indexed digits { p with hits := p.hits + 1 } := h.of_same rfl rfl rfl
  rw [← hsources]
  exact hhit.enter hj hname

theorem size_users_addInstruction (h : p.Indexed digits) (i : Instruction) :
    (p.addInstruction i).users.size = (p.addInstruction i).size := by
  have husers : (p.addInstruction i).users.size = p.users.size + 1 := Array.size_push ..
  have hsize : (p.addInstruction i).size = p.size + 1 := Array.size_push ..
  rw [husers, hsize, h.size_users]

theorem usersOf_addInstruction (i : Instruction) (id : Nat) :
    (p.addInstruction i).usersOf id = p.usersOf id := by
  have hpush : (p.addInstruction i).usersOf id = (p.push (.instruction i)).usersOf id :=
    usersOf_congr rfl id
  rw [hpush, usersOf_push]

/-- A new instruction is no reader before it is there, and comes after all others. -/
theorem fresh (h : p.Indexed digits) (hs : ∀ s ∈ i.sources.toList, 0 < s ∧ s ≤ p.size)
    (hfind : p.find? i = none) (hnamed : i.op.Named digits) :
    ((p.addInstruction i).addUsers (p.size + 1) i.sources.toList).Indexed digits := by
  have hcells : ((p.addInstruction i).addUsers (p.size + 1) i.sources.toList).cells =
      (p.addInstruction i).cells := cells_addUsers _ _ _
  have hsize := h.size_users_addInstruction i
  have hs' : ∀ s ∈ i.sources.toList, 0 < s ∧ s ≤ (p.addInstruction i).users.size := by
    intro s hmem
    have hnext : (p.addInstruction i).size = p.size + 1 := Array.size_push ..
    have := hs s hmem
    omega
  refine ⟨?_, ?_, ?_⟩
  · exact (grows_of_same hcells (known_addUsers _ _ _)).2 (h.sound.push_instruction hs hfind)
  · rw [size_users_addUsers, hsize, size, size, hcells]
  · intro b
    have hnew : p.size + 1 ∉ p.readers digits b := by
      intro hmem
      obtain ⟨j, hj, -⟩ := mem_readers.mp hmem
      have := (le_size_of_cell? (mem_schedule.mp hj)).2
      omega
    rw [usersOf_addUsers hs', readers_congr hcells, readers_addInstruction,
      usersOf_addInstruction, h.usersOf]
    simp only [hnamed, and_true]
    split
    · rw [noted, if_neg hnew]
    · rw [List.append_nil]

/-- An instruction without a name is no reader. -/
theorem unnamed (h : p.Indexed digits) (hs : ∀ s ∈ i.sources.toList, 0 < s ∧ s ≤ p.size)
    (hfind : p.find? i = none) (hunnamed : ¬i.op.Named digits) :
    (p.addInstruction i).Indexed digits where
  sound := h.sound.push_instruction hs hfind
  size_users := h.size_users_addInstruction i
  usersOf b := by
    rw [readers_addInstruction, if_neg fun hb => hunnamed hb.2, List.append_nil,
      usersOf_addInstruction, h.usersOf]

/-- One call keeps the table of readers exact. -/
theorem after (h : p.Indexed digits) (call : Call) :
    (stateAfter (call.carryOut digits p)).Indexed digits := by
  cases outcome digits p call with
  | refused e hits hrun =>
    rw [hrun]
    exact h.of_same rfl rfl rfl
  | leaf s z _ hrun =>
    rw [hrun]
    exact h.push_leaf s z
  | fresh i _ hsources hunknown hnamed hrun =>
    rw [hrun]
    exact h.fresh hsources hunknown hnamed
  | unnamed e i _ hsources hunknown hunnamed hrun =>
    rw [hrun]
    exact h.unnamed hsources hunknown hunnamed
  | hit i id _ hknown hnamed hrun =>
    rw [hrun]
    exact h.hit hknown hnamed

end Indexed

theorem run_indexed (digits : Option Nat) (calls : List Call) :
    (run digits calls).program.Indexed digits :=
  run_invariant (indexed_empty digits) fun call _ _ h => h.after call

/-! ### What is told about readers -/

theorem mem_ids {p : Program} {id : Nat} : id ∈ p.ids ↔ 0 < id ∧ id ≤ p.size := by
  simp only [ids, List.mem_map, List.mem_range]
  constructor
  · rintro ⟨k, hk, rfl⟩
    omega
  · intro h
    exact ⟨id - 1, by omega, by omega⟩

theorem ids_ascending (p : Program) : p.ids.Pairwise (· < ·) :=
  List.pairwise_map.mpr (List.pairwise_lt_range.imp fun h => Nat.succ_lt_succ h)

/-- Readers are told for the buffers of the program, exactly as its instructions with names say. -/
structure ReadersExact (digits : Option Nat) (p : Program) : Prop where
  /-- There is one list of readers for each buffer, and no other. -/
  size_users : p.users.size = p.size
  /-- The readers of a buffer are listed once each, in ascending order. -/
  consumers : ∀ id ∈ p.ids, ∃ users, p.consumers id = .ok users ∧ users.Pairwise (· < ·) ∧
    ∀ user, user ∈ users ↔
      ∃ i, (user, i) ∈ p.schedule ∧ id ∈ i.sources.toList ∧ i.op.Named digits
  /-- They are all instructions that read the buffer if all have names, and only then. -/
  complete_iff :
    (∀ user i, (user, i) ∈ p.schedule → ∀ id : Nat, id ∈ i.sources.toList →
      ∃ users, p.consumers id = .ok users ∧ user ∈ users) ↔
    ∀ entry ∈ p.schedule, entry.2.op.Named digits
  /-- A number that is no buffer has no readers; 0 is none. -/
  unknown : ∀ n : Int, (∀ id ∈ p.ids, n ≠ id) → p.consumers n = .error (.unknownBuffer n)
  zero : 0 ∉ p.ids
  /-- An export lists the buffers that have readers, and these, in ascending order. -/
  exported : ∃ rows : List (Nat × List Nat),
    p.toJson.field? "deps" = some (.object (rows.map fun d => (toString d.1, idsJson d.2))) ∧
    rows.Pairwise (fun d d' => d.1 < d'.1) ∧
    ∀ id users, (id, users) ∈ rows ↔
      id ∈ p.ids ∧ p.consumers id = .ok users ∧ users ≠ []

theorem consumers_of_mem_ids {p : Program} {id : Nat} (h : id ∈ p.ids) :
    p.consumers id = .ok (p.usersOf id) := by
  have hid : p.getId id = .ok id := by
    rw [getId, id?_eq_some_iff.mpr ⟨rfl, mem_ids.mp h⟩]
  rw [consumers, hid]
  rfl

theorem consumers_of_unknown {p : Program} {n : Int} (h : ∀ id ∈ p.ids, n ≠ id) :
    p.consumers n = .error (.unknownBuffer n) := by
  have hid : p.id? n = none := by
    cases hn : p.id? n with
    | none => rfl
    | some id =>
      obtain ⟨rfl, hle⟩ := id?_eq_some_iff.mp hn
      exact absurd rfl (h id (mem_ids.mpr hle))
  rw [consumers, getId, hid]
  rfl

theorem mem_dependencies {p : Program} {id : Nat} {users : List Nat} :
    (id, users) ∈ p.dependencies ↔ id ∈ p.ids ∧ p.consumers id = .ok users ∧ users ≠ [] := by
  simp only [dependencies, List.mem_filter, List.mem_map, Prod.mk.injEq]
  constructor
  · rintro ⟨⟨id', hid, rfl, rfl⟩, hne⟩
    exact ⟨hid, consumers_of_mem_ids hid, by simpa using hne⟩
  · rintro ⟨hid, hconsumers, hne⟩
    rw [consumers_of_mem_ids hid] at hconsumers
    exact ⟨⟨id, hid, rfl, Except.ok.inj hconsumers⟩, by simpa using hne⟩

theorem dependencies_ascending (p : Program) :
    p.dependencies.Pairwise fun d d' => d.1 < d'.1 := by
  simp only [dependencies]
  refine List.Pairwise.filter _ (List.pairwise_map.mpr ?_)
  exact p.ids_ascending

theorem Indexed.consumers {p : Program} (h : p.Indexed digits) {id : Nat} (hid : id ∈ p.ids) :
    p.consumers id = .ok (p.readers digits id) := by
  rw [consumers_of_mem_ids hid, h.usersOf]

/-- What an instruction reads is a buffer. -/
theorem Sound.source_mem_ids {p : Program} (h : p.Sound) {user : Nat} {i : Instruction}
    (hi : (user, i) ∈ p.schedule) {id : Nat} (hid : id ∈ i.sources.toList) : id ∈ p.ids := by
  have hcell := mem_schedule.mp hi
  obtain ⟨hpos, hlt⟩ := h.source_lt user i hcell id hid
  exact mem_ids.mpr ⟨hpos, Nat.le_trans (Nat.le_of_lt hlt) (le_size_of_cell? hcell).2⟩

theorem Indexed.complete_iff {p : Program} (h : p.Indexed digits) :
    (∀ user i, (user, i) ∈ p.schedule → ∀ id : Nat, id ∈ i.sources.toList →
      ∃ users, p.consumers id = .ok users ∧ user ∈ users) ↔
    ∀ entry ∈ p.schedule, entry.2.op.Named digits := by
  constructor
  · rintro hall ⟨user, i⟩ hi
    have hfirst : i.sources.first ∈ i.sources.toList := i.sources.first_mem
    obtain ⟨users, husers, hmem⟩ := hall user i hi _ hfirst
    rw [h.consumers (h.sound.source_mem_ids hi hfirst)] at husers
    cases husers
    obtain ⟨j, hj, -, hnamed⟩ := mem_readers.mp hmem
    cases (mem_schedule.mp hj).symm.trans (mem_schedule.mp hi)
    exact hnamed
  · intro hall user i hi id hid
    exact ⟨_, h.consumers (h.sound.source_mem_ids hi hid),
      mem_readers.mpr ⟨i, hi, hid, hall (user, i) hi⟩⟩

theorem Indexed.readersExact {p : Program} (h : p.Indexed digits) : p.ReadersExact digits where
  size_users := h.size_users
  consumers _ hid := ⟨_, h.consumers hid, p.readers_ascending _, fun _ => mem_readers⟩
  complete_iff := h.complete_iff
  unknown _ hn := consumers_of_unknown hn
  zero h0 := Nat.lt_irrefl 0 (mem_ids.mp h0).1
  exported := ⟨p.dependencies, rfl, p.dependencies_ascending, fun _ _ => mem_dependencies⟩

/-- Whatever calls are made on a new program, also calls that are refused or that find what they
ask for, its readers are told exactly, but for instructions whose operations have no name. -/
theorem run_readersExact (digits : Option Nat) (calls : List Call) :
    ReadersExact digits (run digits calls).program :=
  (run_indexed digits calls).readersExact

/-! ### An operation without a name -/

/-- A flip along an axis that is too long for a text. -/
def longFlip : Instruction := ⟨.flip (.int (Nat.pow 10 4300)), ⟨[2]⟩, .one 1⟩

theorem name_longFlip : longFlip.op.name (some 4300) = .error .integerTooLong :=
  Op.name_flip_pow 4300

/-- A leaf is asked for, and then that flip of it. -/
def longFlipCalls : List Call :=
  [.alloc (.tuple [.int 2]) false, .emit false (.op longFlip.op) (.tuple [.int 2]) 1 0]

/-- The flip is stored when its emission fails. -/
theorem program_longFlip : (run (some 4300) longFlipCalls).program =
    (push {} (.leaf ⟨[2]⟩ false)).addInstruction longFlip := by
  let leaf : Program := push {} (.leaf ⟨[2]⟩ false)
  have hnew : leaf.newInstruction (some 4300) (.op longFlip.op) (.tuple [.int 2]) 1 0 =
      .ok longFlip := rfl
  have hfind : leaf.find? longFlip = none := by
    have hdefined : longFlip.op.isUndefined = false := rfl
    simp only [find?, hdefined]
    exact Std.HashMap.getElem?_empty
  have hemit : (Call.emit false (.op longFlip.op) (.tuple [.int 2]) 1 0).carryOut (some 4300) leaf =
      .error .integerTooLong (leaf.addInstruction longFlip) := by
    refine (emit_of_unknown hnew hfind).trans ?_
    simp only [fresh, name_longFlip]
  have hrun : run (some 4300) longFlipCalls =
      Record.after (some 4300) ⟨leaf, [⟨.alloc (.tuple [.int 2]) false, 1⟩]⟩
        (.emit false (.op longFlip.op) (.tuple [.int 2]) 1 0) := rfl
  rw [hrun, Record.program_after, hemit]
  rfl

/-- The flip is an instruction that reads the leaf, and the leaf has no readers. -/
theorem longFlip_unread :
    (2, longFlip) ∈ (run (some 4300) longFlipCalls).program.schedule ∧
      1 ∈ longFlip.sources.toList ∧
      (run (some 4300) longFlipCalls).program.consumers 1 = .ok [] := by
  rw [program_longFlip]
  exact ⟨mem_schedule.mpr rfl, List.mem_singleton_self 1, rfl⟩

end Program

end TensorGraph
