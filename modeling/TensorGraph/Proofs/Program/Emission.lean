import TensorGraph.Program.Emission
import TensorGraph.Proofs.Op.Naming

/-!
# Sound programs

A program is sound when its instructions read earlier buffers and its table of known keys tells
exactly which instruction has a key. An instruction over an undefined operation is never found, so
the table need not know it. Emission keeps a program sound and keeps all of its cells.
-/

namespace TensorGraph.Program

/-- Every cell of `p` is the same cell of `q`. -/
def Extends (p q : Program) : Prop :=
  ∀ id c, p.cell? id = some c → q.cell? id = some c

structure Sound (p : Program) : Prop where
  /-- Instructions read buffers that came before. -/
  source_lt : ∀ id i, p.cell? id = some (.instruction i) → ∀ s ∈ i.sources.toList, 0 < s ∧ s < id
  /-- A known key is the key of the instruction under its id. -/
  known_key : ∀ k id, p.known[k]? = some id → ∃ i, p.cell? id = some (.instruction i) ∧ i.key = k
  /-- An instruction is known under its key. -/
  key_known : ∀ id i, p.cell? id = some (.instruction i) → i.op.isUndefined = false →
    p.known[i.key]? = some id

/-- The program `q` has the cells of `p` and is sound when `p` is. -/
def Grows (p q : Program) : Prop := p.Extends q ∧ (p.Sound → q.Sound)

theorem Extends.refl (p : Program) : p.Extends p := fun _ _ h => h

theorem Extends.trans {p q r : Program} (hpq : p.Extends q) (hqr : q.Extends r) : p.Extends r :=
  fun id c h => hqr id c (hpq id c h)

instance : IsPreorder Program Grows where
  refl p := ⟨Extends.refl p, id⟩
  trans _ _ _ hpq hqr := ⟨hpq.1.trans hqr.1, fun h => hqr.2 (hpq.2 h)⟩

/-! ### Cells -/

theorem cell?_congr {p q : Program} (h : q.cells = p.cells) (id : Nat) :
    q.cell? id = p.cell? id := by
  simp only [cell?, h]

theorem le_size_of_cell? {p : Program} {id : Nat} {c : Cell} (h : p.cell? id = some c) :
    0 < id ∧ id ≤ p.size := by
  unfold cell? at h
  split at h
  · cases h
  · have := (Array.getElem?_eq_some_iff.mp h).1
    simp only [size]
    omega

theorem cell?_of_le_size {p : Program} {id : Nat} (hpos : 0 < id) (hle : id ≤ p.size) :
    ∃ c, p.cell? id = some c := by
  have hlt : id - 1 < p.cells.size := by unfold size at hle; omega
  refine ⟨p.cells[id - 1], ?_⟩
  rw [cell?, if_neg (Nat.ne_of_gt hpos)]
  exact Array.getElem?_eq_getElem hlt

theorem shapeOf_of_cell? {p : Program} {id : Nat} {c : Cell} (h : p.cell? id = some c) :
    p.shapeOf id = .ok c.shape := by
  have hid : p.getId id = .ok id := by
    rw [getId, id?_eq_some_iff.mpr ⟨rfl, le_size_of_cell? h⟩]
  simp only [shapeOf, hid, bind, Except.bind, h]

theorem cell?_push (p : Program) (c : Cell) (id : Nat) :
    (p.push c).cell? id = if id = p.size + 1 then some c else p.cell? id := by
  simp only [cell?, push, size]
  by_cases h0 : id = 0
  · simp [h0]
  · simp only [h0, if_false, Array.getElem?_push]
    by_cases h : id = p.cells.size + 1
    · simp [h]
    · rw [if_neg (by omega), if_neg h]

theorem cell?_addInstruction_self (p : Program) (i : Instruction) :
    (p.addInstruction i).cell? (p.size + 1) = some (.instruction i) := by
  have hpush : (p.addInstruction i).cell? (p.size + 1) =
      (p.push (.instruction i)).cell? (p.size + 1) :=
    cell?_congr rfl _
  rw [hpush, cell?_push, if_pos rfl]

theorem extends_push (p : Program) (c : Cell) : p.Extends (p.push c) := by
  intro id d h
  have hle := (le_size_of_cell? h).2
  rw [cell?_push, if_neg (by omega), h]

theorem cells_addUsers (p : Program) (user : Nat) (sources : List Nat) :
    (p.addUsers user sources).cells = p.cells := by
  simp only [addUsers]
  induction sources generalizing p with
  | nil => rfl
  | cons s sources ih =>
    rw [List.foldl_cons, ih]
    rfl

theorem cell?_addUsers (p : Program) (user : Nat) (sources : List Nat) (id : Nat) :
    (p.addUsers user sources).cell? id = p.cell? id := cell?_congr (cells_addUsers p user sources) id

theorem known_addUsers (p : Program) (user : Nat) (sources : List Nat) :
    (p.addUsers user sources).known = p.known := by
  simp only [addUsers]
  induction sources generalizing p with
  | nil => rfl
  | cons s sources ih =>
    rw [List.foldl_cons, ih]
    rfl

theorem hits_addUsers (p : Program) (user : Nat) (sources : List Nat) :
    (p.addUsers user sources).hits = p.hits := by
  simp only [addUsers]
  induction sources generalizing p with
  | nil => rfl
  | cons s sources ih =>
    rw [List.foldl_cons, ih]
    rfl

/-! ### Soundness -/

theorem sound_empty : Sound {} where
  source_lt id i h := by simp [cell?] at h
  known_key k id h := by simp at h
  key_known id i h := by simp [cell?] at h

/-- Neither the readers of buffers nor the hits matter. -/
theorem grows_of_same {p q : Program} (hc : q.cells = p.cells) (hk : q.known = p.known) :
    p.Grows q := by
  have hcell := cell?_congr hc
  constructor
  · intro id c h
    rw [hcell, h]
  · rintro ⟨lower, key, known⟩
    refine ⟨?_, ?_, ?_⟩
    · intro id i h
      exact lower id i (by rw [← hcell, h])
    · intro k id h
      rw [hk] at h
      obtain ⟨i, hi, hik⟩ := key k id h
      exact ⟨i, by rw [hcell, hi], hik⟩
    · intro id i h hi
      rw [hk]
      exact known id i (by rw [← hcell, h]) hi

theorem Sound.push_leaf {p : Program} (h : p.Sound) (shape : Shape) (zero : Bool) :
    (p.push (.leaf shape zero)).Sound where
  source_lt id i hi := by
    rw [cell?_push] at hi
    split at hi
    · cases hi
    · exact h.source_lt id i hi
  known_key k id hk := by
    obtain ⟨i, hi, hik⟩ := h.known_key k id hk
    exact ⟨i, extends_push p _ id _ hi, hik⟩
  key_known id i hi hdef := by
    rw [cell?_push] at hi
    split at hi
    · cases hi
    · exact h.key_known id i hi hdef

theorem grows_push_leaf (p : Program) (shape : Shape) (zero : Bool) :
    p.Grows (p.push (.leaf shape zero)) :=
  ⟨extends_push p _, fun h => h.push_leaf shape zero⟩

theorem isUndefined_of_key {i j : Instruction} (h : i.key = j.key) :
    i.op.isUndefined = j.op.isUndefined := by
  have hs : i.op.signature = j.op.signature := congrArg Key.signature h
  simp only [Op.isUndefined]
  rw [hs]

/-- A key that is not known may be given to the next instruction. -/
theorem Sound.push_instruction {p : Program} (h : p.Sound) {i : Instruction}
    (hs : ∀ s ∈ i.sources.toList, 0 < s ∧ s ≤ p.size) (hfind : p.find? i = none) :
    (p.addInstruction i).Sound := by
  have hcell : ∀ id, (p.addInstruction i).cell? id = (p.push (.instruction i)).cell? id :=
    cell?_congr rfl
  have hold := extends_push p (.instruction i)
  constructor
  case source_lt =>
    intro id j hj s hsj
    rw [hcell, cell?_push] at hj
    split at hj
    · rename_i hid
      cases hj
      have := hs s hsj
      omega
    · exact h.source_lt id j hj s hsj
  case known_key =>
    intro k id hk
    rw [addInstruction, Std.HashMap.getElem?_insert] at hk
    split at hk
    · rename_i hkey
      have hid : p.size + 1 = id := Option.some.inj hk
      refine ⟨i, ?_, eq_of_beq hkey⟩
      rw [hcell, cell?_push, if_pos hid.symm]
    · obtain ⟨j, hj, hjk⟩ := h.known_key k id hk
      exact ⟨j, by rw [hcell]; exact hold id _ hj, hjk⟩
  case key_known =>
    intro id j hj hdef
    rw [hcell, cell?_push] at hj
    rw [addInstruction, Std.HashMap.getElem?_insert]
    split at hj
    · rename_i hid
      cases hj
      rw [if_pos (beq_self_eq_true i.key), hid]
    · -- an older instruction with the key of `i` would have been found
      have hknown := h.key_known id j hj hdef
      have hne : (i.key == j.key) = false := by
        rw [beq_eq_false_iff_ne]
        intro heq
        have hi : i.op.isUndefined = false := by rw [isUndefined_of_key heq, hdef]
        simp only [find?, hi, Bool.false_eq_true, if_false] at hfind
        rw [heq, hknown] at hfind
        cases hfind
      rw [hne]
      exact hknown

/-! ### Emission -/

variable {digits : Option Nat}

theorem getId_ok {p : Program} {n : Int} {id : Nat} (h : p.getId n = .ok id) :
    0 < id ∧ id ≤ p.size ∧ n = id := by
  unfold getId at h
  split at h
  · rename_i hid
    cases h
    have := id?_eq_some_iff.mp hid
    exact ⟨this.2.1, this.2.2, this.1⟩
  · cases h

theorem sources_ok {p : Program} {op : Op} {a b : Int} {read : Sources}
    (h : p.sources digits op a b = .ok read) :
    (∀ s ∈ read.toList, 0 < s ∧ s ≤ p.size) ∧
      ((op.sourceCount = 2 ∧ ∃ x y : Nat, a = x ∧ b = y ∧ read = .two x y) ∨
        (op.sourceCount ≠ 2 ∧ ∃ x : Nat, a = x ∧ read = .one x)) := by
  unfold sources at h
  split at h
  · rename_i hcount
    dsimp only at h
    split at h
    · obtain ⟨_, -, h⟩ := except_bind_eq_ok.mp h
      cases h
    obtain ⟨x, hx, h⟩ := except_bind_eq_ok.mp h
    obtain ⟨y, hy, h⟩ := except_bind_eq_ok.mp h
    cases h
    obtain ⟨hx0, hx1, rfl⟩ := getId_ok hx
    obtain ⟨hy0, hy1, rfl⟩ := getId_ok hy
    refine ⟨?_, Or.inl ⟨hcount, x, y, rfl, rfl, rfl⟩⟩
    intro s hs
    have hs : s = x ∨ s = y := by simpa [Sources.toList] using hs
    rcases hs with rfl | rfl
    · exact ⟨hx0, hx1⟩
    · exact ⟨hy0, hy1⟩
  · rename_i hcount
    dsimp only at h
    split at h
    · obtain ⟨_, -, h⟩ := except_bind_eq_ok.mp h
      cases h
    obtain ⟨x, hx, h⟩ := except_bind_eq_ok.mp h
    cases h
    obtain ⟨hx0, hx1, rfl⟩ := getId_ok hx
    refine ⟨?_, Or.inr ⟨hcount, x, rfl, rfl⟩⟩
    intro s hs
    rw [List.mem_singleton.mp hs]
    exact ⟨hx0, hx1⟩

theorem newInstruction_ok {p : Program} {c : Op.Candidate} {shape : Value} {a b : Int}
    {i : Instruction} (h : p.newInstruction digits c shape a b = .ok i) :
    c = .op i.op ∧ Shape.ofValue shape = .ok i.shape ∧
      p.sources digits i.op a b = .ok i.sources := by
  unfold newInstruction at h
  split at h
  · cases h
  · obtain ⟨s, hs, h⟩ := except_bind_eq_ok.mp h
    obtain ⟨_, _, h⟩ := except_bind_eq_ok.mp h
    obtain ⟨sources, hsources, h⟩ := except_bind_eq_ok.mp h
    cases h
    exact ⟨rfl, hs, hsources⟩

theorem find?_ok {p : Program} (h : p.Sound) {i : Instruction} {id : Nat}
    (hfind : p.find? i = some id) : ∃ j, p.cell? id = some (.instruction j) ∧ j.key = i.key := by
  unfold find? at hfind
  split at hfind
  · cases hfind
  · exact h.known_key _ _ hfind

section Emit

variable {strict : Bool} {c : Op.Candidate} {shape : Value} {a b : Int} {p : Program}
  {i : Instruction}

theorem emit_of_known {id : Nat} (hnew : p.newInstruction digits c shape a b = .ok i)
    (hfind : p.find? i = some id) :
    emit digits strict c shape a b p = hit digits strict i id p := by
  simp only [emit, hnew, hfind]

theorem emit_of_unknown (hnew : p.newInstruction digits c shape a b = .ok i)
    (hfind : p.find? i = none) : emit digits strict c shape a b p = fresh digits i p := by
  simp only [emit, hnew, hfind]

end Emit

/-- What an emission can do: refuse its arguments, find the instruction, or add it. -/
theorem emit_cases (digits : Option Nat) (strict : Bool) (c : Op.Candidate) (shape : Value)
    (a b : Int) (p : Program) :
    (∃ e, emit digits strict c shape a b p = .error e p) ∨
      ∃ i, p.newInstruction digits c shape a b = .ok i ∧
        ((∃ id, p.find? i = some id ∧
            emit digits strict c shape a b p = hit digits strict i id p) ∨
          (p.find? i = none ∧ emit digits strict c shape a b p = fresh digits i p)) := by
  cases hnew : p.newInstruction digits c shape a b with
  | error e => exact Or.inl ⟨e, by simp only [emit, hnew]⟩
  | ok i =>
    refine Or.inr ⟨i, rfl, ?_⟩
    cases hfind : p.find? i with
    | some id => exact Or.inl ⟨id, rfl, emit_of_known hnew hfind⟩
    | none => exact Or.inr ⟨rfl, emit_of_unknown hnew hfind⟩

/-- A hit counts. It is refused, or the operation has a name and the readers of the sources are
recorded. -/
theorem hit_cases (digits : Option Nat) (strict : Bool) (i : Instruction) (id : Nat)
    (p : Program) :
    (∃ e, hit digits strict i id p = .error e { p with hits := p.hits + 1 }) ∨
      i.op.Named digits ∧ hit digits strict i id p =
        .ok (.hit id i) (addUsers { p with hits := p.hits + 1 } id i.sources.toList) := by
  simp only [hit]
  cases hname : i.op.name digits with
  | error e => exact Or.inl ⟨e, rfl⟩
  | ok name =>
    dsimp only
    split
    · exact Or.inl ⟨_, rfl⟩
    · exact Or.inr ⟨⟨name, hname⟩, rfl⟩

theorem hit_keeps (digits : Option Nat) (strict : Bool) (i : Instruction) (id : Nat) :
    Keeps Grows (hit digits strict i id) := by
  intro p
  rcases hit_cases digits strict i id p with ⟨e, h⟩ | ⟨-, h⟩
  · rw [h]
    exact grows_of_same rfl rfl
  · rw [h]
    exact grows_of_same (cells_addUsers _ _ _) (known_addUsers _ _ _)

/-- A new instruction is recorded with its readers where its operation has a name. -/
theorem fresh_of_named {i : Instruction} (h : i.op.Named digits) (p : Program) :
    fresh digits i p =
      .ok (.fresh (p.size + 1) i) ((p.addInstruction i).addUsers (p.size + 1) i.sources.toList) := by
  obtain ⟨name, hname⟩ := h
  simp only [fresh, hname]

/-- A new instruction without a name is recorded, but not what it reads. -/
theorem fresh_of_unnamed {i : Instruction} (h : ¬i.op.Named digits) (p : Program) :
    ∃ e, fresh digits i p = .error e (p.addInstruction i) := by
  cases hname : i.op.name digits with
  | error e => exact ⟨e, by simp only [fresh, hname]⟩
  | ok name => exact absurd ⟨name, hname⟩ h

theorem cells_fresh (digits : Option Nat) (p : Program) (i : Instruction) :
    (stateAfter (fresh digits i p)).cells = p.cells.push (.instruction i) := by
  by_cases h : i.op.Named digits
  · rw [fresh_of_named h]
    exact cells_addUsers _ _ _
  · obtain ⟨e, he⟩ := fresh_of_unnamed h p
    rw [he]
    rfl

theorem known_fresh (digits : Option Nat) (p : Program) (i : Instruction) :
    (stateAfter (fresh digits i p)).known = p.known.insert i.key (p.size + 1) := by
  by_cases h : i.op.Named digits
  · rw [fresh_of_named h]
    exact known_addUsers _ _ _
  · obtain ⟨e, he⟩ := fresh_of_unnamed h p
    rw [he]
    rfl

/-- What is new is found from then on. -/
theorem find?_fresh (digits : Option Nat) (p : Program) {i : Instruction}
    (h : i.op.isUndefined = false) :
    (stateAfter (fresh digits i p)).find? i = some (p.size + 1) := by
  simp only [find?, h, known_fresh]
  exact Std.HashMap.getElem?_insert_self

theorem fresh_grows {p : Program} {i : Instruction}
    (hs : ∀ s ∈ i.sources.toList, 0 < s ∧ s ≤ p.size) (hfind : p.find? i = none) :
    p.Grows (stateAfter (fresh digits i p)) := by
  have hsame : (p.addInstruction i).Grows (stateAfter (fresh digits i p)) :=
    grows_of_same (cells_fresh digits p i) (known_fresh digits p i)
  refine ⟨fun id c h => hsame.1 id c ?_, fun h => hsame.2 (h.push_instruction hs hfind)⟩
  have hpush : (p.addInstruction i).cell? id = (p.push (.instruction i)).cell? id :=
    cell?_congr rfl id
  rw [hpush]
  exact extends_push p _ id c h

theorem emit_keeps (digits : Option Nat) (strict : Bool) (c : Op.Candidate) (shape : Value)
    (a b : Int) : Keeps Grows (emit digits strict c shape a b) := by
  intro p
  rcases emit_cases digits strict c shape a b p with ⟨e, h⟩ | ⟨i, hi, ⟨id, _, h⟩ | ⟨hfind, h⟩⟩
  · rw [h]
    exact Std.Refl.refl p
  · rw [h]
    exact hit_keeps digits strict i id p
  · rw [h]
    exact fresh_grows (sources_ok (newInstruction_ok hi).2.2).1 hfind

theorem alloc_keeps (shape : Value) (zero : Bool) : Keeps Grows (alloc shape zero) := by
  intro p
  simp only [alloc]
  cases Shape.ofValue shape with
  | error e => exact Std.Refl.refl p
  | ok s => exact grows_push_leaf p s zero

/-- A leaf gets an id that no cell had. -/
theorem alloc_ok {shape : Value} {zero : Bool} {p q : Program} {e : Emission}
    (h : alloc shape zero p = .ok e q) :
    ∃ s, Shape.ofValue shape = .ok s ∧ p.cell? e.id = none ∧
      q.cell? e.id = some (.leaf s zero) := by
  unfold alloc at h
  cases hs : Shape.ofValue shape with
  | error e => simp [hs] at h
  | ok s =>
    simp only [hs] at h
    cases h
    refine ⟨s, rfl, ?_, ?_⟩
    · cases hc : p.cell? (p.size + 1) with
      | none => exact hc
      | some c =>
        have := (le_size_of_cell? hc).2
        omega
    · change (p.push (.leaf s zero)).cell? (p.size + 1) = _
      rw [cell?_push, if_pos rfl]

/-- An emission gives the id of an instruction with the key asked for, whose operation has a
name. -/
theorem emit_ok {strict : Bool} {c : Op.Candidate} {shape : Value} {a b : Int} {p q : Program}
    {e : Emission} (hp : p.Sound) (h : emit digits strict c shape a b p = .ok e q) :
    ∃ i j, p.newInstruction digits c shape a b = .ok i ∧ i.op.Named digits ∧
      q.cell? e.id = some (.instruction j) ∧ j.key = i.key := by
  have hgrows : p.Grows q := (emit_keeps digits strict c shape a b).of_ok h
  rcases emit_cases digits strict c shape a b p with
    ⟨e', he⟩ | ⟨i, hi, ⟨id, hfind, he⟩ | ⟨_, he⟩⟩
  · rw [he] at h
    cases h
  · obtain ⟨j, hj, hkey⟩ := find?_ok hp hfind
    rcases hit_cases digits strict i id p with ⟨e', hhit⟩ | ⟨hnamed, hhit⟩
    · rw [he, hhit] at h
      cases h
    · rw [he, hhit] at h
      cases h
      exact ⟨i, j, hi, hnamed, hgrows.1 _ _ hj, hkey⟩
  · by_cases hnamed : i.op.Named digits
    · rw [he, fresh_of_named hnamed] at h
      cases h
      exact ⟨i, i, hi, hnamed, (cell?_addUsers _ _ _ _).trans (cell?_addInstruction_self p i), rfl⟩
    · obtain ⟨e', he'⟩ := fresh_of_unnamed hnamed p
      rw [he, he'] at h
      cases h

/-! ### Counts -/

theorem counts_of_alloc {shape : Value} {zero : Bool} {p q : Program} {e : Emission}
    (h : alloc shape zero p = .ok e q) : q.leafCount = p.leafCount + 1 ∧
      q.instructionCount = p.instructionCount ∧ q.hits = p.hits := by
  unfold alloc at h
  split at h
  · cases h
  · cases h
    simp [leafCount, instructionCount, push, Cell.isLeaf, Array.countP_push]

/-- An emission adds an instruction or counts as a hit. -/
theorem counts_of_emit {strict : Bool} {c : Op.Candidate} {shape : Value} {a b : Int}
    {p q : Program} {e : Emission} (h : emit digits strict c shape a b p = .ok e q) :
    q.leafCount = p.leafCount ∧
      q.instructionCount + q.hits = p.instructionCount + p.hits + 1 := by
  rcases emit_cases digits strict c shape a b p with ⟨e', he⟩ | ⟨i, -, ⟨id, -, he⟩ | ⟨-, he⟩⟩
  · rw [he] at h
    cases h
  · rcases hit_cases digits strict i id p with ⟨e', hhit⟩ | ⟨-, hhit⟩
    · rw [he, hhit] at h
      cases h
    · rw [he, hhit] at h
      cases h
      simp [leafCount, instructionCount, cells_addUsers, hits_addUsers, Nat.add_assoc]
  · by_cases hnamed : i.op.Named digits
    · rw [he, fresh_of_named hnamed] at h
      cases h
      simp [leafCount, instructionCount, cells_addUsers, hits_addUsers, addInstruction, push,
        Cell.isLeaf, Nat.add_right_comm]
    · obtain ⟨e', he'⟩ := fresh_of_unnamed hnamed p
      rw [he, he'] at h
      cases h

end TensorGraph.Program
