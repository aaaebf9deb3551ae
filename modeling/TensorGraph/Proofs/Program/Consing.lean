import TensorGraph.Proofs.Program.Run

/-!
# Value numbering over runs

Whatever calls are made on a new program, leaves and first emissions are handed the ids 1, 2, 3, …
in the order of the calls, and two emissions are granted one id exactly when they ask for the same.
What is stored under an id is what the first call that was granted it asked for, and it stays. An
emission whose operation has no name fails after it was handed its id, which no call is granted.
-/

namespace TensorGraph

/-- A leaf, or an instruction whose operation has a name. -/
def Cell.IsNamed (digits : Option Nat) : Cell → Prop
  | .leaf .. => True
  | .instruction i => i.op.Named digits

instance (digits : Option Nat) (c : Cell) : Decidable (c.IsNamed digits) := by
  unfold Cell.IsNamed
  split <;> infer_instance

namespace Program

end Program

/-! ### Keys of instructions -/

theorem Sources.eq_of_first_second {a b : Sources} (ha : ∀ s ∈ a.toList, 0 < s)
    (hb : ∀ s ∈ b.toList, 0 < s) (hfirst : a.first = b.first) (hsecond : a.second = b.second) :
    a = b := by
  cases a with
  | one x =>
    cases b with
    | one y => exact congrArg Sources.one hfirst
    | two y z => exact absurd hsecond (Nat.ne_of_lt (hb z (by simp [toList])))
  | two x w =>
    cases b with
    | one y => exact absurd hsecond.symm (Nat.ne_of_lt (ha w (by simp [toList])))
    | two y z =>
      rw [Sources.two.injEq]
      exact ⟨hfirst, hsecond⟩

namespace Program

/-- Instructions with integer parameters have one key when they are asked for by the same. -/
theorem key_eq_of_wanted_eq {i j : Instruction} (hi : i.op.integers?.isSome)
    (hpos : ∀ s ∈ i.sources.toList, 0 < s) (hpos' : ∀ s ∈ j.sources.toList, 0 < s)
    (h : i.wanted = j.wanted) : i.key = j.key := by
  obtain ⟨htag, hparameters, hfirst, hsecond⟩ := Wanted.mk.inj h
  obtain ⟨ns, hns⟩ := Option.isSome_iff_exists.mp hi
  have hop : i.op.signature = j.op.signature :=
    (Op.signature_eq_iff hns (hparameters ▸ hns)).mpr ⟨htag, rfl⟩
  have hsources : i.sources = j.sources :=
    Sources.eq_of_first_second hpos hpos' (Int.ofNat.inj hfirst) (Int.ofNat.inj hsecond)
  rw [Instruction.key, Instruction.key, hop, hsources]

theorem wanted_eq_of_key_eq {i j : Instruction} (hi : i.op.integers?.isSome)
    (hj : j.op.integers?.isSome) (h : i.key = j.key) : i.wanted = j.wanted := by
  obtain ⟨hop, hsources⟩ := Key.mk.inj h
  obtain ⟨ns, hns⟩ := Option.isSome_iff_exists.mp hi
  obtain ⟨ms, hms⟩ := Option.isSome_iff_exists.mp hj
  obtain ⟨htag, rfl⟩ := (Op.signature_eq_iff hns hms).mp hop
  rw [Instruction.wanted, Instruction.wanted, wanted, wanted, htag, hns, hms, hsources]

theorem Call.wanted?_of_describes {call : Call} {i : Instruction}
    (h : call.Describes (.instruction i)) : call.wanted? = some i.wanted := by
  cases call with
  | alloc shape zero => cases h
  | emit strict c shape a b =>
    obtain ⟨rfl, -, rfl, rfl⟩ := h
    rfl

theorem Call.integers?_of_describes {call : Call} {i : Instruction}
    (h : call.Describes (.instruction i)) (hcall : call.Integral) : i.op.integers?.isSome := by
  cases call with
  | alloc shape zero => cases h
  | emit strict c shape a b =>
    obtain ⟨rfl, -⟩ := h
    exact hcall

theorem Call.wanted?_of_describes_leaf {call : Call} {s : Shape} {z : Bool}
    (h : call.Describes (.leaf s z)) : call.wanted? = none := by
  cases call with
  | alloc shape zero => rfl
  | emit strict c shape a b => cases h

/-! ### What a run keeps -/

/-- The ids of leaves, and of instructions whose operations have names. -/
def named (digits : Option Nat) (p : Program) : List Nat :=
  (p.entries.filter fun e => e.2.IsNamed digits).map Prod.fst

/-- What holds of a record after every call. -/
structure Consed (digits : Option Nat) (r : Record) : Prop where
  sound : r.program.Sound
  newIds_eq : newIds r.grants = r.program.named digits
  integral : ∀ id i, r.program.cell? id = some (.instruction i) → i.op.integers?.isSome
  /-- An emission is granted the instruction that it asks for. -/
  cell : ∀ g ∈ r.grants, ∀ k ∈ g.call.wanted?,
    ∃ i, r.program.cell? g.id = some (.instruction i) ∧ i.wanted = k
  granted : ∀ id i, r.program.cell? id = some (.instruction i) → i.op.Named digits →
    ∃ g ∈ r.grants, g.id = id ∧ g.call.wanted? = some i.wanted
  /-- What was new is stored as it was asked for. -/
  stored : ∀ later g earlier, r.grants = later ++ g :: earlier → g.IsNew earlier →
    ∃ c, r.program.cell? g.id = some c ∧ g.call.Describes c

theorem consed_empty (digits : Option Nat) : Consed digits {} where
  sound := sound_empty
  newIds_eq := rfl
  integral id i h := by simp [cell?] at h
  cell g hg := by cases hg
  granted id i h := by simp [cell?] at h
  stored later g earlier h := by simp at h

namespace Consed

variable {digits : Option Nat} {p q : Program} {grants : List Grant} {g : Grant} {i : Instruction}

theorem named_congr (h : q.cells = p.cells) : q.named digits = p.named digits := by
  rw [named, named, entries_congr h]

/-- Only the cells and the known keys matter. -/
theorem of_same (h : Consed digits ⟨p, grants⟩) (hcells : q.cells = p.cells)
    (hknown : q.known = p.known) : Consed digits ⟨q, grants⟩ := by
  have hcell : ∀ id, q.cell? id = p.cell? id := cell?_congr hcells
  constructor
  · exact (grows_of_same hcells hknown).2 h.sound
  · exact h.newIds_eq.trans (named_congr hcells).symm
  · simpa only [hcell] using h.integral
  · simpa only [hcell] using h.cell
  · simpa only [hcell] using h.granted
  · simpa only [hcell] using h.stored

theorem cell?_of_push {c : Cell} (hcells : q.cells = p.cells.push c) (id : Nat) :
    q.cell? id = if id = p.size + 1 then some c else p.cell? id := by
  have hsame := cell?_congr (p := p.push c) (q := q) hcells id
  rw [hsame, cell?_push]

theorem cell?_keep {c d : Cell} (hcells : q.cells = p.cells.push c) {id : Nat}
    (hd : p.cell? id = some d) : q.cell? id = some d := by
  have hle := (le_size_of_cell? hd).2
  rw [cell?_of_push hcells, if_neg (by omega), hd]

theorem named_of_push {c : Cell} (hcells : q.cells = p.cells.push c) :
    q.named digits = p.named digits ++
      if c.IsNamed digits then [p.size + 1] else [] := by
  have hentries : q.entries = (p.push c).entries := entries_congr hcells
  rw [named, hentries, entries_push, List.filter_append, List.map_append, ← named]
  split <;> simp [*]

/-- What asks for something new gets the next id, under which it is stored. -/
theorem add (h : Consed digits ⟨p, grants⟩) {c : Cell} (hq : q.Sound)
    (hcells : q.cells = p.cells.push c) (hid : g.id = p.size + 1) (hnew : g.IsNew grants)
    (hcall : g.call.Integral) (hdescribes : g.call.Describes c)
    (hnamed : c.IsNamed digits) : Consed digits ⟨q, g :: grants⟩ := by
  have hcell := cell?_of_push hcells
  have hold : ∀ id d, p.cell? id = some d → q.cell? id = some d := fun _ _ hd =>
    cell?_keep hcells hd
  constructor
  case sound => exact hq
  case newIds_eq =>
    have hids : newIds grants = p.named digits := h.newIds_eq
    rw [newIds, if_pos hnew, hids, hid, named_of_push hcells, if_pos hnamed]
  case integral =>
    intro id i hi
    rw [hcell] at hi
    split at hi
    · cases hi
      exact Call.integers?_of_describes hdescribes hcall
    · exact h.integral id i hi
  case cell =>
    intro g' hg' k hk
    rcases List.mem_cons.mp hg' with rfl | hg'
    · cases c with
      | leaf s z =>
        rw [Call.wanted?_of_describes_leaf hdescribes] at hk
        cases hk
      | instruction i =>
        refine ⟨i, by rw [hcell, if_pos hid], ?_⟩
        exact Option.some.inj ((Call.wanted?_of_describes hdescribes).symm.trans hk)
    · obtain ⟨i, hi, hik⟩ := h.cell g' hg' k hk
      exact ⟨i, hold _ _ hi, hik⟩
  case granted =>
    intro id i hi hname
    rw [hcell] at hi
    split at hi
    · rename_i hnext
      cases hi
      exact ⟨g, List.mem_cons_self .., by rw [hid, hnext], Call.wanted?_of_describes hdescribes⟩
    · obtain ⟨g', hg', hgrant⟩ := h.granted id i hi hname
      exact ⟨g', List.mem_cons_of_mem g hg', hgrant⟩
  case stored =>
    intro later g' earlier hsplit hnew'
    cases later with
    | nil =>
      obtain ⟨rfl, rfl⟩ := List.cons.inj hsplit
      exact ⟨c, by rw [hcell, if_pos hid], hdescribes⟩
    | cons x later =>
      obtain ⟨c', hc', hdescribes'⟩ := h.stored later g' earlier (List.cons.inj hsplit).2 hnew'
      exact ⟨c', hold _ _ hc', hdescribes'⟩

/-- An instruction without a name takes the next id, and no call is granted it. -/
theorem withhold (h : Consed digits ⟨p, grants⟩) (hq : q.Sound)
    (hcells : q.cells = p.cells.push (.instruction i)) (hi : i.op.integers?.isSome)
    (hunnamed : ¬i.op.Named digits) : Consed digits ⟨q, grants⟩ := by
  have hcell := cell?_of_push hcells
  have hold : ∀ id d, p.cell? id = some d → q.cell? id = some d := fun _ _ hd =>
    cell?_keep hcells hd
  constructor
  case sound => exact hq
  case newIds_eq =>
    have hids : newIds grants = p.named digits := h.newIds_eq
    have hwithheld : ¬(Cell.instruction i).IsNamed digits := hunnamed
    rw [hids, named_of_push hcells, if_neg hwithheld, List.append_nil]
  case integral =>
    intro id j hj
    rw [hcell] at hj
    split at hj
    · cases hj
      exact hi
    · exact h.integral id j hj
  case cell =>
    intro g hg k hk
    obtain ⟨j, hj, hwanted⟩ := h.cell g hg k hk
    exact ⟨j, hold _ _ hj, hwanted⟩
  case granted =>
    intro id j hj hname
    rw [hcell] at hj
    split at hj
    · cases hj
      exact absurd hname hunnamed
    · exact h.granted id j hj hname
  case stored =>
    intro later g earlier hsplit hnew
    obtain ⟨c, hc, hdescribes⟩ := h.stored later g earlier hsplit hnew
    exact ⟨c, hold _ _ hc, hdescribes⟩

/-- What asks for an instruction that is there gets its id. -/
theorem find (h : Consed digits ⟨p, grants⟩) {j : Instruction}
    (hj : p.cell? g.id = some (.instruction j)) (hname : j.op.Named digits)
    (hwanted : g.call.wanted? = some j.wanted) : Consed digits ⟨p, g :: grants⟩ := by
  have hseen : ¬g.IsNew grants := by
    intro hnew
    obtain ⟨g', hg', -, hk⟩ := h.granted _ _ hj hname
    exact hnew _ hwanted g' hg' hk
  refine ⟨h.sound, ?_, h.integral, ?_, ?_, ?_⟩
  · rw [newIds, if_neg hseen, List.append_nil]
    exact h.newIds_eq
  · intro g' hg' k hk
    rcases List.mem_cons.mp hg' with rfl | hg'
    · exact ⟨j, hj, Option.some.inj (hwanted.symm.trans hk)⟩
    · exact h.cell g' hg' k hk
  · intro id i hi hname
    obtain ⟨g', hg', hgrant⟩ := h.granted id i hi hname
    exact ⟨g', List.mem_cons_of_mem g hg', hgrant⟩
  · intro later g' earlier hsplit hnew
    cases later with
    | nil =>
      obtain ⟨rfl, rfl⟩ := List.cons.inj hsplit
      exact absurd hnew hseen
    | cons x later => exact h.stored later g' earlier (List.cons.inj hsplit).2 hnew

theorem source_pos (h : Consed digits ⟨p, grants⟩) {id : Nat}
    (hi : p.cell? id = some (.instruction i)) :
    ∀ s ∈ i.sources.toList, 0 < s := fun s hs => (h.sound.source_lt id i hi s hs).1

/-- No emission was granted an instruction that is not found. -/
theorem isNew_of_unknown (h : Consed digits ⟨p, grants⟩) (hcall : g.call.Integral)
    (hdescribes : g.call.Describes (.instruction i)) (hsources : ∀ s ∈ i.sources.toList, 0 < s)
    (hfind : p.find? i = none) : g.IsNew grants := by
  intro k hk g' hg' hk'
  have hintegral := Call.integers?_of_describes hdescribes hcall
  obtain ⟨ns, hns⟩ := Option.isSome_iff_exists.mp hintegral
  rw [Call.wanted?_of_describes hdescribes] at hk
  cases hk
  obtain ⟨j, hj, hwanted⟩ := h.cell g' hg' _ hk'
  have hkey := key_eq_of_wanted_eq hintegral hsources (h.source_pos hj) hwanted.symm
  have hdefined : i.op.isUndefined = false := Op.isUndefined_of_integers hns
  have hknown := h.sound.key_known _ j hj (isUndefined_of_key hkey ▸ hdefined)
  rw [find?, hdefined, hkey, hknown] at hfind
  cases hfind

/-- One call keeps a record consed. -/
theorem after {r : Record} (h : Consed digits r) {call : Call} (hcall : call.Integral) :
    Consed digits (r.after digits call) := by
  obtain ⟨p, grants⟩ := r
  cases outcome digits p call with
  | refused e hits hrun =>
    rw [Record.after, hrun]
    exact h.of_same rfl rfl
  | leaf s z hdescribes hrun =>
    rw [Record.after, hrun]
    refine h.add (h.sound.push_leaf s z) rfl rfl ?_ hcall hdescribes trivial
    intro k hk
    rw [Call.wanted?_of_describes_leaf hdescribes] at hk
    cases hk
  | fresh i hdescribes hsources hunknown hnamed hrun =>
    have hsound := h.sound.push_instruction hsources hunknown
    have hnew := h.isNew_of_unknown (g := ⟨call, p.size + 1⟩) hcall hdescribes
      (fun s hs => (hsources s hs).1) hunknown
    rw [Record.after, hrun]
    have hadded : Consed digits ⟨p.addInstruction i, ⟨call, p.size + 1⟩ :: grants⟩ :=
      h.add hsound rfl rfl hnew hcall hdescribes hnamed
    exact hadded.of_same (cells_addUsers _ _ _) (known_addUsers _ _ _)
  | unnamed e i hdescribes hsources hunknown hunnamed hrun =>
    rw [Record.after, hrun]
    exact h.withhold (h.sound.push_instruction hsources hunknown) rfl
      (Call.integers?_of_describes hdescribes hcall) hunnamed
  | hit i id hdescribes hknown hnamed hrun =>
    obtain ⟨j, hj, hkey⟩ := find?_ok h.sound hknown
    have hwanted : i.wanted = j.wanted :=
      wanted_eq_of_key_eq (Call.integers?_of_describes hdescribes hcall) (h.integral id j hj)
        hkey.symm
    have hname : j.op.Named digits := (Op.named_congr (congrArg Key.signature hkey)).mpr hnamed
    rw [Record.after, hrun]
    have hgranted : Consed digits ⟨p, ⟨call, id⟩ :: grants⟩ :=
      h.find hj hname (hwanted ▸ Call.wanted?_of_describes hdescribes)
    exact hgranted.of_same (cells_addUsers _ _ _) (known_addUsers _ _ _)

end Consed

theorem run_consed (digits : Option Nat) {calls : List Call} (h : ∀ call ∈ calls, call.Integral) :
    Consed digits (run digits calls) :=
  run_induction (consed_empty digits) fun call hcall _ hr => hr.after (h call hcall)

/-! ### Value numbering -/

variable {digits : Option Nat}

theorem mem_leaves {p : Program} {id : Nat} {s : Shape} {z : Bool} :
    (id, s, z) ∈ p.leaves ↔ p.cell? id = some (.leaf s z) := by
  simp only [leaves]
  rw [List.mem_filterMap]
  constructor
  · rintro ⟨⟨id', c⟩, hmem, hc⟩
    cases c with
    | instruction i => cases hc
    | leaf s' z' =>
      cases hc
      exact mem_entries.mp hmem
  · intro h
    exact ⟨(id, .leaf s z), mem_entries.mpr h, rfl⟩

namespace Consed

variable {digits : Option Nat} {r : Record}

/-- No two instructions are asked for by the same. -/
theorem id_unique (h : Consed digits r) {id id' : Nat} {i j : Instruction}
    (hi : r.program.cell? id = some (.instruction i))
    (hj : r.program.cell? id' = some (.instruction j)) (hwanted : i.wanted = j.wanted) :
    id = id' := by
  have hintegral := h.integral id i hi
  obtain ⟨ns, hns⟩ := Option.isSome_iff_exists.mp hintegral
  have hkey : i.key = j.key :=
    key_eq_of_wanted_eq hintegral (h.source_pos hi) (h.source_pos hj) hwanted
  have hdefined : i.op.isUndefined = false := Op.isUndefined_of_integers hns
  have hknown := h.sound.key_known id i hi hdefined
  have hknown' := h.sound.key_known id' j hj (isUndefined_of_key hkey ▸ hdefined)
  rw [← hkey, hknown] at hknown'
  exact Option.some.inj hknown'

theorem unique (h : Consed digits r) {g : Grant} (hg : g ∈ r.grants) {k : Wanted}
    (hk : k ∈ g.call.wanted?) :
    ∃ i, ∀ entry, entry ∈ r.program.schedule ∧ entry.2.wanted = k ↔ entry = (g.id, i) := by
  obtain ⟨i, hi, rfl⟩ := h.cell g hg k hk
  refine ⟨i, ?_⟩
  rintro ⟨id, j⟩
  constructor
  · rintro ⟨hmem, hwanted⟩
    have hj := mem_schedule.mp hmem
    obtain rfl := h.id_unique hj hi hwanted
    rw [hi] at hj
    cases hj
    rfl
  · rintro ⟨rfl, rfl⟩
    exact ⟨mem_schedule.mpr hi, rfl⟩

end Consed

end Program

end TensorGraph
