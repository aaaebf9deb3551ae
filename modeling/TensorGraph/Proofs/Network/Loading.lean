import Mathlib.Logic.Function.Basic
import TensorGraph.Network.Loading
import TensorGraph.Proofs.Outcome
import TensorGraph.Proofs.Table

/-!
# Loading entries

Entries are loaded one after the other until one cannot be. What was loaded before stays: a buffer
holds what the last entry loaded into it brought, and all other buffers are as they were. An entry
under the name of no parameter is passed over, unless loading is strict.
-/

namespace TensorGraph.Buffers

/-! ### Contents -/

/-- Data written into a buffer make another one of it. -/
def Fills (b : Buffer) (d : Data) (b' : Buffer) : Prop :=
  b.backend = .host ∧ ∃ t, Tensor.ofData d = .ok t ∧ t.shape = b.shape ∧
    b' = { b with contents := .elements t.elements }

theorem Fills.unique {b b₁ b₂ : Buffer} {d : Data} (h₁ : Fills b d b₁) (h₂ : Fills b d b₂) :
    b₁ = b₂ := by
  obtain ⟨-, t₁, ht₁, -, rfl⟩ := h₁
  obtain ⟨-, t₂, ht₂, -, rfl⟩ := h₂
  rw [ht₁] at ht₂
  cases ht₂
  rfl

/-- What was written last into a buffer. -/
def lastInto (uploads : List (Nat × Data)) (id : Nat) : Option Data :=
  (uploads.reverse.find? fun u => u.1 == id).map Prod.snd

/-- Buffers after uploads hold what was written last into each, and are the same otherwise. -/
def Holding (bufs bufs' : Buffers) (uploads : List (Nat × Data)) : Prop :=
  ∀ id, match lastInto uploads id with
    | none => Table.get? bufs' id = Table.get? bufs id
    | some d => ∃ b b', Table.get? bufs id = some b ∧ Fills b d b' ∧ Table.get? bufs' id = some b'

theorem write_eq_ok {b b' : Buffer} {t : Tensor} :
    b.write t = .ok b' ↔
      b.backend = .host ∧ t.shape = b.shape ∧ b' = { b with contents := .elements t.elements } := by
  cases hb : b.backend with
  | abstract => simp [Buffer.write, hb]
  | host =>
    by_cases hs : t.shape = b.shape
    · simp [Buffer.write, hb, hs, eq_comm]
    · simp [Buffer.write, hb, hs]

/-- What loading data into a buffer does. -/
theorem loadInto_cases (bufs : Buffers) (id : Nat) (d : Data) :
    (Table.get? bufs id = none ∧ bufs.loadInto id d = .error (.missingBuffer id)) ∨
    ∃ b, Table.get? bufs id = some b ∧
      ((∃ e, (Tensor.ofData d = .error e ∨ ∃ t, Tensor.ofData d = .ok t ∧ b.write t = .error e) ∧
        bufs.loadInto id d = .error e) ∨
      ∃ b', Fills b d b' ∧ bufs.loadInto id d = .ok (Table.insert bufs id b')) := by
  cases hb : Table.get? bufs id with
  | none =>
    have hget : bufs.getBuffer id = .error (.missingBuffer id) := by simp [getBuffer, hb]
    exact .inl ⟨rfl, by simp only [loadInto, hget, bind, Except.bind]⟩
  | some b =>
    have hget : bufs.getBuffer id = .ok b := by simp [getBuffer, hb]
    refine .inr ⟨b, rfl, ?_⟩
    cases ht : Tensor.ofData d with
    | error e => exact .inl ⟨e, .inl rfl, by simp only [loadInto, hget, ht, bind, Except.bind]⟩
    | ok t =>
      cases hw : b.write t with
      | error e =>
        refine .inl ⟨e, .inr ⟨t, rfl, hw⟩, ?_⟩
        simp only [loadInto, hget, ht, hw, bind, Except.bind]
      | ok b' =>
        obtain ⟨hhost, hshape, rfl⟩ := write_eq_ok.mp hw
        refine .inr ⟨_, ⟨hhost, t, ht, hshape, rfl⟩, ?_⟩
        simp only [loadInto, hget, ht, hw, bind, Except.bind]
        rfl

theorem holding_nil (bufs : Buffers) : Holding bufs bufs [] := fun _ => rfl

/-- One more upload. -/
theorem Holding.concat {bufs bufs' : Buffers} {uploads : List (Nat × Data)}
    (h : Holding bufs bufs' uploads) {id : Nat} {d : Data} {b b' : Buffer}
    (hb : Table.get? bufs' id = some b) (hfills : Fills b d b') :
    Holding bufs (Table.insert bufs' id b') (uploads ++ [(id, d)]) := by
  intro id'
  have hlast : lastInto (uploads ++ [(id, d)]) id' =
      if id == id' then some d else lastInto uploads id' := by
    rw [lastInto, List.reverse_append, List.reverse_singleton, List.singleton_append,
      List.find?_cons]
    cases id == id' <;> rfl
  rw [hlast, Table.get?_insert]
  by_cases hid : id = id'
  · subst hid
    have hold := h id
    simp only [beq_self_eq_true, if_true]
    obtain ⟨hhost, t, ht, hshape, rfl⟩ := hfills
    cases hl : lastInto uploads id with
    | none =>
      rw [hl] at hold
      exact ⟨b, _, hold ▸ hb, ⟨hhost, t, ht, hshape, rfl⟩, rfl⟩
    | some d' =>
      -- what was written before is written over
      rw [hl] at hold
      obtain ⟨b₀, b₁, hb₀, ⟨-, t', -, -, rfl⟩, hb₁⟩ := hold
      rw [hb] at hb₁
      cases hb₁
      exact ⟨b₀, _, hb₀, ⟨hhost, t, ht, hshape, rfl⟩, rfl⟩
  · have hne : (id == id') = false := by simp [hid]
    simp only [hne, Bool.false_eq_true, if_false]
    exact h id'

theorem Holding.loadInto {bufs bufs₁ bufs₂ : Buffers} {uploads : List (Nat × Data)}
    (h : Holding bufs bufs₁ uploads) {id : Nat} {d : Data}
    (hload : bufs₁.loadInto id d = .ok bufs₂) : Holding bufs bufs₂ (uploads ++ [(id, d)]) := by
  rcases loadInto_cases bufs₁ id d with
    ⟨-, hrun⟩ | ⟨b, hb, ⟨e, -, hrun⟩ | ⟨b', hfills, hrun⟩⟩
  · rw [hrun] at hload
    cases hload
  · rw [hrun] at hload
    cases hload
  · rw [hrun] at hload
    cases hload
    exact h.concat hb hfills

/-! ### Entries -/

/-- The uploads that entries stand for, by the buffers for their names. -/
def uploads {κ : Type} (place : κ → Option (Option Nat)) (entries : List (κ × Data)) :
    List (Nat × Data) :=
  entries.filterMap fun entry => (place entry.1).join.map fun id => (id, entry.2)

/-- The first entries were loaded after uploads made before. They are all entries unless loading
failed. -/
def LoadsBefore {κ : Type} (place : κ → Option (Option Nat)) (before : List (Nat × Data))
    (entries : List (κ × Data)) (bufs bufs' : Buffers) (outcome : Except Error Unit) : Prop :=
  ∃ done rest, entries = done ++ rest ∧ Holding bufs bufs' (before ++ uploads place done) ∧
    (outcome = .ok () → rest = [])

section Prefix

variable {κ : Type} {place : κ → Option (Option Nat)} {before : List (Nat × Data)}
  {entries : List (κ × Data)} {bufs bufs' : Buffers} {outcome : Except Error Unit}

/-- Nothing was loaded when the first entry failed. -/
theorem loadsBefore_error (h : Holding bufs bufs' before) (e : Error) :
    LoadsBefore place before entries bufs bufs' (.error e) :=
  ⟨[], entries, rfl, by simpa [uploads] using h, nofun⟩

/-- An entry with a name of its own does not change the buffers of the others. -/
theorem uploads_cons_update [DecidableEq κ] {key : κ} (hkey : key ∉ entries.map Prod.fst) (d : Data)
    (id : Option Nat) :
    uploads (Function.update place key (id.map some)) ((key, d) :: entries) =
      (id.map fun id => (id, d)).toList ++ uploads place entries := by
  have hrest : uploads (Function.update place key (id.map some)) entries =
      uploads place entries := by
    refine List.filterMap_congr fun entry hentry => ?_
    have hne : entry.1 ≠ key := fun heq => hkey (heq ▸ List.mem_map_of_mem hentry)
    rw [Function.update_of_ne hne]
  rw [uploads, List.filterMap_cons, ← uploads, hrest]
  cases id <;> simp

theorem LoadsBefore.cons [DecidableEq κ] {key : κ} {d : Data} {id : Option Nat}
    (hkey : key ∉ entries.map Prod.fst)
    (h : LoadsBefore place (before ++ (id.map fun id => (id, d)).toList) entries bufs bufs'
      outcome) :
    LoadsBefore (Function.update place key (id.map some)) before ((key, d) :: entries) bufs bufs'
      outcome := by
  obtain ⟨done, rest, rfl, holding, hall⟩ := h
  refine ⟨(key, d) :: done, rest, rfl, ?_, hall⟩
  rw [List.map_append, List.mem_append, not_or] at hkey
  rw [uploads_cons_update hkey.1, ← List.append_assoc]
  exact holding

/-- Where all entries were loaded, loading may still fail. -/
theorem LoadsBefore.of_ok (h : LoadsBefore place before entries bufs bufs' (.ok ()))
    (outcome : Except Error Unit) : LoadsBefore place before entries bufs bufs' outcome := by
  obtain ⟨done, rest, hsplit, holding, hall⟩ := h
  exact ⟨done, rest, hsplit, holding, fun _ => hall rfl⟩

theorem LoadsBefore.map {ι : Type} {g : κ → ι}
    (h : LoadsBefore place before entries bufs bufs' outcome) {place' : ι → Option (Option Nat)}
    (hplace : ∀ key, place' (g key) = place key) :
    LoadsBefore place' before (entries.map fun entry => (g entry.1, entry.2)) bufs bufs'
      outcome := by
  obtain ⟨done, rest, rfl, holding, hall⟩ := h
  refine ⟨done.map fun entry => (g entry.1, entry.2), rest.map fun entry => (g entry.1, entry.2),
    List.map_append, ?_, fun hok => by rw [hall hok, List.map_nil]⟩
  simpa [uploads, List.filterMap_map, Function.comp_def, hplace] using holding

end Prefix

section Entries

-- the buffer for a name: none for the name of no parameter, and none yet for a parameter that was
-- not evaluated
variable (place : String → Option (Option Nat)) (strict : Bool)

/-- Why an entry cannot be loaded. -/
inductive Fault (bufs : Buffers) (entry : String × Data) : Error → Prop
  | unexpected (noParameter : place entry.1 = none) (isStrict : strict = true) :
      Fault bufs entry (.unexpectedKey entry.1)
  | notEvaluated (noBuffer : place entry.1 = some none) : Fault bufs entry (.notEvaluated entry.1)
  | missingBuffer {id : Nat} (buffer : place entry.1 = some (some id))
      (missing : Table.get? bufs id = none) : Fault bufs entry (.missingBuffer id)
  | notData {id : Nat} {b : Buffer} {e : Error} (buffer : place entry.1 = some (some id))
      (found : Table.get? bufs id = some b) (data : Tensor.ofData entry.2 = .error e) :
      Fault bufs entry e
  | notWritten {id : Nat} {b : Buffer} {t : Tensor} {e : Error}
      (buffer : place entry.1 = some (some id)) (found : Table.get? bufs id = some b)
      (data : Tensor.ofData entry.2 = .ok t) (write : b.write t = .error e) : Fault bufs entry e

/-- An entry is passed over, or there is a buffer for it. -/
def Passes (entry : String × Data) : Prop :=
  place entry.1 = none ∧ strict = false ∨ ∃ id, place entry.1 = some (some id)

/-- Entries are loaded up to the first one that fails, after uploads made before. -/
inductive LoadsUpTo (bufs : Buffers) (before : List (Nat × Data)) (entries : List (String × Data)) :
    EStateM.Result Error Buffers Unit → Prop
  | all {bufs' : Buffers} (passed : ∀ entry ∈ entries, Passes place strict entry)
      (holding : Holding bufs bufs' (before ++ uploads place entries)) :
      LoadsUpTo bufs before entries (.ok () bufs')
  | stopped {bufs' : Buffers} {e : Error} (done : List (String × Data)) (entry : String × Data)
      (rest : List (String × Data)) (split : entries = done ++ entry :: rest)
      (passed : ∀ entry ∈ done, Passes place strict entry)
      (holding : Holding bufs bufs' (before ++ uploads place done))
      (fault : Fault place strict bufs' entry e) : LoadsUpTo bufs before entries (.error e bufs')

/-- How loading ends: the entries that were loaded, the outcome and the buffers. -/
inductive Loads (entries : List (String × Data)) (bufs bufs' : Buffers) :
    List (String × Data) → Except Error Unit → Prop
  | complete (passed : ∀ entry ∈ entries, Passes place strict entry)
      (holding : Holding bufs bufs' (uploads place entries))
      (given : strict = true → ∀ key, place key ≠ none → key ∈ entries.map Prod.fst) :
      Loads entries bufs bufs' entries (.ok ())
  /-- An entry cannot be loaded. The entries before it were, and nothing else happened. -/
  | stopped {e : Error} (done : List (String × Data)) (entry : String × Data)
      (rest : List (String × Data)) (split : entries = done ++ entry :: rest)
      (passed : ∀ entry ∈ done, Passes place strict entry)
      (holding : Holding bufs bufs' (uploads place done))
      (fault : Fault place strict bufs' entry e) : Loads entries bufs bufs' done (.error e)
  /-- All entries were loaded, but some parameters have none. -/
  | incomplete {missing : List String} (passed : ∀ entry ∈ entries, Passes place strict entry)
      (holding : Holding bufs bufs' (uploads place entries)) (isStrict : strict = true)
      (some_missing : missing ≠ [])
      (missing_iff : ∀ key, key ∈ missing ↔ place key ≠ none ∧ key ∉ entries.map Prod.fst) :
      Loads entries bufs bufs' entries (.error (.missingKeys missing))

variable {place strict}

theorem LoadsUpTo.cons {bufs : Buffers} {before : List (Nat × Data)} {entry : String × Data}
    {entries : List (String × Data)} {result : EStateM.Result Error Buffers Unit}
    (hpass : Passes place strict entry)
    (h : LoadsUpTo place strict bufs (before ++ uploads place [entry]) entries result) :
    LoadsUpTo place strict bufs before (entry :: entries) result := by
  have huploads : ∀ entries, uploads place (entry :: entries) =
      uploads place [entry] ++ uploads place entries := fun entries =>
    List.filterMap_append (l := [entry])
  cases h with
  | all passed holding =>
    rw [List.append_assoc, ← huploads] at holding
    exact .all (List.forall_mem_cons.mpr ⟨hpass, passed⟩) holding
  | stopped done fails rest split passed holding fault =>
    rw [List.append_assoc, ← huploads] at holding
    exact .stopped (entry :: done) fails rest (by rw [split, List.cons_append])
      (List.forall_mem_cons.mpr ⟨hpass, passed⟩) holding fault

/-- However loading ends, it was entries from the first on that were loaded. -/
theorem Loads.before {entries done : List (String × Data)} {bufs bufs' : Buffers}
    {outcome : Except Error Unit} (h : Loads place strict entries bufs bufs' done outcome) :
    LoadsBefore place [] entries bufs bufs' outcome := by
  cases h with
  | complete passed holding given =>
    exact ⟨entries, [], (List.append_nil _).symm, holding, fun _ => rfl⟩
  | stopped _ entry rest split passed holding fault =>
    exact ⟨done, entry :: rest, split, holding, nofun⟩
  | incomplete passed holding isStrict some_missing missing_iff =>
    exact ⟨entries, [], (List.append_nil _).symm, holding, fun _ => rfl⟩

theorem Loads.passed {entries done : List (String × Data)} {bufs bufs' : Buffers}
    {outcome : Except Error Unit} (h : Loads place strict entries bufs bufs' done outcome) :
    ∀ entry ∈ done, Passes place strict entry := by
  cases h with
  | complete passed => exact passed
  | stopped _ _ _ _ passed => exact passed
  | incomplete passed => exact passed

/-- An entry does not fail where its buffer takes its data. -/
theorem not_fault {bufs : Buffers} {entry : String × Data} {id : Nat} {b b' : Buffer}
    (hplace : place entry.1 = some (some id)) (hb : Table.get? bufs id = some b)
    (hfills : Fills b entry.2 b') (e : Error) : ¬Fault place strict bufs entry e := by
  obtain ⟨hhost, t, ht, hshape, rfl⟩ := hfills
  have hwrite := write_eq_ok.mpr ⟨hhost, hshape, rfl⟩
  intro h
  cases h with
  | unexpected noParameter isStrict => simp [hplace] at noParameter
  | notEvaluated noBuffer => simp [hplace] at noBuffer
  | missingBuffer buffer missing =>
    obtain rfl : id = _ := by simpa [hplace] using buffer
    rw [hb] at missing
    cases missing
  | notData buffer found data =>
    rw [ht] at data
    cases data
  | notWritten buffer found data write =>
    obtain rfl : id = _ := by simpa [hplace] using buffer
    rw [hb] at found
    rw [ht] at data
    cases found
    cases data
    rw [hwrite] at write
    cases write

/-- A single entry is loaded where its buffer takes its data. Then loading fails only where it is
strict and another parameter is there. -/
theorem Loads.taken {entry : String × Data} {done : List (String × Data)} {bufs bufs' : Buffers}
    {outcome : Except Error Unit} (h : Loads place strict [entry] bufs bufs' done outcome)
    {id : Nat} {b b' : Buffer}
    (hplace : place entry.1 = some (some id)) (hb : Table.get? bufs id = some b)
    (hfills : Fills b entry.2 b') :
    Table.get? bufs' id = some b' ∧
      (outcome = .ok () ↔ (strict = true → ∀ key, place key ≠ none → key = entry.1)) := by
  have hall : Holding bufs bufs' (uploads place [entry]) → Table.get? bufs' id = some b' := by
    intro holding
    have hlast : lastInto (uploads place [entry]) id = some entry.2 := by
      simp [uploads, hplace, lastInto]
    have hid := holding id
    rw [hlast] at hid
    obtain ⟨b₀, b₁, hb₀, hfills₀, hb₁⟩ := hid
    rw [hb] at hb₀
    cases hb₀
    rw [hb₁, hfills.unique hfills₀]
  cases h with
  | complete passed holding given =>
    refine ⟨hall holding, iff_of_true rfl fun hstrict key hkey => ?_⟩
    simpa using given hstrict key hkey
  | @incomplete missing passed holding isStrict some_missing missing_iff =>
    refine ⟨hall holding, iff_of_false (by simp) fun honly => ?_⟩
    obtain ⟨key, hkey⟩ := List.exists_mem_of_ne_nil missing some_missing
    obtain ⟨hparam, hnew⟩ := (missing_iff key).mp hkey
    exact hnew (by simpa using honly isStrict key hparam)
  | @stopped e _ fails rest split passed holding fault =>
    exfalso
    cases done with
    | nil =>
      cases split
      have hsame : Table.get? bufs' id = Table.get? bufs id := holding id
      exact not_fault hplace (hsame.trans hb) hfills e fault
    | cons other done => simp at split

end Entries

/-- The buffer for a name, where parameters are known by their numbers. -/
def placeOf (params : Table String Int) (values : Std.HashMap Int Nat) (key : String) :
    Option (Option Nat) :=
  (params.get? key).map fun node => values[node]?

variable (params : Table String Int) (values : Std.HashMap Int Nat) (strict : Bool)

/-- What loading an entry does: it is passed over, it is written into its buffer, or it fails. -/
theorem loadEntry_cases (entry : String × Data) (bufs : Buffers) :
    (placeOf params values entry.1 = none ∧ strict = false ∧
      loadEntry params values strict entry bufs = .ok () bufs) ∨
    (∃ id b b', placeOf params values entry.1 = some (some id) ∧ Table.get? bufs id = some b ∧
      Fills b entry.2 b' ∧
      loadEntry params values strict entry bufs = .ok () (Table.insert bufs id b')) ∨
    ∃ e, Fault (placeOf params values) strict bufs entry e ∧
      loadEntry params values strict entry bufs = .error e bufs := by
  cases hnode : params.get? entry.1 with
  | none =>
    have hplace : placeOf params values entry.1 = none := by simp [placeOf, hnode]
    cases strict with
    | false => exact .inl ⟨hplace, rfl, by simp [loadEntry, hnode]⟩
    | true => exact .inr (.inr ⟨_, .unexpected hplace rfl, by simp [loadEntry, hnode]⟩)
  | some node =>
    cases hid : values[node]? with
    | none =>
      have hplace : placeOf params values entry.1 = some none := by simp [placeOf, hnode, hid]
      refine .inr (.inr ⟨_, .notEvaluated hplace, ?_⟩)
      simp [loadEntry, bufferOf, hnode, hid, bind, Except.bind]
    | some id =>
      have hplace : placeOf params values entry.1 = some (some id) := by simp [placeOf, hnode, hid]
      have hstop : ∀ {e}, bufs.loadInto id entry.2 = .error e →
          loadEntry params values strict entry bufs = .error e bufs := by
        intro e hload
        simp only [loadEntry, bufferOf, hnode, hid, bind, Except.bind, hload]
      have hgo : ∀ {bufs'}, bufs.loadInto id entry.2 = .ok bufs' →
          loadEntry params values strict entry bufs = .ok () bufs' := by
        intro bufs' hload
        simp only [loadEntry, bufferOf, hnode, hid, bind, Except.bind, hload]
      rcases loadInto_cases bufs id entry.2 with ⟨hb, hload⟩ | ⟨b, hb, hload⟩
      · exact .inr (.inr ⟨_, .missingBuffer hplace hb, hstop hload⟩)
      · rcases hload with ⟨e, hdata | ⟨t, ht, hw⟩, hload⟩ | ⟨b', hfills, hload⟩
        · exact .inr (.inr ⟨e, .notData hplace hb hdata, hstop hload⟩)
        · exact .inr (.inr ⟨e, .notWritten hplace hb ht hw, hstop hload⟩)
        · exact .inr (.inl ⟨id, b, b', hplace, hb, hfills, hgo hload⟩)

theorem loadEntries_cases (entries : List (String × Data)) {bufs₀ bufs : Buffers}
    {before : List (Nat × Data)} (hbefore : Holding bufs₀ bufs before) :
    LoadsUpTo (placeOf params values) strict bufs₀ before entries
      (entries.forM (loadEntry params values strict) bufs) := by
  induction entries generalizing bufs before with
  | nil => exact .all (by simp) (by simpa [uploads] using hbefore)
  | cons entry entries ih =>
    rcases loadEntry_cases params values strict entry bufs with
      ⟨hplace, hstrict, hrun⟩ | ⟨id, b, b', hplace, hb, hfills, hrun⟩ | ⟨e, hfault, hrun⟩
    · rw [forM_cons_of_ok hrun]
      refine .cons (.inl ⟨hplace, hstrict⟩) (ih ?_)
      simpa [uploads, hplace] using hbefore
    · rw [forM_cons_of_ok hrun]
      refine .cons (.inr ⟨id, hplace⟩) (ih ?_)
      simpa [uploads, hplace] using hbefore.concat hb hfills
    · rw [forM_cons_of_error hrun]
      exact .stopped [] entry entries rfl (by simp) (by simpa [uploads] using hbefore) hfault

theorem mem_missingKeys (rows : List (String × Int)) (entries : List (String × Data))
    (key : String) :
    key ∈ missingKeys (.ofList rows) (.ofList entries) ↔
      placeOf (.ofList rows) values key ≠ none ∧ key ∉ entries.map Prod.fst := by
  have hgiven : (Table.ofList entries).contains key = true ↔ key ∈ entries.map Prod.fst :=
    Table.contains_iff.trans Table.get?_ofList_isSome_iff
  have hplace : placeOf (.ofList rows) values key ≠ none ↔ key ∈ rows.map Prod.fst := by
    rw [← Table.get?_ofList_isSome_iff, placeOf, ne_eq, Option.map_eq_none_iff,
      Option.isSome_iff_ne_none]
  simp only [missingKeys]
  rw [List.mem_mergeSort, List.mem_filter, Table.map_fst_toList_ofList, (Table.keys_ofList rows).2,
    hplace, ← hgiven]
  simp

/-- Loading entries with distinct names into buffers. -/
theorem load_loads (rows : List (String × Int)) {entries : List (String × Data)}
    (hkeys : (entries.map Prod.fst).Nodup) (bufs : Buffers) :
    ∃ bufs' done outcome,
      Loads (placeOf (.ofList rows) values) strict entries bufs bufs' done outcome ∧
      load (.ofList rows) values strict (.ofList entries) bufs =
        match outcome with
        | .ok () => .ok () bufs'
        | .error e => .error e bufs' := by
  have hcases := loadEntries_cases (.ofList rows) values strict entries (holding_nil bufs)
  have hlist : (Table.ofList entries).toList = entries := Table.toList_ofList_of_nodup hkeys
  simp only [load, hlist]
  generalize hrun : entries.forM (loadEntry (.ofList rows) values strict) bufs = result at hcases
  cases hcases with
  | @stopped bufs' e done entry rest split passed holding fault =>
    exact ⟨bufs', done, .error e, .stopped done entry rest split passed holding fault,
      bind_of_error hrun⟩
  | @all bufs' passed holding =>
    have hmissing := mem_missingKeys values rows entries
    cases strict with
    | false => exact ⟨bufs', entries, .ok (), .complete passed holding (by simp), bind_of_ok hrun⟩
    | true =>
      cases hempty : missingKeys (.ofList rows) (.ofList entries) with
      | nil =>
        refine ⟨bufs', entries, .ok (), .complete passed holding fun _ key hkey => ?_, ?_⟩
        · rw [hempty] at hmissing
          exact Decidable.not_not.mp fun hno => (List.not_mem_nil ((hmissing key).mpr ⟨hkey, hno⟩))
        · refine (bind_of_ok hrun).trans ?_
          simp only [if_true, List.isEmpty_nil, Bool.not_true]
          rfl
      | cons key more =>
        rw [hempty] at hmissing
        refine ⟨bufs', entries, .error (.missingKeys (key :: more)),
          .incomplete passed holding rfl (List.cons_ne_nil key more) hmissing, ?_⟩
        exact bind_of_ok hrun

end TensorGraph.Buffers
