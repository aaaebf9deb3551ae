import TensorGraph.Proofs.Network.Loading

/-!
# Entries with buffers of their own

Where no two names have one buffer, no entry writes over what another one brought: a buffer holds
what the entry for it brought, in whatever order the entries came. So entries that are loaded in one
order are loaded in every other one, with the same buffers in the end.
-/

namespace TensorGraph.Buffers

/-! ### Uploads into distinct buffers -/

section Uploads

variable {bufs bufs' bufs'' : Buffers} {us us' : List (Nat × Data)} {id : Nat} {d : Data}

theorem mem_of_lastInto (h : lastInto us id = some d) : (id, d) ∈ us := by
  obtain ⟨u, hu, rfl⟩ := Option.map_eq_some_iff.mp h
  obtain rfl : u.1 = id := by simpa using List.find?_some hu
  exact List.mem_reverse.mp (List.mem_of_find?_eq_some hu)

theorem lastInto_of_mem (hnodup : (us.map Prod.fst).Nodup) (h : (id, d) ∈ us) :
    lastInto us id = some d :=
  (Table.get?_ofList us id).symm.trans ((Table.get?_ofList_of_nodup hnodup).mpr h)

/-- A buffer that nothing was uploaded into is as it was. -/
theorem Holding.of_forall_not_mem (h : Holding bufs bufs' us) (hid : ∀ d, (id, d) ∉ us) :
    Table.get? bufs' id = Table.get? bufs id := by
  have hold := h id
  cases hl : lastInto us id with
  | none => simpa only [hl] using hold
  | some d => exact absurd (mem_of_lastInto hl) (hid d)

theorem Holding.of_mem (h : Holding bufs bufs' us) (hnodup : (us.map Prod.fst).Nodup)
    (hu : (id, d) ∈ us) :
    ∃ b b', Table.get? bufs id = some b ∧ Fills b d b' ∧ Table.get? bufs' id = some b' := by
  have hold := h id
  rw [lastInto_of_mem hnodup hu] at hold
  exact hold

/-- Uploads into distinct buffers can be made in any order. -/
theorem Holding.perm (h : Holding bufs bufs' us) (h' : Holding bufs bufs'' us')
    (hnodup : (us.map Prod.fst).Nodup) (hperm : us'.Perm us) (id : Nat) :
    Table.get? bufs'' id = Table.get? bufs' id := by
  by_cases hid : ∃ d, (id, d) ∈ us
  · obtain ⟨d, hu⟩ := hid
    obtain ⟨b, b', hb, hfills, hb'⟩ := h.of_mem hnodup hu
    obtain ⟨b₁, b₂, hb₁, hfills', hb₂⟩ :=
      h'.of_mem ((hperm.map Prod.fst).nodup_iff.mpr hnodup) (hperm.mem_iff.mpr hu)
    rw [hb] at hb₁
    cases hb₁
    rw [hb', hb₂, hfills.unique hfills']
  · simp only [not_exists] at hid
    rw [h.of_forall_not_mem hid, h'.of_forall_not_mem fun d hu => hid d (hperm.mem_iff.mp hu)]

end Uploads

/-! ### Entries -/

/-- No two names have one buffer. -/
def Separates (place : String → Option (Option Nat)) : Prop :=
  ∀ key key' id, place key = some (some id) → place key' = some (some id) → key = key'

variable {place : String → Option (Option Nat)} {strict : Bool}
  {entries entries' done : List (String × Data)} {bufs bufs' bufs'' : Buffers}
  {outcome : Except Error Unit}

theorem mem_uploads {id : Nat} {d : Data} :
    (id, d) ∈ uploads place entries ↔ ∃ key, (key, d) ∈ entries ∧ place key = some (some id) := by
  simp only [uploads, List.mem_filterMap, Option.map_eq_some_iff, Option.join_eq_some_iff,
    Prod.exists, Prod.mk.injEq]
  constructor
  · rintro ⟨key, d', hmem, id', hplace, rfl, rfl⟩
    exact ⟨key, hmem, hplace⟩
  · rintro ⟨key, hmem, hplace⟩
    exact ⟨key, d, hmem, id, hplace, rfl, rfl⟩

theorem Separates.uploads_nodup (h : Separates place) (hkeys : (entries.map Prod.fst).Nodup) :
    ((uploads place entries).map Prod.fst).Nodup := by
  have hmap : (uploads place entries).map Prod.fst =
      (entries.map Prod.fst).filterMap fun key => (place key).join := by
    rw [uploads, List.map_filterMap, List.filterMap_map]
    refine List.filterMap_congr fun entry _ => ?_
    rw [Option.map_map]
    exact Option.map_id' ..
  rw [hmap]
  refine hkeys.filterMap fun key key' id hid hid' => h key key' id ?_ ?_
  · exact Option.join_eq_some_iff.mp hid
  · exact Option.join_eq_some_iff.mp hid'

namespace Loads

/-- Where all entries are loaded, each buffer holds what the entry for it brought. -/
theorem filled (h : Loads place strict entries bufs bufs' done (.ok ())) (hsep : Separates place)
    (hkeys : (entries.map Prod.fst).Nodup) {key : String} {d : Data} (hmem : (key, d) ∈ entries)
    {id : Nat} (hplace : place key = some (some id)) :
    ∃ b b', Table.get? bufs id = some b ∧ Fills b d b' ∧ Table.get? bufs' id = some b' := by
  cases h with
  | complete passed holding given =>
    exact holding.of_mem (hsep.uploads_nodup hkeys) (mem_uploads.mpr ⟨key, hmem, hplace⟩)

/-- A buffer that no entry is for is as it was. -/
theorem unchanged (h : Loads place strict entries bufs bufs' done (.ok ())) {id : Nat}
    (hid : ∀ entry ∈ entries, place entry.1 ≠ some (some id)) :
    Table.get? bufs' id = Table.get? bufs id := by
  cases h with
  | complete passed holding given =>
    refine holding.of_forall_not_mem fun d hu => ?_
    obtain ⟨key, hmem, hplace⟩ := mem_uploads.mp hu
    exact hid (key, d) hmem hplace

/-- An entry that was loaded in one order does not fail in another one. -/
theorem not_fault_of_perm (h : Loads place strict entries bufs bufs' entries (.ok ()))
    (hsep : Separates place) (hkeys : (entries.map Prod.fst).Nodup) {entry : String × Data}
    {rest : List (String × Data)} (hperm : (done ++ entry :: rest).Perm entries)
    (hholding : Holding bufs bufs'' (uploads place done)) (e : Error) :
    ¬Fault place strict bufs'' entry e := by
  have hmem : entry ∈ entries := hperm.mem_iff.mp (by simp)
  rcases h.passed entry hmem with ⟨hnone, hlenient⟩ | ⟨id, hid⟩
  · intro hfault
    cases hfault with
    | unexpected _ isStrict => simp [hlenient] at isStrict
    | notEvaluated buffer | missingBuffer buffer | notData buffer | notWritten buffer =>
      rw [hnone] at buffer
      cases buffer
  · obtain ⟨b, b', hb, hfills, -⟩ := h.filled hsep hkeys hmem hid
    have hkeys' := (hperm.map Prod.fst).nodup_iff.mpr hkeys
    -- nothing was uploaded into its buffer before its turn
    have hbefore : ∀ d, (id, d) ∉ uploads place done := by
      intro d hu
      obtain ⟨key, hdone, hplace⟩ := mem_uploads.mp hu
      obtain rfl := hsep key entry.1 id hplace hid
      rw [List.map_append, List.nodup_append] at hkeys'
      exact hkeys'.2.2 entry.1 (List.mem_map.mpr ⟨_, hdone, rfl⟩) entry.1 (by simp) rfl
    exact not_fault hid ((hholding.of_forall_not_mem hbefore).trans hb) hfills e

/-- Entries that are loaded in one order are loaded in every other one, and the buffers are the same
in the end. -/
theorem perm (h : Loads place strict entries bufs bufs' entries (.ok ())) (hsep : Separates place)
    (hkeys : (entries.map Prod.fst).Nodup) (hperm : entries'.Perm entries)
    (h' : Loads place strict entries' bufs bufs'' done outcome) :
    outcome = .ok () ∧ ∀ id, Table.get? bufs'' id = Table.get? bufs' id := by
  have hnames : ∀ key, key ∈ entries'.map Prod.fst ↔ key ∈ entries.map Prod.fst := fun key =>
    (hperm.map Prod.fst).mem_iff
  have hgiven : strict = true → ∀ key, place key ≠ none → key ∈ entries.map Prod.fst := by
    cases h with
    | complete _ _ given => exact given
  have hholds : Holding bufs bufs' (uploads place entries) := by
    cases h with
    | complete _ holding _ => exact holding
  cases h' with
  | complete passed holding given =>
    exact ⟨rfl, hholds.perm holding (hsep.uploads_nodup hkeys) (hperm.filterMap _)⟩
  | stopped _ entry rest split passed holding fault =>
    subst split
    exact absurd fault (h.not_fault_of_perm hsep hkeys hperm holding _)
  | @incomplete missing passed holding isStrict some_missing missing_iff =>
    obtain ⟨key, hkey⟩ := List.exists_mem_of_ne_nil missing some_missing
    obtain ⟨hparam, hnew⟩ := (missing_iff key).mp hkey
    exact absurd ((hnames key).mpr (hgiven isStrict key hparam)) hnew

/-- In strict loading the names are those that there are. -/
theorem names_iff (h : Loads place true entries bufs bufs' done (.ok ())) (key : String) :
    place key ≠ none ↔ key ∈ entries.map Prod.fst := by
  cases h with
  | complete passed holding given =>
    refine ⟨given rfl key, fun hkey => ?_⟩
    obtain ⟨entry, hmem, rfl⟩ := List.mem_map.mp hkey
    rcases passed entry hmem with ⟨-, hlenient⟩ | ⟨id, hid⟩
    · cases hlenient
    · simp [hid]

end Loads

end TensorGraph.Buffers
