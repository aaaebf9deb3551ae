import Mathlib.Data.List.Induction
import Mathlib.Data.List.Nodup
import TensorGraph.Table

/-!
# Tables of entries

A table filled with entries one after the other has under a key what the last entry with the key
brought. It lists each key once, so entries with distinct keys are listed as they are.
-/

namespace TensorGraph.Table

variable {κ β γ : Type} [BEq κ] [Hashable κ]

/-- The table filled with entries one after the other. -/
def ofList (entries : List (κ × β)) : Table κ β :=
  entries.foldl (fun t e => t.insert e.1 e.2) empty

theorem ofList_concat (entries : List (κ × β)) (e : κ × β) :
    ofList (entries ++ [e]) = (ofList entries).insert e.1 e.2 := by
  simp [ofList]

variable [LawfulBEq κ] [LawfulHashable κ]

theorem contains_iff {t : Table κ β} {k : κ} : t.contains k = true ↔ (t.get? k).isSome = true := by
  simp [contains, get?]

theorem get?_ofList (entries : List (κ × β)) (k : κ) :
    (ofList entries).get? k = (entries.reverse.find? fun e => e.1 == k).map Prod.snd := by
  induction entries using List.reverseRecOn with
  | nil => exact get?_empty k
  | append_singleton entries e ih =>
    rw [ofList_concat, get?_insert, ih, List.reverse_append]
    by_cases he : e.1 == k
    · simp [he]
    · simp [he]

theorem get?_ofList_isSome_iff {entries : List (κ × β)} {k : κ} :
    ((ofList entries).get? k).isSome = true ↔ k ∈ entries.map Prod.fst := by
  simp [get?_ofList]

/-- Each key is listed once. -/
theorem keys_ofList (entries : List (κ × β)) :
    (ofList entries).keys.toList.Nodup ∧
      ∀ k, k ∈ (ofList entries).keys.toList ↔ k ∈ entries.map Prod.fst := by
  induction entries using List.reverseRecOn with
  | nil => exact ⟨List.nodup_nil, fun k => Iff.rfl⟩
  | append_singleton entries e ih =>
    obtain ⟨hnodup, hmem⟩ := ih
    have hcontains : (ofList entries).contains e.1 = true ↔ e.1 ∈ entries.map Prod.fst :=
      contains_iff.trans get?_ofList_isSome_iff
    rw [ofList_concat, keys_insert]
    by_cases he : (ofList entries).contains e.1 = true
    · rw [if_pos he]
      refine ⟨hnodup, fun k => (hmem k).trans ?_⟩
      rw [List.map_append, List.mem_append, List.map_singleton, List.mem_singleton]
      exact ⟨.inl, fun h => h.elim id fun hk => hk ▸ hcontains.mp he⟩
    · rw [if_neg he]
      constructor
      · refine List.nodup_append.mpr ⟨hnodup, by simp, ?_⟩
        rintro k hk k' hk' rfl
        rw [List.mem_singleton.mp hk'] at hk
        exact he (hcontains.mpr ((hmem _).mp hk))
      · intro k
        rw [List.mem_append, hmem, List.map_append, List.mem_append, List.map_singleton]

theorem mem_toList_ofList {entries : List (κ × β)} {e : κ × β} :
    e ∈ (ofList entries).toList ↔ (ofList entries).get? e.1 = some e.2 := by
  simp only [toList]
  rw [List.mem_filterMap]
  constructor
  · rintro ⟨k, -, hk⟩
    obtain ⟨v, hv, rfl⟩ := Option.map_eq_some_iff.mp hk
    exact hv
  · intro he
    have hmem : e.1 ∈ entries.map Prod.fst := get?_ofList_isSome_iff.mp (by simp [he])
    exact ⟨e.1, ((keys_ofList entries).2 e.1).mpr hmem, by rw [he]; rfl⟩

/-- The keys of the entries listed are the keys, in order. -/
theorem map_fst_toList_ofList (entries : List (κ × β)) :
    (ofList entries).toList.map Prod.fst = (ofList entries).keys.toList := by
  simp only [toList]
  rw [List.map_filterMap]
  refine (List.filterMap_congr ?_).trans List.filterMap_some
  intro k hk
  have hmem := ((keys_ofList entries).2 k).mp hk
  obtain ⟨v, hv⟩ := Option.isSome_iff_exists.mp (get?_ofList_isSome_iff.mpr hmem)
  simp [hv]

/-! ### Entries with distinct keys -/

section Distinct

variable {entries : List (κ × β)} (h : (entries.map Prod.fst).Nodup)

include h

theorem get?_ofList_of_nodup {k : κ} {v : β} :
    (ofList entries).get? k = some v ↔ (k, v) ∈ entries := by
  have hmem : ∀ {k : κ} {v : β}, (ofList entries).get? k = some v → (k, v) ∈ entries := by
    intro k v hv
    rw [get?_ofList] at hv
    obtain ⟨e, he, rfl⟩ := Option.map_eq_some_iff.mp hv
    have hkey : e.1 = k := by simpa using List.find?_some he
    exact hkey ▸ List.mem_reverse.mp (List.mem_of_find?_eq_some he)
  refine ⟨hmem, fun he => ?_⟩
  have hsome := get?_ofList_isSome_iff.mpr (List.mem_map_of_mem (f := Prod.fst) he)
  obtain ⟨v', hv'⟩ := Option.isSome_iff_exists.mp hsome
  have heq : (k, v') = (k, v) := List.inj_on_of_nodup_map h (hmem hv') he rfl
  rw [hv', (Prod.mk.inj heq).2]

theorem keys_ofList_of_nodup : (ofList entries).keys.toList = entries.map Prod.fst := by
  induction entries using List.reverseRecOn with
  | nil => rfl
  | append_singleton entries e ih =>
    rw [List.map_append, List.nodup_append] at h
    have hnew : ¬(ofList entries).contains e.1 = true := by
      rw [contains_iff, get?_ofList_isSome_iff]
      exact fun he => h.2.2 e.1 he e.1 (by simp) rfl
    rw [ofList_concat, keys_insert, if_neg hnew, ih h.1, List.map_append, List.map_singleton]

theorem toList_ofList_of_nodup : (ofList entries).toList = entries := by
  simp only [toList]
  rw [keys_ofList_of_nodup h, List.filterMap_map]
  refine (List.filterMap_congr ?_).trans List.filterMap_some
  intro e he
  simp only [Function.comp_apply]
  rw [(get?_ofList_of_nodup h).mpr he]
  rfl

end Distinct

end TensorGraph.Table
