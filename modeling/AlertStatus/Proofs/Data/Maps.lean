import AlertStatus.Data.SortedMap

/-!
# Maps built from lists of entries

Documents are built by inserting one member after the other and taken apart by looking names up.
This file says what the look-ups of a map built that way are, and that building a map from its own
entries gives it back. Equality of maps is settled by look-ups throughout (`SortedMap.ext_get?`).
-/

set_option autoImplicit false

namespace AlertStatus
namespace SortedMap

variable {α β : Type}

/-! ## Inserting many entries -/

/-- Look-ups after inserting entries of distinct names, in any order of their names. With one name
twice the last entry would count, while `lookup` gives the first. -/
theorem get?_foldl_insert {l : List (String × α)} (h : (l.map Prod.fst).Nodup) (f : SortedMap α)
    (k : String) :
    (l.foldl (fun m e => m.insert e.1 e.2) f).get? k = (l.lookup k).or (f.get? k) := by
  induction l generalizing f with
  | nil => rfl
  | cons a l ih =>
    obtain ⟨ha, hl⟩ := List.nodup_cons.mp h
    rw [List.foldl_cons, ih hl, get?_insert, List.lookup_cons]
    by_cases hk : k = a.1
    · have hnone : l.lookup k = none := by
        rw [List.lookup_eq_none_iff]
        intro e he
        rw [bne_iff_ne]
        rintro rfl
        exact ha (hk ▸ List.mem_map_of_mem he)
      rw [hnone, if_pos hk, beq_iff_eq.mpr hk]
      rfl
    · rw [if_neg hk, beq_eq_false_iff_ne.mpr hk]

theorem get?_ofList {l : List (String × α)} (h : (l.map Prod.fst).Nodup) (k : String) :
    (ofList l).get? k = l.lookup k := by
  rw [ofList, get?_foldl_insert h, get?_empty, Option.or_none]

/-- The names of a map are distinct. -/
theorem nodup_keys (m : SortedMap α) : (m.entries.map Prod.fst).Nodup := by
  refine List.pairwise_map.mpr (m.sorted.imp ?_)
  intro a b hab heq
  rw [heq] at hab
  exact String.lt_irrefl _ hab

theorem lookup_entries (m : SortedMap α) (k : String) : m.entries.lookup k = m.get? k := by
  show m.entries.lookup k = lookupEntry k m.entries
  induction m.entries with
  | nil => rfl
  | cons a l ih =>
    rw [List.lookup_cons, lookupEntry]
    by_cases hk : k = a.1
    · rw [if_pos hk, beq_iff_eq.mpr hk]
    · rw [if_neg hk, beq_eq_false_iff_ne.mpr hk]
      exact ih

/-- **A map is built from its own entries.** -/
theorem ofList_entries (m : SortedMap α) : ofList m.entries = m := by
  refine ext_get? fun k => ?_
  rw [get?_ofList (nodup_keys m), lookup_entries]

theorem contains_of_get? {m : SortedMap α} {k : String} {v : α} (h : m.get? k = some v) :
    m.contains k = true := by
  rw [contains, h]
  rfl

/-- To put what is there changes nothing. -/
theorem insert_of_get? {m : SortedMap α} {k : String} {v : α} (h : m.get? k = some v) :
    m.insert k v = m := by
  refine ext_get? fun j => ?_
  rw [get?_insert]
  split
  · rename_i hj
    rw [hj, h]
  · rfl

/-- The value that is put last counts. -/
theorem insert_insert (m : SortedMap α) (k : String) (v w : α) :
    (m.insert k v).insert k w = m.insert k w := by
  refine ext_get? fun j => ?_
  rw [get?_insert, get?_insert, get?_insert]
  split <;> rfl

/-- The other entries of a list of distinct names are still there. -/
theorem get?_insert_of_not_mem {m : SortedMap α} {l : List (String × α)} {k : String}
    (hk : k ∉ l.map Prod.fst) (hl : ∀ e ∈ l, m.get? e.1 = some e.2) (v : α) :
    ∀ e ∈ l, (m.insert k v).get? e.1 = some e.2 := by
  intro e he
  have hne : e.1 ≠ k := by
    rintro rfl
    exact hk (List.mem_map_of_mem he)
  rw [get?_insert, if_neg hne]
  exact hl e he

theorem isEmpty_of_get? {m : SortedMap α} (h : ∀ k, m.get? k = none) : m.isEmpty = true := by
  have hm : m = empty := ext_get? h
  rw [hm]
  rfl

/-! ## Maps under a function of their values -/

theorem map_insert (m : SortedMap α) (f : α → β) (k : String) (v : α) :
    (m.insert k v).map f = (m.map f).insert k (f v) := by
  refine ext_get? fun j => ?_
  rw [get?_map, get?_insert, get?_insert, get?_map]
  split <;> rfl

end SortedMap
end AlertStatus
