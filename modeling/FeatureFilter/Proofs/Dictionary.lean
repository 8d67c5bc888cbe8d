import FeatureFilter.Dictionary

namespace FeatureFilter

namespace Entries

variable {α : Type}

theorem get?_insert (key k : String) (value : α) (entries : List (String × α)) :
    get? k (insert key value entries) = if key = k then some value else get? k entries := by
  induction entries with
  | nil => rfl
  | cons entry rest ih =>
    obtain ⟨k', v⟩ := entry
    simp only [insert]
    split
    · rfl
    · split
      · rename_i heq
        subst heq
        by_cases hk : key = k
        · simp only [get?, if_pos hk]
        · simp only [get?, if_neg hk]
      · rename_i hne
        by_cases hk : k' = k
        · subst hk
          simp only [get?, if_neg hne, if_true]
        · simp only [get?, if_neg hk]
          exact ih

theorem exists_get?_iff {entries : List (String × α)} :
    (∃ value, get? key entries = some value) ↔ key ∈ entries.map (·.1) := by
  induction entries with
  | nil =>
    constructor
    · intro h
      obtain ⟨value, h⟩ := h
      cases h
    · intro h
      cases h
  | cons entry rest ih =>
    obtain ⟨k, v⟩ := entry
    rw [get?, List.map_cons, List.mem_cons]
    by_cases hk : k = key
    · rw [if_pos hk]
      exact iff_of_true ⟨v, rfl⟩ (.inl hk.symm)
    · rw [if_neg hk, ih]
      constructor
      · exact .inr
      · intro h
        rcases h with h | h
        · exact absurd h.symm hk
        · exact h

theorem get?_eq_none_iff {entries : List (String × α)} :
    get? key entries = none ↔ key ∉ entries.map (·.1) := by
  rw [← exists_get?_iff]
  cases get? key entries with
  | none => simp
  | some value => simp

theorem get?_of_mem {entries : List (String × α)} (hkeys : (entries.map (·.1)).Nodup)
    (hmem : (key, value) ∈ entries) : get? key entries = some value := by
  induction entries with
  | nil => cases hmem
  | cons entry rest ih =>
    obtain ⟨k, v⟩ := entry
    obtain ⟨hk, hrest⟩ := List.nodup_cons.1 hkeys
    rcases List.mem_cons.1 hmem with he | htail
    · cases he
      exact if_pos rfl
    · have hne : k ≠ key := by
        intro he
        subst he
        exact hk (List.mem_map.2 ⟨_, htail, rfl⟩)
      rw [get?, if_neg hne]
      exact ih hrest htail

theorem insert_perm {entries : List (String × α)} (h : key ∉ entries.map (·.1)) (value : α) :
    (insert key value entries).Perm ((key, value) :: entries) := by
  induction entries with
  | nil => exact .refl _
  | cons entry rest ih =>
    obtain ⟨k, v⟩ := entry
    rw [List.map_cons, List.mem_cons, not_or] at h
    rw [insert]
    split
    · exact .refl _
    · rw [if_neg h.1]
      exact ((ih h.2).cons (k, v)).trans (.swap _ _ _)

theorem insert_append_last {entries : List (String × α)} (h : ∀ e ∈ entries, e.1 < key)
    (value : α) : insert key value entries = entries ++ [(key, value)] := by
  induction entries with
  | nil => rfl
  | cons entry rest ih =>
    obtain ⟨k, v⟩ := entry
    obtain ⟨hk, hrest⟩ := List.forall_mem_cons.1 h
    have hlt : ¬key < k := String.lt_asymm hk
    have hne : key ≠ k := by
      intro he
      subst he
      exact hlt hk
    rw [insert, if_neg hlt, if_neg hne, ih hrest, List.cons_append]

theorem Sorted.eq_of_perm {entries entries' : List (String × α)} (h : Sorted entries)
    (h' : Sorted entries') (hperm : entries.Perm entries') : entries = entries' := by
  apply hperm.eq_of_pairwise _ h h'
  intro a b _ _ hab hba
  exact absurd hba (String.lt_asymm hab)

end Entries

namespace Dictionary

variable {α : Type}

theorem ext_entries {d d' : Dictionary α} (h : d.entries = d'.entries) : d = d' := by
  cases d
  cases h
  rfl

theorem eq_of_perm {d d' : Dictionary α} (h : d.entries.Perm d'.entries) : d = d' :=
  ext_entries (d.sorted.eq_of_perm d'.sorted h)

theorem get?_insert (d : Dictionary α) (key k : String) (value : α) :
    (d.insert key value).get? k = if key = k then some value else d.get? k :=
  Entries.get?_insert key k value d.entries

end Dictionary
end FeatureFilter
