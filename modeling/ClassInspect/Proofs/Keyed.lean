import ClassInspect.Keyed

/-!
# The order of keys

The keys of entries that were put into a table one after the other stand in the order of their
first occurrence (`Keyed.map_put_of_eraseDups`), each once (`Keyed.nodup_put`). Both rest on what
one entry does to the keys (`Keyed.map_put`): a new key comes last, and one that is there already
keeps its place.
-/

namespace ClassInspect.Keyed

variable {α κ : Type} {key : α → κ} {entry other : α} {table : List α}

section Put

variable [DecidableEq κ]

/-- A new key comes last, and one that is there already keeps its place. -/
theorem map_put (key : α → κ) (entry : α) (table : List α) :
    (put key entry table).map key =
      if key entry ∈ table.map key then table.map key else table.map key ++ [key entry] := by
  induction table with
  | nil => rfl
  | cons first rest ih =>
    rw [put]
    by_cases hfirst : key first = key entry
    · simp [hfirst]
    · have hmem : key entry ∈ (first :: rest).map key ↔ key entry ∈ rest.map key := by
        rw [List.map_cons, List.mem_cons, or_iff_right (Ne.symm hfirst)]
      rw [if_neg hfirst, List.map_cons, ih]
      simp only [hmem]
      split <;> rfl

/-- An entry is the new one, or it was there before with another key. -/
theorem mem_put (hnodup : (table.map key).Nodup) (h : other ∈ put key entry table) :
    other = entry ∨ other ∈ table ∧ key other ≠ key entry := by
  induction table with
  | nil => exact .inl (List.mem_singleton.1 h)
  | cons first rest ih =>
    obtain ⟨hfresh, hrest⟩ := List.nodup_cons.1 hnodup
    rw [put] at h
    by_cases hfirst : key first = key entry
    · rw [if_pos hfirst] at h
      rcases List.mem_cons.1 h with hother | hother
      · exact .inl hother
      · refine .inr ⟨.tail _ hother, fun hsame ↦ hfresh ?_⟩
        rw [hfirst, ← hsame]
        exact List.mem_map_of_mem hother
    · rw [if_neg hfirst] at h
      rcases List.mem_cons.1 h with rfl | hother
      · exact .inr ⟨.head _, hfirst⟩
      · obtain hentry | ⟨hmem, hne⟩ := ih hrest hother
        · exact .inl hentry
        · exact .inr ⟨.tail _ hmem, hne⟩

theorem nodup_put (h : (table.map key).Nodup) (entry : α) :
    ((put key entry table).map key).Nodup := by
  rw [map_put]
  split
  · exact h
  · rename_i hnew
    refine List.nodup_append.2 ⟨h, List.pairwise_singleton _ _, fun old hold new hmem ↦ ?_⟩
    rw [List.mem_singleton.1 hmem]
    rintro rfl
    exact hnew hold

end Put

/-! ### The order of first occurrence -/

variable [BEq κ] [LawfulBEq κ] {keys : List κ}

theorem eraseDups_concat_of_mem {key : κ} (h : key ∈ keys) :
    (keys ++ [key]).eraseDups = keys.eraseDups := by
  rw [List.eraseDups_append]
  simp [List.removeAll, h]

theorem eraseDups_concat_of_not_mem {key : κ} (h : key ∉ keys) :
    (keys ++ [key]).eraseDups = keys.eraseDups ++ [key] := by
  rw [List.eraseDups_append]
  simp [List.removeAll, h, List.eraseDups_cons]

/-- The keys of one entry more. -/
theorem map_put_of_eraseDups [DecidableEq κ] (h : table.map key = keys.eraseDups) (entry : α) :
    (put key entry table).map key = (keys ++ [key entry]).eraseDups := by
  rw [map_put, h]
  split
  · rename_i hold
    rw [eraseDups_concat_of_mem (List.mem_eraseDups.1 hold)]
  · rename_i hnew
    rw [eraseDups_concat_of_not_mem fun hmem ↦ hnew (List.mem_eraseDups.2 hmem)]

end ClassInspect.Keyed
