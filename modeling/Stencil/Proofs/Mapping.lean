import Stencil.Mapping

/-!
# Keys of mappings

Which keys a mapping has after a key was written, and how the keys and the values that they hold go
together.
-/

namespace Stencil.Mapping

variable {α : Type}

/-- The keys are what a value is found for. -/
theorem mem_keys_iff {m : Mapping α} {key : Text} :
    key ∈ m.keys ↔ ∃ value, m.get? key = some value := by
  induction m with
  | nil => simp [keys, get?]
  | cons entry rest ih =>
    obtain ⟨k, v⟩ := entry
    by_cases hk : key = k
    · simp [keys, get?, hk]
    · have hstep : key ∈ keys ((k, v) :: rest) ↔ key ∈ keys rest := by simp [keys, hk]
      rw [hstep, ih]
      simp [get?, hk]

/-- Writing a key adds this key and no other. -/
@[simp] theorem mem_keys_set {m : Mapping α} {key other : Text} {value : α} :
    other ∈ (m.set key value).keys ↔ other = key ∨ other ∈ m.keys := by
  rw [keys_set]
  split
  · next hpresent =>
    constructor
    · exact Or.inr
    · rintro (rfl | h)
      · exact hpresent
      · exact h
  · rw [List.mem_append, List.mem_singleton, or_comm]

/-- Writing a key repeats none. -/
theorem nodup_keys_set {m : Mapping α} {key : Text} {value : α} (h : m.keys.Nodup) :
    (m.set key value).keys.Nodup := by
  rw [keys_set]
  split
  · exact h
  · next hnew =>
    refine List.nodup_append.mpr ⟨h, List.pairwise_singleton _ key, ?_⟩
    rintro other hother _ hkey rfl
    rw [List.mem_singleton.mp hkey] at hother
    exact hnew hother

/-- Writing entries on top adds their keys and no others. -/
@[simp] theorem mem_keys_merge {m upper : Mapping α} {key : Text} :
    key ∈ (m.merge upper).keys ↔ key ∈ m.keys ∨ key ∈ upper.keys := by
  induction upper generalizing m with
  | nil => simp [merge, keys]
  | cons entry rest ih =>
    have hmerge : m.merge (entry :: rest) = (m.set entry.1 entry.2).merge rest := rfl
    have hkeys : keys (entry :: rest) = entry.1 :: keys rest := rfl
    rw [hmerge, ih, mem_keys_set, hkeys, List.mem_cons, or_comm (a := key = entry.1), or_assoc]

/-- Writing entries on top repeats no key. -/
theorem nodup_keys_merge {m upper : Mapping α} (h : m.keys.Nodup) : (m.merge upper).keys.Nodup := by
  induction upper generalizing m with
  | nil => exact h
  | cons entry rest ih => exact ih (nodup_keys_set h)

/-- Of two values written for a key the second one counts. -/
@[simp] theorem set_set (m : Mapping α) (key : Text) (first second : α) :
    (m.set key first).set key second = m.set key second := by
  induction m with
  | nil => simp [set]
  | cons entry rest ih =>
    obtain ⟨k, v⟩ := entry
    by_cases hk : key = k <;> simp [set, hk, ih]

/-- Writing a key changes nothing exactly if the key holds the value already. -/
theorem set_eq_self_iff {m : Mapping α} {key : Text} {value : α} :
    m.set key value = m ↔ m.get? key = some value := by
  constructor
  · intro h
    have hwritten := get?_set_self m key value
    rwa [h] at hwritten
  · intro h
    induction m with
    | nil => simp [get?] at h
    | cons entry rest ih =>
      obtain ⟨k, v⟩ := entry
      by_cases hk : key = k
      · simp_all [get?, set]
      · simp_all [get?, set]

/-- A new key goes to the end with its value. -/
theorem set_of_not_mem {m : Mapping α} {key : Text} (h : key ∉ m.keys) (value : α) :
    m.set key value = m ++ [(key, value)] := by
  induction m with
  | nil => rfl
  | cons entry rest ih =>
    obtain ⟨k, v⟩ := entry
    simp only [keys, List.map_cons, List.mem_cons, not_or] at h
    obtain ⟨hk, hrest⟩ := h
    have hset : set ((k, v) :: rest) key value = (k, v) :: set rest key value := by
      simp [set, hk]
    rw [hset, ih hrest, List.cons_append]

/-- Entries with new keys, all different, are put behind the others. -/
theorem merge_eq_append {m upper : Mapping α} (h : (m ++ upper).keys.Nodup) :
    m.merge upper = m ++ upper := by
  induction upper generalizing m with
  | nil => rw [List.append_nil]; rfl
  | cons entry rest ih =>
    obtain ⟨key, value⟩ := entry
    have hsplit : m ++ (key, value) :: rest = m ++ [(key, value)] ++ rest := by simp
    have hfresh : key ∉ m.keys := by
      intro hmem
      have hkeys : (m ++ (key, value) :: rest).keys = m.keys ++ key :: keys rest := by simp [keys]
      rw [hkeys, List.nodup_append] at h
      exact h.2.2 key hmem key List.mem_cons_self rfl
    have hmerge : m.merge ((key, value) :: rest) = (m.set key value).merge rest := rfl
    rw [hsplit] at h ⊢
    rw [hmerge, set_of_not_mem hfresh, ih h]

/-- Entries with different keys spell themselves. -/
theorem ofEntries_of_nodup {entries : List (Text × α)} (h : (keys entries).Nodup) :
    ofEntries entries = entries :=
  merge_eq_append h

/-- Writing other keys on top changes nothing at a key. -/
theorem get?_merge_of_not_mem {m upper : Mapping α} {key : Text} (h : key ∉ upper.keys) :
    (m.merge upper).get? key = m.get? key := by
  induction upper generalizing m with
  | nil => rfl
  | cons entry rest ih =>
    obtain ⟨k, v⟩ := entry
    simp only [keys, List.map_cons, List.mem_cons, not_or] at h
    obtain ⟨hk, hrest⟩ := h
    have hmerge : m.merge ((k, v) :: rest) = (m.set k v).merge rest := rfl
    simp [hmerge, ih hrest, hk]

/-- An entry of a mapping is one that was written on top, or one of before whose key was not written
since. -/
theorem get?_merge_cases {m upper : Mapping α} {key : Text} {value : α}
    (h : (m.merge upper).get? key = some value) :
    (key, value) ∈ upper ∨ key ∉ upper.keys ∧ m.get? key = some value := by
  induction upper generalizing m with
  | nil => exact Or.inr ⟨List.not_mem_nil, h⟩
  | cons entry rest ih =>
    obtain ⟨k, v⟩ := entry
    rcases ih (m := m.set k v) h with hrest | ⟨hnew, hbefore⟩
    · exact Or.inl (List.mem_cons_of_mem _ hrest)
    · by_cases hk : key = k
      · subst hk
        rw [get?_set_self] at hbefore
        exact Or.inl (Option.some.inj hbefore ▸ List.mem_cons_self)
      · rw [get?_set_of_ne m v hk] at hbefore
        refine Or.inr ⟨?_, hbefore⟩
        simpa [keys, hk] using hnew

/-- A key that stands once in a mapping has the value that stands there. -/
theorem get?_of_mem {m : Mapping α} {key : Text} {value : α}
    (hkeys : m.keys.Nodup) (h : (key, value) ∈ m) : m.get? key = some value := by
  induction m with
  | nil => contradiction
  | cons entry rest ih =>
    obtain ⟨k, v⟩ := entry
    obtain ⟨hnew, hrest⟩ := List.nodup_cons.mp hkeys
    rcases List.mem_cons.mp h with heq | hmem
    · obtain ⟨rfl, rfl⟩ := Prod.mk.inj heq
      simp [get?]
    · have hne : key ≠ k := by
        rintro rfl
        exact hnew (List.mem_map.mpr ⟨_, hmem, rfl⟩)
      simp [get?, hne, ih hrest hmem]

end Stencil.Mapping
