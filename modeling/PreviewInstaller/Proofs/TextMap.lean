import Mathlib.Data.List.Induction
import PreviewInstaller.TextMap

set_option autoImplicit false

/-! # Laws of maps keyed by text

A map is its list of entries, so it is rebuilt from that list as it was. -/

namespace PreviewInstaller.TextMap

variable {α : Type}

@[ext]
theorem ext {first second : TextMap α} (h : first.entries = second.entries) : first = second := by
  cases first
  cases second
  cases h
  rfl

theorem put_eq_append {key : String} {value : α} {entries : List (String × α)}
    (h : key ∉ entries.map (·.1)) : put key value entries = entries ++ [(key, value)] := by
  induction entries with
  | nil => rfl
  | cons entry rest ih =>
    simp only [List.map_cons, List.mem_cons, not_or] at h
    rw [put, if_neg (Ne.symm h.1), ih h.2, List.cons_append]

theorem entries_insert_of_notMem {map : TextMap α} {key : String}
    (h : key ∉ map.entries.map (·.1)) (value : α) :
    (map.insert key value).entries = map.entries ++ [(key, value)] :=
  put_eq_append h

/-- Entries with new keys are added at the end, in order. -/
theorem entries_foldl_insert (entries : List (String × α)) (map : TextMap α)
    (h : ((map.entries ++ entries).map (·.1)).Nodup) :
    (entries.foldl (fun map (key, value) => map.insert key value) map).entries =
      map.entries ++ entries := by
  induction entries generalizing map with
  | nil => simp
  | cons entry rest ih =>
    obtain ⟨key, value⟩ := entry
    have hkey : key ∉ map.entries.map (·.1) := by
      rw [List.map_append, List.nodup_append] at h
      intro hmem
      exact h.2.2 key hmem key (by simp) rfl
    have hentries := entries_insert_of_notMem hkey value
    rw [List.foldl_cons, ih]
    · rw [hentries, List.append_assoc, List.singleton_append]
    · rw [hentries, List.append_assoc, List.singleton_append]
      exact h

theorem find?_eq_none_iff {key : String} {entries : List (String × α)} :
    find? key entries = none ↔ key ∉ entries.map (·.1) := by
  induction entries with
  | nil => simp [find?]
  | cons entry rest ih =>
    obtain ⟨k, value⟩ := entry
    by_cases hk : k = key
    · simp [find?, hk]
    · simp only [find?, if_neg hk, ih, List.map_cons, List.mem_cons, not_or]
      exact ⟨fun h => ⟨Ne.symm hk, h⟩, fun h => h.2⟩

/-- Entries with different keys go before the map that they are laid over. -/
theorem get?_foldl_insert {entries : List (String × α)} (h : (entries.map (·.1)).Nodup)
    (map : TextMap α) (key : String) :
    (entries.foldl (fun map (key, value) => map.insert key value) map).get? key =
      (find? key entries).or (map.get? key) := by
  induction entries generalizing map with
  | nil => rfl
  | cons entry rest ih =>
    obtain ⟨k, value⟩ := entry
    rw [List.map_cons, List.nodup_cons] at h
    rw [List.foldl_cons, ih h.2, get?_insert, find?]
    by_cases hk : k = key
    · subst hk
      rw [find?_eq_none_iff.2 h.1]
      simp
    · rw [if_neg hk, if_neg (Ne.symm hk)]

/-- A map is the map of its entries. -/
theorem ofEntries_entries (map : TextMap α) : ofEntries map.entries = map := by
  ext1
  unfold ofEntries
  rw [entries_foldl_insert]
  · rfl
  · exact map.distinct

@[simp]
theorem entries_singleton (key : String) (value : α) :
    (singleton key value).entries = [(key, value)] := rfl

/-- A key that is set twice has the last value. -/
theorem insert_insert (map : TextMap α) (key : String) (first second : α) :
    (map.insert key first).insert key second = map.insert key second := by
  ext1
  show put key second (put key first map.entries) = put key second map.entries
  induction map.entries with
  | nil => simp [put]
  | cons entry rest ih =>
    obtain ⟨k, old⟩ := entry
    by_cases h : k = key
    · simp [put, h]
    · simp [put, h, ih]

/-- To set a key in mapped entries is to map the entries with the key set. -/
theorem put_map {β : Type} (f : α → β) (key : String) (value : α) (entries : List (String × α)) :
    put key (f value) (entries.map fun entry => (entry.1, f entry.2)) =
      (put key value entries).map fun entry => (entry.1, f entry.2) := by
  induction entries with
  | nil => rfl
  | cons entry rest ih =>
    obtain ⟨k, old⟩ := entry
    by_cases hk : k = key
    · simp [put, hk]
    · simp [put, hk, ih]

theorem find?_map {β : Type} (f : α → β) (key : String) (entries : List (String × α)) :
    find? key (entries.map fun entry => (entry.1, f entry.2)) = (find? key entries).map f := by
  induction entries with
  | nil => rfl
  | cons entry rest ih =>
    obtain ⟨k, value⟩ := entry
    by_cases hk : k = key <;> simp [find?, hk, ih]

/-- Among entries with different keys a value is found where it is. -/
theorem find?_eq_some_iff {key : String} {value : α} {entries : List (String × α)}
    (h : (entries.map (·.1)).Nodup) :
    find? key entries = some value ↔ (key, value) ∈ entries := by
  induction entries with
  | nil => simp [find?]
  | cons entry rest ih =>
    obtain ⟨k, other⟩ := entry
    rw [List.map_cons, List.nodup_cons] at h
    by_cases hk : k = key
    · subst hk
      have hrest : (k, value) ∉ rest := fun hmem => h.1 (List.mem_map.2 ⟨_, hmem, rfl⟩)
      simp [find?, hrest, eq_comm]
    · simp [find?, hk, Ne.symm hk, ih h.2]

/-- Entries with different keys are found from both ends. -/
theorem find?_reverse {key : String} {entries : List (String × α)}
    (h : (entries.map (·.1)).Nodup) : find? key entries.reverse = find? key entries := by
  have hreverse : (entries.reverse.map (·.1)).Nodup :=
    (entries.reverse_perm.map (·.1)).nodup_iff.2 h
  ext value
  rw [find?_eq_some_iff hreverse, find?_eq_some_iff h, List.mem_reverse]

/-- Of entries with the same key the last one counts. -/
theorem get?_ofEntries (entries : List (String × α)) (key : String) :
    (ofEntries entries).get? key = find? key entries.reverse := by
  induction entries using List.reverseRecOn with
  | nil => rfl
  | append_singleton front entry ih =>
    obtain ⟨k, value⟩ := entry
    have hinsert : ofEntries (front ++ [(k, value)]) = (ofEntries front).insert k value := by
      simp [ofEntries]
    rw [hinsert, get?_insert, ih, List.reverse_append, List.reverse_singleton,
      List.singleton_append, find?]
    simp only [eq_comm]

/-- To set a key does not matter for what every value of it passes. -/
theorem all_put {passes : String × α → Bool} {key : String}
    (h : ∀ value, passes (key, value) = true) (value : α) (entries : List (String × α)) :
    (put key value entries).all passes = entries.all passes := by
  induction entries with
  | nil => rw [put, List.all_cons, h, List.all_nil, Bool.true_and]
  | cons entry rest ih =>
    obtain ⟨k, old⟩ := entry
    by_cases hk : k = key
    · subst hk
      rw [put, if_pos rfl, List.all_cons, List.all_cons, h, h]
    · rw [put, if_neg hk, List.all_cons, List.all_cons, ih]

end PreviewInstaller.TextMap
