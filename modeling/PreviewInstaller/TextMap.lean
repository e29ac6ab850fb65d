set_option autoImplicit false

/-! # Maps keyed by text

A map from text to values: a list of entries with one entry a key. A map is seen through `get?`;
`insert` changes what it says of one key and of no other. -/

namespace PreviewInstaller

/-- A map from text to values. -/
structure TextMap (α : Type) where
  entries : List (String × α)
  distinct : (entries.map (·.1)).Nodup
deriving DecidableEq, Repr

namespace TextMap

variable {α : Type}

/-- The map without entries. -/
def empty : TextMap α := ⟨[], List.nodup_nil⟩

instance : Inhabited (TextMap α) := ⟨empty⟩

/-- The value of the first of these entries with a key. -/
def find? (key : String) : List (String × α) → Option α
  | [] => none
  | (k, value) :: rest => if k = key then some value else find? key rest

/-- The value of a key. -/
def get? (map : TextMap α) (key : String) : Option α :=
  find? key map.entries

/-- Entries with the value of a key replaced in place, or added at the end. -/
def put (key : String) (value : α) : List (String × α) → List (String × α)
  | [] => [(key, value)]
  | (k, old) :: rest => if k = key then (key, value) :: rest else (k, old) :: put key value rest

theorem mem_keys_put {key k : String} {value : α} {entries : List (String × α)} :
    k ∈ (put key value entries).map (·.1) ↔ k = key ∨ k ∈ entries.map (·.1) := by
  induction entries with
  | nil => simp [put]
  | cons entry rest ih =>
    obtain ⟨k', old⟩ := entry
    simp only [put]
    split
    · next h =>
      subst h
      simp only [List.map_cons, List.mem_cons]
      constructor
      · rintro (h | h)
        · exact .inl h
        · exact .inr (.inr h)
      · rintro (h | h | h)
        · exact .inl h
        · exact .inl h
        · exact .inr h
    · simp only [List.map_cons, List.mem_cons, ih]
      constructor
      · rintro (h | h | h)
        · exact .inr (.inl h)
        · exact .inl h
        · exact .inr (.inr h)
      · rintro (h | h | h)
        · exact .inr (.inl h)
        · exact .inl h
        · exact .inr (.inr h)

theorem nodup_keys_put (key : String) (value : α) {entries : List (String × α)}
    (h : (entries.map (·.1)).Nodup) : ((put key value entries).map (·.1)).Nodup := by
  induction entries with
  | nil => simp [put]
  | cons entry rest ih =>
    obtain ⟨k, old⟩ := entry
    simp only [List.map_cons, List.nodup_cons] at h
    simp only [put]
    split
    · next hk =>
      subst hk
      simpa using h
    · next hk =>
      simp only [List.map_cons, List.nodup_cons, mem_keys_put]
      exact ⟨fun hm => hm.elim hk h.1, ih h.2⟩

/-- The map that says `value` of `key` and is otherwise as before. -/
def insert (map : TextMap α) (key : String) (value : α) : TextMap α :=
  ⟨put key value map.entries, nodup_keys_put key value map.distinct⟩

theorem find?_put (key k : String) (value : α) (entries : List (String × α)) :
    find? k (put key value entries) = if k = key then some value else find? k entries := by
  induction entries with
  | nil => simp [put, find?, eq_comm]
  | cons entry rest ih =>
    obtain ⟨k', old⟩ := entry
    simp only [put]
    split
    · next h =>
      subst h
      simp only [find?]
      by_cases hk : k' = k
      · simp [hk]
      · simp [hk, Ne.symm hk]
    · next h =>
      simp only [find?, ih]
      by_cases hk : k' = k
      · subst hk; simp [h]
      · simp [hk]

@[simp]
theorem get?_empty (key : String) : (empty : TextMap α).get? key = none := rfl

@[simp]
theorem get?_insert (map : TextMap α) (key k : String) (value : α) :
    (map.insert key value).get? k = if k = key then some value else map.get? k :=
  find?_put key k value map.entries

/-- The map with one entry. -/
def singleton (key : String) (value : α) : TextMap α :=
  empty.insert key value

/-- The map of entries of which the last with a key counts. -/
def ofEntries (entries : List (String × α)) : TextMap α :=
  entries.foldl (fun map (key, value) => map.insert key value) empty

end TextMap

end PreviewInstaller
