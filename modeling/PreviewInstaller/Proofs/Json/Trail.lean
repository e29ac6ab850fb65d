import PreviewInstaller.Json.Basic
import PreviewInstaller.TextMap

set_option autoImplicit false

/-! # Trails into JSON values

A trail leads from a value to one of its parts, member by member and element by element. Of members
with the same key the last one counts, as it does for readers of objects. -/

namespace PreviewInstaller.Json

/-! ## Members under a key -/

variable {key : String}

@[simp]
theorem lookup_nil (key : String) : lookup key [] = none := rfl

/-- The last member with a key is the first one from behind. -/
theorem lookup_eq_find? (key : String) (members : List (String × Json)) :
    lookup key members = TextMap.find? key members.reverse := by
  rw [lookup]
  induction members.reverse with
  | nil => rfl
  | cons member rest ih =>
    obtain ⟨k, value⟩ := member
    by_cases hk : k = key <;> simp [TextMap.find?, hk, ih]

theorem lookup_append (key : String) (front back : List (String × Json)) :
    lookup key (front ++ back) = (lookup key back).or (lookup key front) := by
  rw [lookup, List.reverse_append, List.find?_append, lookup, lookup]
  cases back.reverse.find? (·.1 = key) <;> rfl

theorem lookup_singleton (key k : String) (value : Json) :
    lookup key [(k, value)] = if k = key then some value else none := by
  by_cases hk : k = key <;> simp [lookup, hk]

theorem lookup_cons (key k : String) (value : Json) (rest : List (String × Json)) :
    lookup key ((k, value) :: rest) =
      (lookup key rest).or (if k = key then some value else none) := by
  rw [← List.singleton_append, lookup_append, lookup_singleton]

theorem lookup_eq_none_iff {members : List (String × Json)} :
    lookup key members = none ↔ key ∉ members.map (·.1) := by
  rw [lookup, Option.map_eq_none_iff, List.find?_eq_none]
  constructor
  · intro h hmem
    obtain ⟨member, hmember, hkey⟩ := List.mem_map.1 hmem
    exact h member (List.mem_reverse.2 hmember) (decide_eq_true hkey)
  · intro h member hmember hkey
    exact h (List.mem_map.2 ⟨member, List.mem_reverse.1 hmember, of_decide_eq_true hkey⟩)

theorem mem_of_lookup {members : List (String × Json)} {part : Json}
    (h : lookup key members = some part) : (key, part) ∈ members := by
  obtain ⟨⟨k, value⟩, hfind, rfl⟩ := Option.map_eq_some_iff.1 h
  have hk : k = key := by simpa using List.find?_some hfind
  exact hk ▸ List.mem_reverse.1 (List.mem_of_find?_eq_some hfind)

/-! ## Trails -/

/-- One step from a value to a part of it. -/
inductive Crumb where
  | member (key : String)
  | element (index : Nat)
deriving DecidableEq, Repr

/-- The steps from a value to a part of it. -/
abbrev Trail := List Crumb

/-- The part that a step leads to. -/
def child? : Json → Crumb → Option Json
  | .object members, .member key => lookup key members
  | .array elements, .element index => elements[index]?
  | _, _ => none

/-- The part that a trail leads to. -/
def at? : Trail → Json → Option Json
  | [], json => some json
  | crumb :: rest, json => (json.child? crumb).bind (at? rest)

theorem at?_cons (crumb : Crumb) (rest : Trail) (json : Json) :
    json.at? (crumb :: rest) = (json.child? crumb).bind (at? rest) := rfl

/-- Nothing but itself is within `null`. -/
theorem eq_null_of_at? {trail : Trail} {part : Json} (h : Json.null.at? trail = some part) :
    part = .null := by
  cases trail with
  | nil => exact (Option.some.inj h).symm
  | cons crumb rest => cases crumb <;> cases h

end PreviewInstaller.Json
