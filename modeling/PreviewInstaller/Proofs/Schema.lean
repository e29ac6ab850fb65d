import Mathlib.Data.List.Forall2
import PreviewInstaller.Codec
import PreviewInstaller.Proofs.Base64.Canonical
import PreviewInstaller.Proofs.Codec
import PreviewInstaller.Proofs.Json.Trail

set_option autoImplicit false

/-! # Schemas

A schema tells which parts of a JSON value a codec knows. What is read with the codec and written
again carries all parts that the schema knows: text, truth values and integers as they were, times
as the same instants, lists element by element and objects member by member. Parts that the schema
does not know are lost. -/

namespace PreviewInstaller

open Json (Crumb Trail)

/-- Which parts of a value are known. -/
inductive Schema where
  /-- The value is known as it is, with all its parts. -/
  | plain
  /-- A text that stands for an instant. -/
  | time
  | list (element : Schema)
  /-- An object with values of one kind under any keys. -/
  | map (value : Schema)
  /-- An object of which the members with these keys are known. -/
  | record (fields : List (String × Schema))

namespace Schema

/-- What is known of the part that a step leads to. -/
def child? : Schema → Crumb → Option Schema
  | .plain, _ => some .plain
  | .list element, .element _ => some element
  | .map value, .member _ => some value
  | .record fields, .member key => fields.lookup key
  | _, _ => none

/-- What is known of the part that a trail leads to. -/
def at? : Trail → Schema → Option Schema
  | [], schema => some schema
  | crumb :: rest, schema => (schema.child? crumb).bind (at? rest)

theorem at?_cons (crumb : Crumb) (rest : Trail) (schema : Schema) :
    schema.at? (crumb :: rest) = (schema.child? crumb).bind (at? rest) := rfl

@[simp]
theorem at?_plain (trail : Trail) : plain.at? trail = some .plain := by
  induction trail with
  | nil => rfl
  | cons crumb rest ih => exact ih

/-! ## Parts that are carried -/

/-- A value that is sent says what the one that was found says, as far as the schema looks at the
two and not into their parts. -/
inductive Kept : Schema → Json → Json → Prop where
  | plain (value : Json) : Kept .plain value value
  | time {found : Json} {instant : Instant} (h : Codec.instant.read found = some instant) :
      Kept .time found (Codec.instant.write instant)
  | list {element : Schema} {found sent : List Json} (h : found.length = sent.length) :
      Kept (.list element) (.array found) (.array sent)
  | map {value : Schema} (found sent : List (String × Json)) :
      Kept (.map value) (.object found) (.object sent)
  | record {fields : List (String × Schema)} (found sent : List (String × Json)) :
      Kept (.record fields) (.object found) (.object sent)

/-- A value that is sent carries all parts of the one that was found that the schema knows, apart
from those that are spared. A part that is `null` is as good as none. -/
def Carries (spared : Trail → Prop) (schema : Schema) (found sent : Json) : Prop :=
  ∀ trail known part, ¬ spared trail → schema.at? trail = some known →
    found.at? trail = some part → part ≠ .null →
      ∃ carried, sent.at? trail = some carried ∧ Kept known part carried

/-- No part is spared. -/
def nothing : Trail → Prop := fun _ => False

/-- The parts of a part that are spared. -/
def within (spared : Trail → Prop) (crumb : Crumb) : Trail → Prop :=
  fun rest => spared (crumb :: rest)

variable {spared : Trail → Prop} {schema : Schema} {found sent : Json}

theorem carries_plain (json : Json) : Carries spared .plain json json := by
  intro trail known part _ hknown hpart _
  rw [at?_plain] at hknown
  cases hknown
  exact ⟨part, hpart, .plain part⟩

theorem carries_null : Carries spared schema .null sent :=
  fun _ _ _ _ _ hpart hnull => absurd (Json.eq_null_of_at? hpart) hnull

/-- A value is carried if it is kept itself and all its parts are carried or spared. -/
theorem carries_of_children (hroot : Kept schema found sent)
    (h : ∀ crumb known part, schema.child? crumb = some known → found.child? crumb = some part →
      part ≠ .null → (∀ rest, spared (crumb :: rest)) ∨ ∃ carried,
        sent.child? crumb = some carried ∧ Carries (within spared crumb) known part carried) :
    Carries spared schema found sent := by
  intro trail known part hspared hknown hpart hnull
  cases trail with
  | nil =>
    cases hknown
    cases hpart
    exact ⟨sent, rfl, hroot⟩
  | cons crumb rest =>
    obtain ⟨knownChild, hknownChild, hknown⟩ := Option.bind_eq_some_iff.1 hknown
    obtain ⟨child, hchild, hpart⟩ := Option.bind_eq_some_iff.1 hpart
    have hchildNull : child ≠ .null := by
      rintro rfl
      exact hnull (Json.eq_null_of_at? hpart)
    rcases h crumb knownChild child hknownChild hchild hchildNull with
      hall | ⟨carried, hcarried, hrest⟩
    · exact absurd (hall rest) hspared
    · obtain ⟨part', hpart', hkept⟩ := hrest rest known part hspared hknown hpart hnull
      exact ⟨part', by rw [Json.at?_cons, hcarried, Option.bind_some, hpart'], hkept⟩

/-- A part of what is carried is carried. -/
theorem Carries.child (h : Carries nothing schema found sent) {crumb : Crumb} {known : Schema}
    {part : Json} (hknown : schema.child? crumb = some known)
    (hpart : found.child? crumb = some part) (hnull : part ≠ .null) :
    ∃ carried, sent.child? crumb = some carried ∧ Carries nothing known part carried := by
  have hknownAt : ∀ rest, schema.at? (crumb :: rest) = known.at? rest := by
    intro rest
    rw [at?_cons, hknown, Option.bind_some]
  have hpartAt : ∀ rest, found.at? (crumb :: rest) = part.at? rest := by
    intro rest
    rw [Json.at?_cons, hpart, Option.bind_some]
  obtain ⟨carried, hcarried, -⟩ := h [crumb] known part id (hknownAt []) (hpartAt []) hnull
  obtain ⟨child, hchild, ⟨⟩⟩ := Option.bind_eq_some_iff.1 hcarried
  refine ⟨carried, hchild, fun trail known' part' _ hknown' hpart' hnull' => ?_⟩
  obtain ⟨carried', hcarried', hkept⟩ := h (crumb :: trail) known' part' id
    ((hknownAt trail).trans hknown') ((hpartAt trail).trans hpart') hnull'
  rw [Json.at?_cons, hchild, Option.bind_some] at hcarried'
  exact ⟨carried', hcarried', hkept⟩

/-- What is carried is still carried after an edit that touches only parts that are spared. -/
theorem Carries.edit {edited : Json} (h : Carries nothing schema found sent)
    (hroot : Kept schema found sent → Kept schema found edited)
    (hedit : ∀ crumb known part carried, schema.child? crumb = some known →
      sent.child? crumb = some carried → Carries nothing known part carried →
        (∀ rest, spared (crumb :: rest)) ∨ ∃ other, edited.child? crumb = some other ∧
          Carries (within spared crumb) known part other) :
    Carries spared schema found edited := by
  by_cases hnull : found = .null
  · rw [hnull]
    exact carries_null
  obtain ⟨_, ⟨⟩, hkept⟩ := h [] schema found id rfl rfl hnull
  refine carries_of_children (hroot hkept) fun crumb known part hknown hpart hpartNull => ?_
  obtain ⟨carried, hcarried, hcarries⟩ := h.child hknown hpart hpartNull
  exact hedit crumb known part carried hknown hcarried hcarries

/-- What is carried without an exception is carried with any. -/
theorem Carries.sparing (h : Carries nothing schema found sent) :
    Carries spared schema found sent :=
  fun trail known part _ => h trail known part id

/-- An object is carried if each of its members is carried or spared. -/
theorem carries_record {fields : List (String × Schema)} {members sent : List (String × Json)}
    (h : ∀ key known part, fields.lookup key = some known → Json.lookup key members = some part →
      part ≠ .null → (∀ rest, spared (.member key :: rest)) ∨ ∃ carried,
        Json.lookup key sent = some carried ∧
          Carries (within spared (.member key)) known part carried) :
    Carries spared (.record fields) (.object members) (.object sent) := by
  refine carries_of_children (.record members sent) ?_
  rintro (key | index) known part hknown hpart hnull
  · exact h key known part hknown hpart hnull
  · cases hpart

/-- A map is carried if each of its members is carried or spared. -/
theorem carries_map {value : Schema} {members sent : List (String × Json)}
    (h : ∀ key part, Json.lookup key members = some part → part ≠ .null →
      (∀ rest, spared (.member key :: rest)) ∨ ∃ carried, Json.lookup key sent = some carried ∧
        Carries (within spared (.member key)) value part carried) :
    Carries spared (.map value) (.object members) (.object sent) := by
  refine carries_of_children (.map members sent) ?_
  rintro (key | index) known part hknown hpart hnull
  · cases hknown
    exact h key part hpart hnull
  · cases hpart

end Schema

/-! ## Codecs -/

open Schema

namespace Codec

variable {α β : Type} {codec : Codec α} {schema : Schema}

/-- What is read and written again carries all parts that the schema knows. -/
def Keeps (codec : Codec α) (schema : Schema) : Prop :=
  ∀ json value, codec.read json = some value → json ≠ .null →
    Carries nothing schema json (codec.write value)

/-- A part is carried whether it is `null` or not. -/
theorem Keeps.carries (h : codec.Keeps schema) {json : Json} {value : α}
    (hread : codec.read json = some value) : Carries nothing schema json (codec.write value) := by
  by_cases hnull : json = .null
  · rw [hnull]
    exact carries_null
  · exact h json value hread hnull

theorem keeps_of_write_eq (h : ∀ json value, codec.read json = some value → json ≠ .null →
    codec.write value = json) : codec.Keeps .plain := by
  intro json value hread hnull
  rw [h json value hread hnull]
  exact carries_plain json

theorem keeps_text : text.Keeps .plain := by
  refine keeps_of_write_eq fun json value hread _ => ?_
  cases json with
  | text value' =>
    cases hread
    rfl
  | _ => cases hread

theorem keeps_bool : bool.Keeps .plain := by
  refine keeps_of_write_eq fun json value hread _ => ?_
  cases json with
  | bool value' =>
    cases hread
    rfl
  | _ => cases hread

theorem eq_ofInt_of_integer? {json : Json} {value : Int} (h : json.integer? = some value) :
    json = .ofInt value := by
  cases json with
  | number number =>
    cases number with
    | integer value' =>
      cases h
      rfl
    | decimal negative digits exponent => cases h
  | _ => cases h

theorem keeps_int32 : int32.Keeps .plain := by
  refine keeps_of_write_eq fun json value hread _ => ?_
  obtain ⟨integer, hinteger, hrange⟩ := Option.bind_eq_some_iff.1 hread
  rw [eq_ofInt_of_integer? hinteger]
  split at hrange
  · next hbounds =>
    cases hrange
    have hbounds : -2 ^ 31 ≤ integer ∧ integer ≤ 2 ^ 31 - 1 := hbounds
    exact congrArg Json.ofInt (Int32.toInt_ofInt_of_le hbounds.1 (by omega))
  · cases hrange

theorem keeps_int64 : int64.Keeps .plain := by
  refine keeps_of_write_eq fun json value hread _ => ?_
  obtain ⟨integer, hinteger, hrange⟩ := Option.bind_eq_some_iff.1 hread
  rw [eq_ofInt_of_integer? hinteger]
  split at hrange
  · next hbounds =>
    cases hrange
    have hbounds : -2 ^ 63 ≤ integer ∧ integer ≤ 2 ^ 63 - 1 := hbounds
    exact congrArg Json.ofInt (Int64.toInt_ofInt_of_le hbounds.1 (by omega))
  · cases hrange

theorem keeps_instant : instant.Keeps .time := by
  intro json value hread _
  refine carries_of_children (.time hread) fun crumb known part hknown => ?_
  cases crumb <;> cases hknown

theorem eq_textOfBytes {text : String} {value : List UInt8} (h : bytesOfText? text = some value) :
    text = textOfBytes value := by
  unfold bytesOfText? at h
  cases hdecode : Base64.decode (Text.utf8 text.toList) with
  | error fault =>
    rw [hdecode] at h
    cases h
  | ok bytes =>
    rw [hdecode] at h
    cases h
    exact String.toList_inj.1 (utf8_eq_encode_iff.1 (Base64.decode_eq_ok_iff.1 hdecode))

theorem keeps_bytes : bytes.Keeps .plain := by
  refine keeps_of_write_eq fun json value hread hnull => ?_
  cases json with
  | null => exact absurd rfl hnull
  | text text => exact congrArg Json.text (eq_textOfBytes hread).symm
  | _ => cases hread

theorem keeps_any : any.Keeps .plain := by
  refine keeps_of_write_eq fun json value hread _ => ?_
  simp only [any, FieldValue.ofJson?] at hread
  split at hread
  · cases hread
    rfl
  · cases hread

theorem forall₂_of_mapM {f : α → Option β} {values : List α} {results : List β}
    (h : values.mapM f = some results) :
    List.Forall₂ (fun value result => f value = some result) values results := by
  induction values generalizing results with
  | nil =>
    cases h
    exact .nil
  | cons value rest ih =>
    rw [List.mapM_cons] at h
    obtain ⟨first, hfirst, h⟩ := Option.bind_eq_some_iff.1 h
    obtain ⟨others, hothers, ⟨⟩⟩ := Option.bind_eq_some_iff.1 h
    exact .cons hfirst (ih hothers)

theorem keeps_list (h : codec.Keeps schema) : (list codec).Keeps (.list schema) := by
  intro json values hread _
  cases json with
  | array elements =>
    have hall := forall₂_of_mapM (show elements.mapM codec.read = some values from hread)
    refine carries_of_children (.list (by rw [List.length_map, hall.length_eq])) ?_
    rintro (key | index) known part hknown hpart _
    · cases hpart
    · cases hknown
      obtain ⟨hindex, rfl⟩ := List.getElem?_eq_some_iff.1 hpart
      have hvalue : index < values.length := hall.length_eq ▸ hindex
      refine .inr ⟨codec.write values[index], ?_, ?_⟩
      · show (values.map codec.write)[index]? = _
        rw [List.getElem?_map, List.getElem?_eq_getElem hvalue, Option.map_some]
      · exact h.carries (hall.get hindex hvalue)
  | _ => cases hread

/-- Of the entries that are read from members the last one with a key is read from the last member
with it. -/
theorem find?_of_forall₂ {key : String} {members : List (String × Json)}
    {entries : List (String × α)}
    (h : List.Forall₂ (fun member entry =>
      (codec.read member.2).map (member.1, ·) = some entry) members entries) {part : Json}
    (hpart : TextMap.find? key members = some part) :
    ∃ value, TextMap.find? key entries = some value ∧ codec.read part = some value := by
  induction h with
  | nil => cases hpart
  | @cons member entry rest others hfirst _ ih =>
    obtain ⟨value, hvalue, rfl⟩ := Option.map_eq_some_iff.1 hfirst
    obtain ⟨k, json⟩ := member
    simp only [TextMap.find?] at hpart ⊢
    split at hpart
    · next hk =>
      cases hpart
      exact ⟨value, if_pos hk, hvalue⟩
    · next hk =>
      rw [if_neg hk]
      exact ih hpart

/-- A map is written with the value of each of its keys. -/
theorem lookup_write_map (codec : Codec α) (map : TextMap α) (key : String) :
    Json.lookup key (map.entries.map fun entry => (entry.1, codec.write entry.2)) =
      (map.get? key).map codec.write := by
  have hnodup :
      ((map.entries.map fun entry => (entry.1, codec.write entry.2)).map (·.1)).Nodup := by
    rw [List.map_map]
    exact map.distinct
  rw [Json.lookup_eq_find?, TextMap.find?_reverse hnodup, TextMap.find?_map, TextMap.get?]

theorem keeps_map (h : codec.Keeps schema) : (map codec).Keeps (.map schema) := by
  intro json value hread _
  cases json with
  | object members =>
    obtain ⟨entries, hentries, ⟨⟩⟩ := Option.bind_eq_some_iff.1 hread
    have hall := List.rel_reverse (forall₂_of_mapM hentries)
    refine carries_map fun key part hpart _ => .inr ?_
    rw [Json.lookup_eq_find?] at hpart
    obtain ⟨value, hvalue, hread⟩ := find?_of_forall₂ hall hpart
    refine ⟨codec.write value, ?_, h.carries hread⟩
    rw [lookup_write_map, TextMap.get?_ofEntries, hvalue, Option.map_some]
  | _ => cases hread

theorem keeps_either {second : Codec β} (hfirst : codec.Keeps schema)
    (hsecond : second.Keeps schema) : (either codec second).Keeps schema := by
  intro json value hread hnull
  simp only [either] at hread
  cases hcodec : codec.read json with
  | some value' =>
    rw [hcodec] at hread
    cases hread
    exact hfirst json value' hcodec hnull
  | none =>
    rw [hcodec] at hread
    obtain ⟨value', hvalue', rfl⟩ := Option.map_eq_some_iff.1 hread
    exact hsecond json value' hvalue' hnull

end Codec

/-! ## Fields -/

namespace Fields

variable {α β : Type}

/-! ### Members that are written -/

@[simp]
theorem lookup_write_optional (key k : String) (codec : Codec α) (value : Option α) :
    Json.lookup key ((optional k codec).write value) =
      if k = key then value.map codec.write else none := by
  cases value <;> simp [optional, Json.lookup_singleton]

@[simp]
theorem lookup_write_required (key k : String) (codec : Codec α) (zero value : α) :
    Json.lookup key ((required k codec zero).write value) =
      if k = key then some (codec.write value) else none :=
  Json.lookup_singleton key k _

@[simp]
theorem lookup_write_tag (key k text : String) (value : Unit) :
    Json.lookup key ((tag k text).write value) = if k = key then some (.text text) else none :=
  Json.lookup_singleton key k _

@[simp]
theorem lookup_write_both (key : String) (first : Fields α) (second : Fields β) (value : α × β) :
    Json.lookup key ((first.both second).write value) =
      (Json.lookup key (second.write value.2)).or (Json.lookup key (first.write value.1)) :=
  Json.lookup_append key _ _

@[simp]
theorem lookup_write_as (key : String) (fields : Fields α) (make : α → β) (parts : β → α)
    (value : β) : Json.lookup key ((fields.as make parts).write value) =
      Json.lookup key (fields.write (parts value)) := rfl

/-! ### Members that are known -/

/-- Of each known key what is read from its last member is written under it, and nothing is written
under any other key. -/
structure Keeps (fields : Fields α) (table : List (String × Schema)) : Prop where
  key_mem : ∀ value, ∀ member ∈ fields.write value, member.1 ∈ table.map (·.1)
  carries : ∀ {members value key known part}, fields.read members = some value →
    table.lookup key = some known → Json.lookup key members = some part → part ≠ .null →
      ∃ carried, Json.lookup key (fields.write value) = some carried ∧
        Carries nothing known part carried

theorem eq_of_lookup_singleton {key k : String} {schema known : Schema}
    (h : [(k, schema)].lookup key = some known) : key = k ∧ known = schema := by
  obtain ⟨before, after, hsplit, -⟩ := List.lookup_eq_some_iff.1 h
  cases before with
  | nil =>
    cases hsplit
    exact ⟨rfl, rfl⟩
  | cons first others => simp at hsplit

theorem readLast_cons_null {key : String} {codec : Codec α} {before : Option α}
    {rest : List (String × Json)} :
    readLast key codec before ((key, .null) :: rest) = readLast key codec none rest := by
  rw [readLast.eq_def]
  exact if_pos rfl

/-- The last member with a key is read, unless it is `null`. -/
theorem readLast_of_lookup {key : String} {codec : Codec α} {before value : Option α}
    {members : List (String × Json)} {part : Json}
    (hread : readLast key codec before members = some value)
    (hpart : Json.lookup key members = some part) (hnull : part ≠ .null) :
    ∃ last, codec.read part = some last ∧ value = some last := by
  induction members generalizing before with
  | nil => cases hpart
  | cons member rest ih =>
    obtain ⟨k, json⟩ := member
    rw [Json.lookup_cons] at hpart
    cases hrest : Json.lookup key rest with
    | some later =>
      obtain rfl : later = part := by
        rw [hrest] at hpart
        exact Option.some.inj hpart
      -- the first member only changes what counts if nothing follows
      by_cases hk : k = key
      · subst hk
        by_cases hjson : json = .null
        · subst hjson
          rw [readLast_cons_null] at hread
          exact ih hread hrest
        · rw [readLast_cons_self hjson] at hread
          obtain ⟨value', -, hread⟩ := Option.bind_eq_some_iff.1 hread
          exact ih hread hrest
      · rw [readLast_cons_of_ne hk] at hread
        exact ih hread hrest
    | none =>
      rw [hrest, Option.none_or] at hpart
      split at hpart
      · next hk =>
        cases hpart
        subst hk
        rw [readLast_cons_self hnull] at hread
        obtain ⟨last, hlast, hread⟩ := Option.bind_eq_some_iff.1 hread
        have hothers : ∀ member ∈ rest, member.1 ≠ k := fun member hmember hkey =>
          Json.lookup_eq_none_iff.1 hrest (List.mem_map.2 ⟨member, hmember, hkey⟩)
        rw [readLast_of_notMem hothers] at hread
        exact ⟨last, hlast, (Option.some.inj hread).symm⟩
      · cases hpart

theorem keeps_optional (key : String) {codec : Codec α} {schema : Schema}
    (h : codec.Keeps schema) : (optional key codec).Keeps [(key, schema)] where
  key_mem := by
    rintro (_ | value) member hmember
    · cases hmember
    · rw [List.mem_singleton.1 hmember]
      exact List.mem_singleton_self key
  carries := by
    intro members value key' known part hread hknown hpart hnull
    obtain ⟨rfl, rfl⟩ := eq_of_lookup_singleton hknown
    obtain ⟨last, hlast, rfl⟩ := readLast_of_lookup hread hpart hnull
    exact ⟨codec.write last, by simp, h.carries hlast⟩

theorem keeps_required (key : String) {codec : Codec α} {schema : Schema}
    (h : codec.Keeps schema) (zero : α) : (required key codec zero).Keeps [(key, schema)] where
  key_mem := by
    rintro value member hmember
    rw [List.mem_singleton.1 hmember]
    exact List.mem_singleton_self key
  carries := by
    intro members value key' known part hread hknown hpart hnull
    obtain ⟨rfl, rfl⟩ := eq_of_lookup_singleton hknown
    obtain ⟨value', hvalue, rfl⟩ := Option.map_eq_some_iff.1 hread
    obtain ⟨last, hlast, rfl⟩ := readLast_of_lookup hvalue hpart hnull
    exact ⟨codec.write last, by simp, h.carries hlast⟩

theorem keeps_tag (key value : String) : (tag key value).Keeps [(key, .plain)] where
  key_mem := by
    rintro _ member hmember
    rw [List.mem_singleton.1 hmember]
    exact List.mem_singleton_self key
  carries := by
    intro members _ key' known part hread hknown hpart hnull
    obtain ⟨rfl, rfl⟩ := eq_of_lookup_singleton hknown
    have hmember := Json.mem_of_lookup hpart
    simp only [tag] at hread
    split at hread
    · next hall =>
      have htext := List.all_eq_true.1 hall _ hmember
      cases part with
      | text text =>
        obtain rfl : text = value := by simpa [Json.text?] using htext
        exact ⟨_, by simp, carries_plain _⟩
      | _ => simp [Json.text?] at htext
    · cases hread

theorem keeps_empty : empty.Keeps [] where
  key_mem := nofun
  carries := nofun

/-- Parts with different keys do not write each other's members. -/
theorem keeps_both {first : Fields α} {second : Fields β} {table table' : List (String × Schema)}
    (hfirst : first.Keeps table)
    (h : ∀ key ∈ table.map (·.1), key ∉ table'.map (·.1)) (hsecond : second.Keeps table') :
    (first.both second).Keeps (table ++ table') where
  key_mem := by
    rintro ⟨a, b⟩ member hmember
    rw [List.map_append, List.mem_append]
    exact (List.mem_append.1 hmember).imp (hfirst.key_mem a member) (hsecond.key_mem b member)
  carries := by
    rintro members ⟨a, b⟩ key known part hread hknown hpart hnull
    obtain ⟨ha, hb⟩ := read_both_iff.1 hread
    rw [List.lookup_append] at hknown
    rw [lookup_write_both]
    cases htable : table.lookup key with
    | some known' =>
      rw [htable] at hknown
      cases hknown
      obtain ⟨carried, hcarried, hcarries⟩ := hfirst.carries ha htable hpart hnull
      have hkey : key ∈ table.map (·.1) := by
        obtain ⟨before, after, rfl, -⟩ := List.lookup_eq_some_iff.1 htable
        simp
      have hother : Json.lookup key (second.write b) = none := by
        refine Json.lookup_eq_none_iff.2 fun hmem => ?_
        obtain ⟨member, hmember, rfl⟩ := List.mem_map.1 hmem
        exact h _ hkey (hsecond.key_mem b member hmember)
      exact ⟨carried, by rw [hother, Option.none_or, hcarried], hcarries⟩
    | none =>
      rw [htable] at hknown
      obtain ⟨carried, hcarried, hcarries⟩ := hsecond.carries hb hknown hpart hnull
      exact ⟨carried, by rw [hcarried, Option.some_or], hcarries⟩

theorem keeps_as {fields : Fields α} {table : List (String × Schema)} (h : fields.Keeps table)
    {make : α → β} {parts : β → α} (hparts : ∀ value, parts (make value) = value) :
    (fields.as make parts).Keeps table where
  key_mem value := h.key_mem (parts value)
  carries := by
    intro members value key known part hread hknown hpart hnull
    obtain ⟨value', hvalue, rfl⟩ := Option.map_eq_some_iff.1 hread
    rw [lookup_write_as, hparts]
    exact h.carries hvalue hknown hpart hnull

end Fields

theorem Codec.keeps_object {α : Type} {fields : Fields α} {table : List (String × Schema)}
    (h : fields.Keeps table) : (object fields).Keeps (.record table) := by
  intro json value hread _
  cases json with
  | object members =>
    exact carries_record fun key known part hknown hpart hnull =>
      .inr (h.carries hread hknown hpart hnull)
  | _ => cases hread

end PreviewInstaller
