import PreviewInstaller.Codec
import PreviewInstaller.Proofs.Base64
import PreviewInstaller.Proofs.Instant
import PreviewInstaller.Proofs.Text.Utf8
import PreviewInstaller.Proofs.TextMap

set_option autoImplicit false

/-! # Laws of codecs

A codec is lawful if it reads what it writes, and it settles values if it reads what it writes as
another value, of which nothing is lost any more. Fields do so if they find their value among the
members of other fields, so that parts with different keys make a whole. A codec refines another one
if what it reads tells what the other one reads, and both write the same of it. -/

namespace PreviewInstaller

/-- What is written has meaning throughout and is read as the settled value, and it is not `null`,
which would stand for no member. -/
structure Codec.Settles {α : Type} (codec : Codec α) (settle : α → α) : Prop where
  read_write : ∀ value, codec.read (codec.write value) = some (settle value)
  write_ne_null : ∀ value, codec.write value ≠ .null
  write_readable : ∀ value, (codec.write value).isReadable = true

/-- What is written has meaning throughout and is read, and is not `null`, which would stand for no
member. -/
structure Codec.Lawful {α : Type} (codec : Codec α) : Prop where
  read_write : ∀ value, codec.read (codec.write value) = some value
  write_ne_null : ∀ value, codec.write value ≠ .null
  write_readable : ∀ value, (codec.write value).isReadable = true

/-- Only members with these keys are written, and what is written is read among any members with
other keys as the settled value. -/
structure Fields.Settles {α : Type} (fields : Fields α) (keys : List String) (settle : α → α) :
    Prop where
  key_mem : ∀ value, ∀ member ∈ fields.write value, member.1 ∈ keys
  read_write : ∀ value before after, (∀ member ∈ before, member.1 ∉ keys) →
    (∀ member ∈ after, member.1 ∉ keys) →
      fields.read (before ++ fields.write value ++ after) = some (settle value)
  write_readable : ∀ value, Json.haveReadable (fields.write value) = true

/-- Only members with these keys are written, and what is written is read among any members with
other keys. -/
structure Fields.Lawful {α : Type} (fields : Fields α) (keys : List String) : Prop where
  key_mem : ∀ value, ∀ member ∈ fields.write value, member.1 ∈ keys
  read_write : ∀ value before after, (∀ member ∈ before, member.1 ∉ keys) →
    (∀ member ∈ after, member.1 ∉ keys) →
      fields.read (before ++ fields.write value ++ after) = some value
  write_readable : ∀ value, Json.haveReadable (fields.write value) = true

/-- The coarser codec reads what the finer one does, up to a change of values, and writes what the
finer one does. -/
structure Codec.Refines {α β : Type} (fine : Codec α) (coarse : Codec β) (change : α → β) :
    Prop where
  read_eq : ∀ json, coarse.read json = (fine.read json).map change
  write_eq : ∀ value, coarse.write (change value) = fine.write value

/-- The coarser fields are read as the finer ones are, up to a change of values, and written as they
are. -/
structure Fields.Refines {α β : Type} (fine : Fields α) (coarse : Fields β) (change : α → β) :
    Prop where
  read_eq : ∀ members, coarse.read members = (fine.read members).map change
  write_eq : ∀ value, coarse.write (change value) = fine.write value

section Lawful

variable {α : Type}

theorem Codec.Lawful.settles {codec : Codec α} (h : codec.Lawful) : codec.Settles id :=
  ⟨h.read_write, h.write_ne_null, h.write_readable⟩

theorem Codec.Settles.lawful {codec : Codec α} {settle : α → α} (h : codec.Settles settle)
    (hid : settle = id) : codec.Lawful := by
  subst hid
  exact ⟨h.read_write, h.write_ne_null, h.write_readable⟩

theorem Fields.Lawful.settles {fields : Fields α} {keys : List String} (h : fields.Lawful keys) :
    fields.Settles keys id :=
  ⟨h.key_mem, h.read_write, h.write_readable⟩

theorem Fields.Settles.lawful {fields : Fields α} {keys : List String} {settle : α → α}
    (h : fields.Settles keys settle) (hid : settle = id) : fields.Lawful keys := by
  subst hid
  exact ⟨h.key_mem, h.read_write, h.write_readable⟩

end Lawful

namespace Json

theorem areReadable_map {α : Type} {write : α → Json} (h : ∀ value, (write value).isReadable = true)
    (values : List α) : areReadable (values.map write) = true := by
  induction values with
  | nil => rfl
  | cons value rest ih => exact Bool.and_eq_true_iff.2 ⟨h value, ih⟩

theorem haveReadable_map {α : Type} {write : α → Json}
    (h : ∀ value, (write value).isReadable = true) (entries : List (String × α)) :
    haveReadable (entries.map fun (key, value) => (key, write value)) = true := by
  induction entries with
  | nil => rfl
  | cons entry rest ih => exact Bool.and_eq_true_iff.2 ⟨h entry.2, ih⟩

theorem haveReadable_append {front back : List (String × Json)} (hfront : haveReadable front = true)
    (hback : haveReadable back = true) : haveReadable (front ++ back) = true := by
  induction front with
  | nil => exact hback
  | cons member rest ih =>
    obtain ⟨hmember, hrest⟩ := Bool.and_eq_true_iff.1 hfront
    exact Bool.and_eq_true_iff.2 ⟨hmember, ih hrest⟩

/-- Every integer of 64 bits can be read. -/
theorem isReadable_ofInt {value : Int} (hlow : Int64.minValue.toInt ≤ value)
    (hhigh : value ≤ Int64.maxValue.toInt) : (ofInt value).isReadable = true := by
  have hpow : Int.pow 2 63 = -Int64.minValue.toInt ∧ Int64.maxValue.toInt < Int.pow 2 64 := by
    decide
  simp only [ofInt, isReadable, isNormal, Bool.and_eq_true, decide_eq_true_eq]
  omega

end Json

namespace Codec

variable {α β : Type}

/-! ## Scalars -/

theorem lawful_text : text.Lawful :=
  ⟨fun _ => rfl, nofun, fun _ => rfl⟩

theorem lawful_bool : bool.Lawful :=
  ⟨fun _ => rfl, nofun, fun _ => rfl⟩

theorem lawful_int32 : int32.Lawful := by
  refine ⟨fun value => ?_, nofun, fun value => ?_⟩
  · have hrange := And.intro value.minValue_le_toInt value.toInt_le
    show (if _ then _ else _) = _
    rw [if_pos hrange, Int32.ofInt_toInt]
  · have hlow : Int64.minValue.toInt ≤ Int32.minValue.toInt := by decide
    have hhigh : Int32.maxValue.toInt ≤ Int64.maxValue.toInt := by decide
    exact Json.isReadable_ofInt (Int.le_trans hlow value.minValue_le_toInt)
      (Int.le_trans value.toInt_le hhigh)

theorem lawful_int64 : int64.Lawful := by
  refine ⟨fun value => ?_, nofun, fun value => ?_⟩
  · have hrange := And.intro value.minValue_le_toInt value.toInt_le
    show (if _ then _ else _) = _
    rw [if_pos hrange, Int64.ofInt_toInt]
  · exact Json.isReadable_ofInt value.minValue_le_toInt value.toInt_le

theorem lawful_instant : instant.Lawful := by
  refine ⟨fun value => ?_, fun value => ?_, fun _ => rfl⟩
  · simp only [instant, Json.text?, Option.bind_some]
    exact Instant.read?_rfc3339 value
  · simp only [instant, ne_eq, reduceCtorEq, not_false_eq_true]

/-- A point in time is written as the second that it lies in, and read as the start of that. -/
theorem settles_pointInTime : pointInTime.Settles PointInTime.floor := by
  refine ⟨fun value => ?_, fun value => ?_, fun _ => rfl⟩
  · simp only [pointInTime, Json.text?, Option.bind_some]
    exact Instant.readPointInTime?_rfc3339 value.instant
  · simp only [pointInTime, ne_eq, reduceCtorEq, not_false_eq_true]

theorem utf8_textOfBytes (bytes : List UInt8) :
    Text.utf8 (textOfBytes bytes).toList = Base64.encode bytes := by
  rw [textOfBytes, String.toList_ofList, Text.utf8_map_ofNat (Base64.encode_lt bytes)]

/-- A text with the bytes of a base64 text is that text. -/
theorem utf8_eq_encode_iff {text : List Char} {bytes : List UInt8} :
    Text.utf8 text = Base64.encode bytes ↔ text = (textOfBytes bytes).toList := by
  rw [← utf8_textOfBytes]
  constructor
  · intro h
    have hread := Text.decodeUtf8_utf8 text
    rw [h, Text.decodeUtf8_utf8] at hread
    exact (Except.ok.inj hread).symm
  · rintro rfl
    rfl

theorem bytesOfText?_textOfBytes (value : List UInt8) :
    bytesOfText? (textOfBytes value) = some value := by
  rw [bytesOfText?, utf8_textOfBytes, Base64.decode_encode]
  rfl

theorem lawful_bytes : bytes.Lawful :=
  ⟨fun value => bytesOfText?_textOfBytes value, nofun, fun _ => rfl⟩

theorem lawful_any : any.Lawful := by
  refine ⟨fun value => ?_, fun value h => ?_, fun value => value.readable⟩
  · exact dif_pos ⟨value.readable, value.present⟩
  · have hpresent := value.present
    rw [show value.json = .null from h] at hpresent
    exact absurd hpresent (by decide)

/-! ## Lists, maps and choices -/

theorem mapM_map_eq_some {γ : Type} {f : β → Option γ} {g : α → β} {h : α → γ}
    (hfg : ∀ a, f (g a) = some (h a)) (values : List α) :
    (values.map g).mapM f = some (values.map h) := by
  induction values with
  | nil => rfl
  | cons value rest ih =>
    rw [List.map_cons, List.mapM_cons, hfg, ih]
    rfl

theorem settles_list {codec : Codec α} {settle : α → α} (h : codec.Settles settle) :
    (list codec).Settles (List.map settle) :=
  ⟨fun value => mapM_map_eq_some h.read_write value, nofun,
    fun value => Json.areReadable_map h.write_readable value⟩

theorem lawful_list {codec : Codec α} (h : codec.Lawful) : (list codec).Lawful :=
  (settles_list h.settles).lawful List.map_id_fun

theorem lawful_map {codec : Codec α} (h : codec.Lawful) : (map codec).Lawful := by
  refine ⟨fun value => ?_, nofun, fun value => Json.haveReadable_map h.write_readable value.entries⟩
  have hentries : (value.entries.map fun entry => (entry.1, codec.write entry.2)).mapM
      (fun member => (codec.read member.2).map (member.1, ·)) = some value.entries := by
    rw [mapM_map_eq_some (h := id), List.map_id]
    intro entry
    rw [h.read_write]
    rfl
  simp only [map, Json.members?, Option.bind_eq_bind, Option.bind_some, hentries]
  exact congrArg some (TextMap.ofEntries_entries value)

/-- Either of two types is told by what the first one does not read. -/
theorem lawful_either {first : Codec α} {second : Codec β} (hfirst : first.Lawful)
    (hsecond : second.Lawful) (h : ∀ value, first.read (second.write value) = none) :
    (either first second).Lawful := by
  refine ⟨?_, ?_, ?_⟩
  · rintro (value | value)
    · simp [either, hfirst.read_write]
    · simp [either, h, hsecond.read_write]
  · rintro (value | value)
    · exact hfirst.write_ne_null value
    · exact hsecond.write_ne_null value
  · rintro (value | value)
    · exact hfirst.write_readable value
    · exact hsecond.write_readable value

theorem settles_object {fields : Fields α} {keys : List String} {settle : α → α}
    (h : fields.Settles keys settle) : (object fields).Settles settle := by
  refine ⟨fun value => ?_, nofun, h.write_readable⟩
  have hread := h.read_write value [] [] (by simp) (by simp)
  rwa [List.nil_append, List.append_nil] at hread

theorem lawful_object {fields : Fields α} {keys : List String} (h : fields.Lawful keys) :
    (object fields).Lawful :=
  (settles_object h.settles).lawful rfl

end Codec

namespace Fields

variable {α β : Type}

/-! ## Fields -/

theorem readLast_cons_of_ne {key k : String} {codec : Codec α} {before : Option α} {json : Json}
    {rest : List (String × Json)} (h : k ≠ key) :
    readLast key codec before ((k, json) :: rest) = readLast key codec before rest := by
  rw [readLast.eq_def]
  exact if_neg h

theorem readLast_cons_self {key : String} {codec : Codec α} {before : Option α} {json : Json}
    {rest : List (String × Json)} (h : json ≠ .null) :
    readLast key codec before ((key, json) :: rest) =
      (codec.read json).bind fun value => readLast key codec (some value) rest := by
  rw [readLast.eq_def]
  cases json with
  | null => exact absurd rfl h
  | _ => exact if_pos rfl

/-- Members with other keys are passed over. -/
theorem readLast_append_of_notMem {key : String} {codec : Codec α} {before : Option α}
    {front back : List (String × Json)} (h : ∀ member ∈ front, member.1 ≠ key) :
    readLast key codec before (front ++ back) = readLast key codec before back := by
  induction front with
  | nil => rfl
  | cons member rest ih =>
    obtain ⟨k, json⟩ := member
    rw [List.cons_append, readLast_cons_of_ne (h _ (List.mem_cons_self ..))]
    exact ih fun member hmember => h member (List.mem_cons_of_mem _ hmember)

theorem readLast_of_notMem {key : String} {codec : Codec α} {before : Option α}
    {members : List (String × Json)} (h : ∀ member ∈ members, member.1 ≠ key) :
    readLast key codec before members = some before := by
  rw [← List.append_nil members, readLast_append_of_notMem h]
  rfl

/-- The only member with a key is read. -/
theorem readLast_only {key : String} {codec : Codec α} {settle : α → α} (h : codec.Settles settle)
    {before : Option α} {front back : List (String × Json)} (value : α)
    (hfront : ∀ member ∈ front, member.1 ≠ key) (hback : ∀ member ∈ back, member.1 ≠ key) :
    readLast key codec before (front ++ [(key, codec.write value)] ++ back) =
      some (some (settle value)) := by
  rw [List.append_assoc, readLast_append_of_notMem hfront, List.singleton_append,
    readLast_cons_self (h.write_ne_null value), h.read_write, Option.bind_some,
    readLast_of_notMem hback]

theorem settles_optional (key : String) {codec : Codec α} {settle : α → α}
    (h : codec.Settles settle) : (optional key codec).Settles [key] (Option.map settle) := by
  refine ⟨?_, ?_, ?_⟩
  · rintro (_ | value) member hmember
    · cases hmember
    · rw [List.mem_singleton.1 hmember]
      exact List.mem_singleton.2 rfl
  · rintro (_ | value) front back hfront hback
    · simp only [optional, List.append_nil, Option.map_none]
      rw [readLast_append_of_notMem (by simpa using hfront), readLast_of_notMem]
      simpa using hback
    · exact readLast_only h value (by simpa using hfront) (by simpa using hback)
  · rintro (_ | value)
    · rfl
    · exact Bool.and_eq_true_iff.2 ⟨h.write_readable value, rfl⟩

theorem lawful_optional (key : String) {codec : Codec α} (h : codec.Lawful) :
    (optional key codec).Lawful [key] :=
  (settles_optional key h.settles).lawful Option.map_id

theorem settles_required (key : String) {codec : Codec α} {settle : α → α}
    (h : codec.Settles settle) (zero : α) : (required key codec zero).Settles [key] settle := by
  refine ⟨?_, ?_, fun value => Bool.and_eq_true_iff.2 ⟨h.write_readable value, rfl⟩⟩
  · intro value member hmember
    rw [List.mem_singleton.1 hmember]
    exact List.mem_singleton.2 rfl
  · intro value front back hfront hback
    simp only [required]
    rw [readLast_only h value (by simpa using hfront) (by simpa using hback)]
    rfl

theorem lawful_required (key : String) {codec : Codec α} (h : codec.Lawful) (zero : α) :
    (required key codec zero).Lawful [key] :=
  (settles_required key h.settles zero).lawful rfl

theorem lawful_empty : empty.Lawful [] :=
  ⟨nofun, fun _ _ _ _ _ => rfl, fun _ => rfl⟩

theorem lawful_tag (key value : String) : (tag key value).Lawful [key] := by
  refine ⟨?_, ?_, fun _ => rfl⟩
  · intro _ member hmember
    rw [List.mem_singleton.1 hmember]
    exact List.mem_singleton.2 rfl
  · intro _ front back hfront hback
    simp only [tag]
    rw [if_pos]
    simp only [List.all_append, List.all_cons, List.all_nil, Bool.and_eq_true, List.all_eq_true]
    refine ⟨⟨?_, by simp [Json.text?]⟩, ?_⟩
    · intro member hmember
      simpa using Or.inl (hfront member hmember)
    · intro member hmember
      simpa using Or.inl (hback member hmember)

/-- Parts with different keys do not read each other's members. -/
theorem settles_both {first : Fields α} {second : Fields β} {firstKeys secondKeys : List String}
    {settle : α → α} {settle' : β → β} (hfirst : first.Settles firstKeys settle)
    (h : ∀ key ∈ firstKeys, key ∉ secondKeys) (hsecond : second.Settles secondKeys settle') :
    (first.both second).Settles (firstKeys ++ secondKeys) (Prod.map settle settle') := by
  refine ⟨?_, ?_, fun (a, b) =>
    Json.haveReadable_append (hfirst.write_readable a) (hsecond.write_readable b)⟩
  · rintro ⟨a, b⟩ member hmember
    rcases List.mem_append.1 hmember with hmem | hmem
    · exact List.mem_append_left _ (hfirst.key_mem a member hmem)
    · exact List.mem_append_right _ (hsecond.key_mem b member hmem)
  · rintro ⟨a, b⟩ front back hfront hback
    have ha := hfirst.read_write a front (second.write b ++ back)
      (fun member hmem hkey => hfront member hmem (List.mem_append_left _ hkey))
      (fun member hmem hkey => by
        rcases List.mem_append.1 hmem with hmem | hmem
        · exact h _ hkey (hsecond.key_mem b member hmem)
        · exact hback member hmem (List.mem_append_left _ hkey))
    have hb := hsecond.read_write b (front ++ first.write a) back
      (fun member hmem hkey => by
        rcases List.mem_append.1 hmem with hmem | hmem
        · exact hfront member hmem (List.mem_append_right _ hkey)
        · exact h _ (hfirst.key_mem a member hmem) hkey)
      (fun member hmem hkey => hback member hmem (List.mem_append_right _ hkey))
    have happend : front ++ (first.write a ++ second.write b) ++ back =
        front ++ first.write a ++ second.write b ++ back := by
      rw [← List.append_assoc front]
    simp only [both, happend, hb]
    rw [List.append_assoc (front ++ first.write a), ha]
    rfl

theorem lawful_both {first : Fields α} {second : Fields β} {firstKeys secondKeys : List String}
    (hfirst : first.Lawful firstKeys) (h : ∀ key ∈ firstKeys, key ∉ secondKeys)
    (hsecond : second.Lawful secondKeys) :
    (first.both second).Lawful (firstKeys ++ secondKeys) :=
  (settles_both hfirst.settles h hsecond.settles).lawful Prod.map_id

theorem settles_as {fields : Fields α} {keys : List String} {settle : α → α} {settle' : β → β}
    (h : fields.Settles keys settle) {make : α → β} {parts : β → α}
    (hmake : ∀ value, make (settle (parts value)) = settle' value) :
    (fields.as make parts).Settles keys settle' := by
  refine ⟨fun value => h.key_mem (parts value), fun value front back hfront hback => ?_,
    fun value => h.write_readable (parts value)⟩
  simp only [Fields.as]
  rw [h.read_write (parts value) front back hfront hback, Option.map_some, hmake]

theorem lawful_as {fields : Fields α} {keys : List String} (h : fields.Lawful keys)
    {make : α → β} {parts : β → α} (hmake : ∀ value, make (parts value) = value) :
    (fields.as make parts).Lawful keys :=
  Settles.lawful (settles_as h.settles hmake) (funext fun _ => rfl)

/-! ## Members that are set -/

/-- The fields are read as before, whatever is set under a key. -/
def Ignores (fields : Fields α) (key : String) : Prop :=
  ∀ json members, fields.read (TextMap.put key json members) = fields.read members

theorem readLast_put_of_ne {key k : String} {codec : Codec α} {before : Option α} (h : k ≠ key)
    (json : Json) (members : List (String × Json)) :
    readLast key codec before (TextMap.put k json members) = readLast key codec before members := by
  induction members generalizing before with
  | nil => exact readLast_cons_of_ne h
  | cons member rest ih =>
    obtain ⟨k', old⟩ := member
    by_cases hk : k' = k
    · subst hk
      rw [TextMap.put, if_pos rfl, readLast_cons_of_ne h, readLast_cons_of_ne h]
    · rw [TextMap.put, if_neg hk, readLast.eq_def, readLast.eq_def _ _ _ ((k', old) :: rest)]
      simp only [ih]

/-- What is set under a key that occurs at most once is read. -/
theorem readLast_put_self {key : String} {codec : Codec α} (h : codec.Lawful) (value : α)
    (before : Option α) {members : List (String × Json)} (hnodup : (members.map (·.1)).Nodup) :
    readLast key codec before (TextMap.put key (codec.write value) members) =
      some (some value) := by
  induction members generalizing before with
  | nil =>
    rw [TextMap.put, readLast_cons_self (h.write_ne_null value), h.read_write]
    rfl
  | cons member rest ih =>
    obtain ⟨k, old⟩ := member
    obtain ⟨hk, hrest⟩ := List.nodup_cons.1 hnodup
    by_cases hkey : k = key
    · subst hkey
      rw [TextMap.put, if_pos rfl, readLast_cons_self (h.write_ne_null value), h.read_write,
        Option.bind_some]
      refine readLast_of_notMem fun member hmem heq => hk ?_
      exact List.mem_map.2 ⟨member, hmem, heq⟩
    · rw [TextMap.put, if_neg hkey, readLast_cons_of_ne hkey]
      exact ih before hrest

theorem ignores_optional {key k : String} (codec : Codec α) (h : k ≠ key) :
    (optional key codec).Ignores k :=
  fun json members => readLast_put_of_ne h json members

theorem ignores_required {key k : String} (codec : Codec α) (zero : α) (h : k ≠ key) :
    (required key codec zero).Ignores k :=
  fun json members => congrArg (Option.map (Option.getD · zero)) (readLast_put_of_ne h json members)

theorem ignores_tag {key k : String} (value : String) (h : k ≠ key) :
    (tag key value).Ignores k := by
  intro json members
  simp only [tag]
  rw [TextMap.all_put fun json => by simp [h]]

/-- Two parts are read where each of them is. -/
theorem read_both_iff {first : Fields α} {second : Fields β} {members : List (String × Json)}
    {a : α} {b : β} : (first.both second).read members = some (a, b) ↔
      first.read members = some a ∧ second.read members = some b := by
  constructor
  · intro h
    obtain ⟨a', ha, hrest⟩ := Option.bind_eq_some_iff.1 h
    obtain ⟨b', hb, hpair⟩ := Option.bind_eq_some_iff.1 hrest
    cases hpair
    exact ⟨ha, hb⟩
  · rintro ⟨ha, hb⟩
    simp [both, ha, hb]

end Fields

/-! ## Refinement -/

namespace Codec

variable {α β : Type} {fine : Codec α} {coarse : Codec β} {change : α → β}

theorem refines_refl (codec : Codec α) : codec.Refines codec id :=
  ⟨fun _ => (Option.map_id_apply).symm, fun _ => rfl⟩

/-- A point in time tells the second that it lies in. -/
theorem refines_pointInTime : pointInTime.Refines instant PointInTime.instant := by
  refine ⟨fun json => ?_, fun _ => rfl⟩
  simp only [instant, pointInTime]
  cases json.text? <;> rfl

theorem mapM_map_read (h : fine.Refines coarse change) (elements : List Json) :
    elements.mapM coarse.read = (elements.mapM fine.read).map (List.map change) := by
  induction elements with
  | nil => rfl
  | cons json rest ih =>
    rw [List.mapM_cons, List.mapM_cons, h.read_eq, ih]
    cases fine.read json with
    | none => rfl
    | some value => cases rest.mapM fine.read <;> rfl

theorem refines_list (h : fine.Refines coarse change) :
    (list fine).Refines (list coarse) (List.map change) := by
  refine ⟨fun json => ?_, fun value => ?_⟩
  · simp only [list]
    cases json.elements? with
    | none => rfl
    | some elements => exact mapM_map_read h elements
  · simp only [list, List.map_map]
    exact congrArg Json.array (List.map_congr_left fun value _ => h.write_eq value)

theorem refines_object {fine : Fields α} {coarse : Fields β} (h : fine.Refines coarse change) :
    (object fine).Refines (object coarse) change := by
  refine ⟨fun json => ?_, fun value => congrArg Json.object (h.write_eq value)⟩
  simp only [object]
  cases json.members? with
  | none => rfl
  | some members => exact h.read_eq members

end Codec

namespace Fields

variable {α β γ δ : Type} {change : α → β}

theorem refines_refl (fields : Fields α) : fields.Refines fields id :=
  ⟨fun _ => (Option.map_id_apply).symm, fun _ => rfl⟩

theorem readLast_change {fine : Codec α} {coarse : Codec β} (h : fine.Refines coarse change)
    (key : String) (before : Option α) (members : List (String × Json)) :
    readLast key coarse (before.map change) members =
      (readLast key fine before members).map (Option.map change) := by
  induction members generalizing before with
  | nil => rfl
  | cons member rest ih =>
    obtain ⟨k, json⟩ := member
    by_cases hkey : k = key
    · subst hkey
      by_cases hnull : json = .null
      · subst hnull
        rw [readLast.eq_def, readLast.eq_def _ fine]
        simp only [if_true]
        exact ih none
      · rw [readLast_cons_self hnull, readLast_cons_self hnull, h.read_eq]
        cases fine.read json with
        | none => rfl
        | some value => exact ih (some value)
    · rw [readLast_cons_of_ne hkey, readLast_cons_of_ne hkey]
      exact ih before

theorem refines_optional (key : String) {fine : Codec α} {coarse : Codec β}
    (h : fine.Refines coarse change) :
    (optional key fine).Refines (optional key coarse) (Option.map change) := by
  refine ⟨fun members => readLast_change h key none members, ?_⟩
  rintro (_ | value)
  · rfl
  · exact congrArg (fun json => [(key, json)]) (h.write_eq value)

theorem refines_required (key : String) {fine : Codec α} {coarse : Codec β}
    (h : fine.Refines coarse change) (zero : α) :
    (required key fine zero).Refines (required key coarse (change zero)) change := by
  refine ⟨fun members => ?_, fun value => congrArg (fun json => [(key, json)]) (h.write_eq value)⟩
  simp only [required]
  rw [show readLast key coarse none members = _ from readLast_change h key none members,
    Option.map_map, Option.map_map]
  congr 1
  funext value
  cases value <;> rfl

theorem refines_both {first : Fields α} {first' : Fields β} {second : Fields γ}
    {second' : Fields δ} {change' : γ → δ} (h : first.Refines first' change)
    (h' : second.Refines second' change') :
    (first.both second).Refines (first'.both second') (Prod.map change change') := by
  refine ⟨fun members => ?_, fun (a, b) => congrArg₂ _ (h.write_eq a) (h'.write_eq b)⟩
  simp only [both]
  rw [h.read_eq, h'.read_eq]
  cases first.read members with
  | none => rfl
  | some a => cases second.read members <;> rfl

theorem refines_as {fine : Fields α} {coarse : Fields β} (h : fine.Refines coarse change)
    {make : α → γ} {parts : γ → α} {make' : β → δ} {parts' : δ → β} {change' : γ → δ}
    (hmake : ∀ value, make' (change value) = change' (make value))
    (hparts : ∀ value, parts' (change' value) = change (parts value)) :
    (fine.as make parts).Refines (coarse.as make' parts') change' := by
  refine ⟨fun members => ?_, fun value => ?_⟩
  · simp only [Fields.as]
    rw [h.read_eq, Option.map_map, Option.map_map]
    exact congrArg (Option.map · _) (funext hmake)
  · simp only [Fields.as]
    rw [hparts, h.write_eq]

end Fields

end PreviewInstaller
