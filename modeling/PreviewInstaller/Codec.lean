import PreviewInstaller.Json.Basic
import PreviewInstaller.TextMap
import PreviewInstaller.Base64
import PreviewInstaller.Instant
import PreviewInstaller.Text.Utf8

set_option autoImplicit false

/-! # Codecs

A codec says how values of a type are read from JSON and written to it. Objects are put together
from fields: a field reads the members with its key and writes the ones it wants.

Unknown members are passed over. Every occurrence of a known key has to be readable and the last
one counts; `null` is the same as no member. A field that is not set is not written, and a required
field that is missing takes the zero value of its type. -/

namespace PreviewInstaller

/-- How values are read from JSON and written to it. -/
structure Codec (α : Type) where
  read : Json → Option α
  write : α → Json

/-- How a part of an object is read from its members and written to them. -/
structure Fields (α : Type) where
  read : List (String × Json) → Option α
  write : α → List (String × Json)

/-- A value that stands in a field as it is: it has meaning throughout, and it is not `null`, which
stands for no field. -/
structure FieldValue where
  json : Json
  readable : json.isReadable = true
  present : json.isNull = false

/-- The field value that a JSON value is, if it is one. -/
def FieldValue.ofJson? (json : Json) : Option FieldValue :=
  if h : json.isReadable = true ∧ json.isNull = false then some ⟨json, h.1, h.2⟩ else none

namespace Codec

variable {α β : Type}

/-- Text. -/
def text : Codec String where
  read := Json.text?
  write := .text

/-- Truth values. -/
def bool : Codec Bool where
  read
    | .bool value => some value
    | _ => none
  write := .bool

/-- Integers of 32 bits. -/
def int32 : Codec Int32 where
  read json := do
    let value ← json.integer?
    if Int32.minValue.toInt ≤ value ∧ value ≤ Int32.maxValue.toInt then some (Int32.ofInt value)
    else none
  write value := Json.ofInt value.toInt

/-- Integers of 64 bits. -/
def int64 : Codec Int64 where
  read json := do
    let value ← json.integer?
    if Int64.minValue.toInt ≤ value ∧ value ≤ Int64.maxValue.toInt then some (Int64.ofInt value)
    else none
  write value := Json.ofInt value.toInt

/-- Points in time, as RFC 3339 timestamps. A fraction of the second is read and not written. -/
def pointInTime : Codec PointInTime where
  read json := json.text?.bind PointInTime.read?
  write value := .text value.instant.rfc3339

/-- Instants, as RFC 3339 timestamps of which the fraction is dropped. -/
def instant : Codec Instant where
  read json := json.text?.bind Instant.read?
  write value := .text value.rfc3339

/-- The bytes that a base64 text stands for. -/
def bytesOfText? (text : String) : Option (List UInt8) :=
  (Base64.decode (Text.utf8 text.toList)).toOption

/-- The base64 text of bytes. -/
def textOfBytes (bytes : List UInt8) : String :=
  String.ofList ((Base64.encode bytes).map fun byte => Char.ofNat byte.toNat)

/-- Bytes, in base64; `null` stands for no bytes. -/
def bytes : Codec (List UInt8) where
  read
    | .null => some []
    | json => json.text?.bind bytesOfText?
  write value := .text (textOfBytes value)

/-- Any value that can stand in a field. -/
def any : Codec FieldValue where
  read := FieldValue.ofJson?
  write value := value.json

/-- Lists, as arrays. -/
def list (codec : Codec α) : Codec (List α) where
  read json := json.elements?.bind fun elements => elements.mapM codec.read
  write value := .array (value.map codec.write)

/-- Maps, as objects of which the last member with a key counts. -/
def map (codec : Codec α) : Codec (TextMap α) where
  read json := do
    let members ← json.members?
    let entries ← members.mapM fun (key, value) => (codec.read value).map (key, ·)
    return TextMap.ofEntries entries
  write value := .object (value.entries.map fun (key, value) => (key, codec.write value))

/-- Either of two types; the first that reads counts. -/
def either (first : Codec α) (second : Codec β) : Codec (α ⊕ β) where
  read json := (first.read json).map .inl <|> (second.read json).map .inr
  write
    | .inl value => first.write value
    | .inr value => second.write value

/-- Objects. -/
def object (fields : Fields α) : Codec α where
  read json := json.members?.bind fields.read
  write value := .object (fields.write value)

end Codec

namespace Fields

variable {α β : Type}

/-- The value of the last of these members with a key, if all of them can be read. The value of the
members before is `before`. -/
def readLast (key : String) (codec : Codec α) (before : Option α) :
    List (String × Json) → Option (Option α)
  | [] => some before
  | (k, json) :: rest =>
    if k = key then
      match json with
      | .null => readLast key codec none rest
      | json => do
        let value ← codec.read json
        readLast key codec (some value) rest
    else readLast key codec before rest

/-- A field that can be absent. -/
def optional (key : String) (codec : Codec α) : Fields (Option α) where
  read := readLast key codec none
  write
    | none => []
    | some value => [(key, codec.write value)]

/-- A field that is always written, and is `zero` where it is missing. -/
def required (key : String) (codec : Codec α) (zero : α) : Fields α where
  read members := (readLast key codec none members).map (·.getD zero)
  write value := [(key, codec.write value)]

/-- A field that always has the same text. It can be missing, and is always written. -/
def tag (key value : String) : Fields Unit where
  read members :=
    if members.all fun (k, json) => k ≠ key || json.text? = some value then some () else none
  write _ := [(key, .text value)]

/-- No fields. -/
def empty : Fields Unit where
  read _ := some ()
  write _ := []

/-- Two parts of an object. -/
def both (first : Fields α) (second : Fields β) : Fields (α × β) where
  read members := do
    let a ← first.read members
    let b ← second.read members
    return (a, b)
  write := fun (a, b) => first.write a ++ second.write b

/-- The same fields, with the values seen as another type. -/
def as (fields : Fields α) (make : α → β) (parts : β → α) : Fields β where
  read members := (fields.read members).map make
  write value := fields.write (parts value)

end Fields

/-- Types of times that objects can be dated with. -/
class Timed (τ : Type) where
  codec : Codec τ

@[default_instance]
instance : Timed Instant := ⟨Codec.instant⟩

instance : Timed PointInTime := ⟨Codec.pointInTime⟩

end PreviewInstaller
