import PreviewInstaller.Cluster.Reply
import PreviewInstaller.Proofs.Codec
import PreviewInstaller.Proofs.Json.Reader

set_option autoImplicit false

/-! # Laws of replies

An object that is written into the body of a reply is read from it, and so is a refusal. -/

namespace PreviewInstaller.Cluster

/-- The bytes of a JSON value. -/
def bodyOf (json : Json) : List UInt8 :=
  Text.utf8 json.print

/-- The JSON value that bytes hold. -/
def jsonOfBytes? (bytes : List UInt8) : Option Json :=
  (Text.decodeUtf8 bytes).toOption.bind Json.parse?

theorem jsonOfBytes?_bodyOf {json : Json} (h : json.isReadable = true) :
    jsonOfBytes? (bodyOf json) = some json := by
  rw [jsonOfBytes?, bodyOf, Text.decodeUtf8_utf8]
  exact Json.parse?_print h

/-- The JSON value in the body of a reply. -/
def Reply.json? : Reply → Option Json
  | .response _ body => jsonOfBytes? body
  | _ => none

/-- An object is read from the JSON value in the body. -/
theorem Reply.exists_json_of_decode {α : Type} {codec : Codec α} {reply : Reply} {value : α}
    (h : reply.decode codec = .ok value) :
    ∃ json, reply.json? = some json ∧ codec.read json = some value := by
  cases reply with
  | response status body =>
    simp only [decode] at h
    cases hdecode : Text.decodeUtf8 body with
    | error fault =>
      rw [hdecode] at h
      cases h
    | ok text =>
      simp only [hdecode] at h
      split at h
      · cases h
      · rw [decodeText] at h
        split at h
        · next value' hread =>
          cases h
          obtain ⟨json, hjson, hread⟩ := Option.bind_eq_some_iff.1 hread
          refine ⟨json, ?_, hread⟩
          rw [json?, jsonOfBytes?, hdecode]
          exact hjson
        · cases h
  | _ => cases h

/-- What a reply is read as with a finer codec tells what it is read as with a coarser one. -/
theorem Reply.decode_change {α β : Type} {fine : Codec α} {coarse : Codec β} {change : α → β}
    (h : fine.Refines coarse change) (reply : Reply) :
    reply.decode coarse = (reply.decode fine).map change := by
  cases reply with
  | response status body =>
    simp only [decode]
    cases Text.decodeUtf8 body with
    | error fault => rfl
    | ok text =>
      dsimp only
      split
      · rfl
      · simp only [decodeText]
        cases Json.parse? text with
        | none => rfl
        | some json =>
          simp only [Option.bind_some, h.read_eq]
          cases fine.read json <;> rfl
  | _ => rfl

/-- What is read with a coarser codec is read with a finer one. -/
theorem Reply.exists_decode_of_change {α β : Type} {fine : Codec α} {coarse : Codec β}
    {change : α → β} (h : fine.Refines coarse change) {reply : Reply} {value : β}
    (hdecode : reply.decode coarse = .ok value) :
    ∃ finer, reply.decode fine = .ok finer ∧ change finer = value := by
  rw [decode_change h] at hdecode
  cases hfine : reply.decode fine with
  | error fault =>
    rw [hfine] at hdecode
    cases hdecode
  | ok finer =>
    rw [hfine] at hdecode
    exact ⟨finer, rfl, Except.ok.inj hdecode⟩

/-- A reply with an object. -/
def tellingReply {α : Type} (codec : Codec α) (object : α) : Reply :=
  .response 200 (bodyOf (codec.write object))

/-- What a refusal with a code says. -/
def refusalBody (code : UInt16) : Json :=
  .object [("status", .text "Failure"), ("code", Json.ofInt code.toNat)]

/-- A reply that refuses a request with a code. -/
def refusingReply (code : UInt16) : Reply :=
  .response (if isRefusal code.toNat then code.toNat else 400) (bodyOf (refusalBody code))

/-- An object is read from any JSON value that says it. -/
theorem decode_bodyOf {α : Type} {codec : Codec α} {json : Json} {object : α}
    (hreadable : json.isReadable = true) (hread : codec.read json = some object) :
    (Reply.response 200 (bodyOf json)).decode codec = .ok object := by
  have hstatus : isRefusal 200 = false := rfl
  rw [Reply.decode, bodyOf, Text.decodeUtf8_utf8]
  simp only [hstatus, Bool.false_eq_true, if_false]
  rw [decodeText, Json.parse?_print hreadable, Option.bind_some, hread]

theorem decode_tellingReply {α : Type} {codec : Codec α} (h : codec.Lawful) (object : α) :
    (tellingReply codec object).decode codec = .ok object :=
  decode_bodyOf (h.write_readable object) (h.read_write object)

theorem isReadable_refusalBody (code : UInt16) : (refusalBody code).isReadable = true := by
  have hcode : (Json.ofInt code.toNat).isReadable = true := by
    have hmin : Int64.minValue.toInt ≤ 0 := by decide
    have hmax : (UInt16.size : Int) ≤ Int64.maxValue.toInt := by decide
    have hsize : code.toNat < UInt16.size := code.toNat_lt
    exact Json.isReadable_ofInt (by omega) (by omega)
  simp only [refusalBody, Json.isReadable, Json.haveReadable, hcode, Bool.and_true]

theorem codeOf?_ofInt (code : UInt16) : codeOf? (Json.ofInt code.toNat) = some code := by
  have hsize : code.toNat < UInt16.size := code.toNat_lt
  show (if 0 ≤ (code.toNat : Int) ∧ (code.toNat : Int).toNat < UInt16.size then
    some (UInt16.ofNat (code.toNat : Int).toNat) else none) = some code
  rw [if_pos ⟨by omega, by simpa using hsize⟩, Int.toNat_natCast, UInt16.ofNat_toNat]

/-- A refusal is read as one, whatever was asked for. -/
theorem decode_refusingReply {α : Type} (codec : Codec α) (code : UInt16) :
    ∃ refusal : Refusal,
      refusal.code = code ∧ (refusingReply code).decode codec = .error (.refused refusal) := by
  refine ⟨⟨"Failure", "", "", code⟩, rfl, ?_⟩
  have hstatus : isRefusal (if isRefusal code.toNat then code.toNat else 400) = true := by
    split
    · next h => exact h
    · rfl
  have hrefusal : Refusal.ofJson? (refusalBody code) = some ⟨"Failure", "", "", code⟩ := by
    show (codeOf? (Json.ofInt code.toNat)).bind _ = _
    rw [codeOf?_ofInt]
    rfl
  rw [refusingReply, Reply.decode, bodyOf, Text.decodeUtf8_utf8]
  simp only [hstatus, if_true]
  rw [Json.parse?_print (isReadable_refusalBody code), Option.bind_some, hrefusal]
  rfl

end PreviewInstaller.Cluster
