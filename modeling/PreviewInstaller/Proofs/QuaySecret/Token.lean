import Mathlib.Logic.ExistsUnique
import PreviewInstaller.Proofs.Base64.Canonical
import PreviewInstaller.Proofs.Codec
import PreviewInstaller.QuaySecret

set_option autoImplicit false

/-! # Tokens

A token is accepted exactly if it is the base64 text of some bytes, wrapped into lines in any way.
Main statement: what becomes of a token is told by its text without the line breaks alone, and every
other deviation from canonical base64 makes it invalid. -/

namespace PreviewInstaller.QuaySecret

open Codec (textOfBytes utf8_textOfBytes utf8_eq_encode_iff)

/-! ## Texts of bytes -/

theorem textOfBytes_ne_nil {bytes : List UInt8} (h : bytes ≠ []) :
    (textOfBytes bytes).toList ≠ [] := by
  rw [textOfBytes, String.toList_ofList, ne_eq, List.map_eq_nil_iff]
  rcases bytes with _ | ⟨first, _ | ⟨second, _ | ⟨third, rest⟩⟩⟩
  · exact absurd rfl h
  all_goals simp [Base64.encode]

/-- The characters of base64: ASCII letters and digits, two marks and the padding. -/
def isBase64 (c : Char) : Bool :=
  c.isAlphanum || c = '+' || c = '/' || c = '='

theorem isBase64_of_mem_textOfBytes {bytes : List UInt8} {c : Char}
    (h : c ∈ (textOfBytes bytes).toList) : isBase64 c = true := by
  rw [textOfBytes, String.toList_ofList] at h
  obtain ⟨byte, hbyte, rfl⟩ := List.mem_map.1 h
  rw [Base64.encode_eq] at hbyte
  rcases List.mem_append.1 hbyte with hsymbol | hpad
  · have hletters : ∀ letter, isBase64 (Char.ofNat (Base64.symbol letter).toNat) = true := by decide
    obtain ⟨letter, -, rfl⟩ := List.mem_map.1 hsymbol
    exact hletters letter
  · rw [List.eq_of_mem_replicate hpad]
    decide

/-! ## Line breaks -/

/-- Whether a character can stand anywhere in a token without a meaning. -/
def isLineBreak (c : Char) : Bool :=
  c = '\r' || c = '\n'

/-- The second text is the first one with line breaks put in anywhere. -/
inductive Wraps : List Char → List Char → Prop where
  | nil : Wraps [] []
  | keep (c : Char) {text token : List Char} (h : Wraps text token) : Wraps (c :: text) (c :: token)
  | insert {c : Char} {text token : List Char} (hc : isLineBreak c = true) (h : Wraps text token) :
      Wraps text (c :: token)

theorem unwrapped_eq (token : String) :
    unwrapped token = token.toList.filter fun c => !isLineBreak c := by
  simp [unwrapped, isLineBreak, Bool.not_or]

theorem unwrapped_eq_nil_iff {token : String} :
    unwrapped token = [] ↔ ∀ c ∈ token.toList, isLineBreak c = true := by
  simp [unwrapped_eq]

theorem mem_unwrapped_iff {token : String} {c : Char} :
    c ∈ unwrapped token ↔ c ∈ token.toList ∧ isLineBreak c = false := by
  simp [unwrapped_eq]

theorem unwrapped_of_plain {token : String} (h : ∀ c ∈ token.toList, isLineBreak c = false) :
    unwrapped token = token.toList := by
  rw [unwrapped_eq, List.filter_eq_self]
  simpa using h

/-- A base64 text has no line breaks. -/
theorem isLineBreak_of_mem_textOfBytes {bytes : List UInt8} {c : Char}
    (h : c ∈ (textOfBytes bytes).toList) : isLineBreak c = false := by
  have hbase := isBase64_of_mem_textOfBytes h
  rw [Bool.eq_false_iff]
  intro hbreak
  rw [isLineBreak, Bool.or_eq_true, decide_eq_true_eq, decide_eq_true_eq] at hbreak
  rcases hbreak with rfl | rfl <;> exact absurd hbase (by decide)

/-- To take the line breaks out undoes putting them in. -/
theorem Wraps.unwrapped_eq {token : String} {text : List Char} (h : Wraps text token.toList)
    (htext : ∀ c ∈ text, isLineBreak c = false) : unwrapped token = text := by
  rw [QuaySecret.unwrapped_eq]
  generalize token.toList = characters at h
  induction h with
  | nil => rfl
  | keep c _ ih =>
    have hrest := ih fun c hc => htext c (List.mem_cons_of_mem _ hc)
    rw [List.filter_cons_of_pos (by simp [htext c]), hrest]
  | insert hc _ ih => rw [List.filter_cons_of_neg (by simp [hc]), ih htext]

/-! ## Accepted tokens -/

/-- A token is accepted as the bytes whose base64 text it is without its line breaks. -/
theorem decodeToken_eq_ok_iff {token : String} {bytes : List UInt8} :
    decodeToken token = .ok bytes ↔
      bytes ≠ [] ∧ unwrapped token = (textOfBytes bytes).toList := by
  unfold decodeToken
  by_cases hempty : unwrapped token = []
  · rw [if_pos hempty, hempty]
    exact iff_of_false nofun fun h => textOfBytes_ne_nil h.1 h.2.symm
  · rw [if_neg hempty, ← utf8_eq_encode_iff, ← Base64.decode_eq_ok_iff]
    cases hdecode : Base64.decode (Text.utf8 (unwrapped token)) with
    | error fault => exact iff_of_false nofun fun h => nomatch h.2
    | ok bytes' =>
      have hmap : (Except.ok bytes' : Except Base64.Fault _).mapError Error.invalidQuayToken =
          .ok bytes' := rfl
      rw [hmap, Except.ok.injEq]
      constructor
      · rintro rfl
        refine ⟨?_, rfl⟩
        rintro rfl
        have htext := Base64.eq_encode_of_decode hdecode
        rw [utf8_eq_encode_iff] at htext
        exact hempty htext
      · exact fun h => Except.ok.inj h.2

theorem decodeToken_eq_missing_iff {token : String} :
    decodeToken token = .error .missingQuayToken ↔
      ∀ c ∈ token.toList, isLineBreak c = true := by
  rw [← unwrapped_eq_nil_iff]
  unfold decodeToken
  by_cases hempty : unwrapped token = []
  · exact iff_of_true (if_pos hempty) hempty
  · rw [if_neg hempty]
    refine iff_of_false ?_ hempty
    cases Base64.decode (Text.utf8 (unwrapped token)) with
    | error fault => exact nofun
    | ok bytes => exact nofun

/-- Whether a token is refused because of what it holds. -/
def IsInvalid (token : String) : Prop :=
  ∃ fault, decodeToken token = .error (.invalidQuayToken fault)

/-- A token is accepted, or it is missing, or it is invalid. -/
theorem isInvalid_iff {token : String} :
    IsInvalid token ↔ decodeToken token ≠ .error .missingQuayToken ∧
      ∀ bytes, decodeToken token ≠ .ok bytes := by
  constructor
  · rintro ⟨fault, h⟩
    rw [h]
    exact ⟨nofun, nofun⟩
  · rintro ⟨hmissing, hok⟩
    unfold IsInvalid
    unfold decodeToken at hmissing hok ⊢
    by_cases hempty : unwrapped token = []
    · exact absurd (if_pos hempty) hmissing
    · rw [if_neg hempty] at hok ⊢
      cases hdecode : Base64.decode (Text.utf8 (unwrapped token)) with
      | error fault => exact ⟨fault, rfl⟩
      | ok bytes => exact absurd (by rw [hdecode]; rfl) (hok bytes)

theorem isInvalid_of_forall {token : String} (hnonempty : unwrapped token ≠ [])
    (h : ∀ bytes, bytes ≠ [] → Text.utf8 (unwrapped token) ≠ Base64.encode bytes) :
    IsInvalid token := by
  rw [isInvalid_iff]
  constructor
  · rw [ne_eq, decodeToken_eq_missing_iff, ← unwrapped_eq_nil_iff]
    exact hnonempty
  · intro bytes hok
    obtain ⟨hbytes, htext⟩ := decodeToken_eq_ok_iff.1 hok
    exact h bytes hbytes (utf8_eq_encode_iff.2 htext)

/-- A character that neither breaks lines nor belongs to base64 makes a token invalid. -/
theorem isInvalid_of_strange {token : String} {c : Char} (hmem : c ∈ token.toList)
    (hbreak : isLineBreak c = false) (hbase : isBase64 c = false) : IsInvalid token := by
  have hstands := mem_unwrapped_iff.2 ⟨hmem, hbreak⟩
  refine isInvalid_of_forall (List.ne_nil_of_mem hstands) ?_
  intro bytes _ htext
  rw [utf8_eq_encode_iff] at htext
  exact absurd (isBase64_of_mem_textOfBytes (htext ▸ hstands)) (by simp [hbase])

/-- The bytes of a token are these symbols and so much padding behind them. -/
def Spells (token : String) (letters : List Base64.Sextet) (count : Nat) : Prop :=
  Text.utf8 (unwrapped token) =
    letters.map Base64.symbol ++ List.replicate count Base64.pad

theorem Spells.ne_nil {token : String} {letters : List Base64.Sextet} {count : Nat}
    (h : Spells token letters count) (hsome : 0 < letters.length + count) :
    unwrapped token ≠ [] := by
  intro hempty
  rw [Spells, hempty] at h
  have hlength := congrArg List.length h
  simp [Text.utf8] at hlength
  omega

/-- Padding that does not fill up the last four symbols, or is more than two, makes a token
invalid. -/
theorem Spells.isInvalid_of_padding {token : String} {letters : List Base64.Sextet} {count : Nat}
    (h : Spells token letters count) (hcount : (letters.length + count) % 4 ≠ 0 ∨ 2 < count) :
    IsInvalid token := by
  refine isInvalid_of_forall (h.ne_nil (by omega)) ?_
  intro bytes _ htext
  obtain ⟨rfl, rfl⟩ := Base64.eq_sextets_of_eq_encode (h.symm.trans htext)
  obtain ⟨hfilled, htwo, -⟩ := Base64.length_sextets bytes
  omega

/-- Bits of the last symbol that no byte uses make a token invalid unless they are zero. -/
theorem Spells.isInvalid_of_stray {token : String} {letters : List Base64.Sextet} {count : Nat}
    (h : Spells token letters count) (hstray : Base64.hasStrayBits letters = true) :
    IsInvalid token := by
  have hletters : letters ≠ [] := by
    rintro rfl
    cases hstray
  refine isInvalid_of_forall (h.ne_nil ?_) ?_
  · have := List.length_pos_iff.2 hletters
    omega
  · intro bytes _ htext
    obtain ⟨rfl, -⟩ := Base64.eq_sextets_of_eq_encode (h.symm.trans htext)
    rw [Base64.hasStrayBits_sextets] at hstray
    cases hstray

/-! ## The tokens of bytes -/

/-- Line breaks put into the text of bytes do not change what it is decoded to. -/
theorem decodeToken_of_wraps {token : String} {bytes : List UInt8} (hbytes : bytes ≠ [])
    (h : Wraps (textOfBytes bytes).toList token.toList) : decodeToken token = .ok bytes :=
  decodeToken_eq_ok_iff.2 ⟨hbytes, h.unwrapped_eq fun _ => isLineBreak_of_mem_textOfBytes⟩

theorem existsUnique_plain_token {bytes : List UInt8} (hbytes : bytes ≠ []) :
    ∃! token : String, (∀ c ∈ token.toList, isLineBreak c = false) ∧
      decodeToken token = .ok bytes := by
  have hplain : ∀ c ∈ (textOfBytes bytes).toList, isLineBreak c = false :=
    fun _ => isLineBreak_of_mem_textOfBytes
  refine ⟨textOfBytes bytes, ⟨hplain, ?_⟩, ?_⟩
  · exact decodeToken_eq_ok_iff.2 ⟨hbytes, unwrapped_of_plain hplain⟩
  · rintro token ⟨htoken, hok⟩
    have htext := (decodeToken_eq_ok_iff.1 hok).2
    rw [unwrapped_of_plain htoken] at htext
    exact String.toList_inj.1 htext

/-! ## Canonical tokens -/

/-- What becomes of all tokens. -/
structure AcceptsCanonical : Prop where
  /-- A token is accepted as bytes exactly if there are any and it is their text, line breaks
  aside. -/
  ok_iff : ∀ token bytes, decodeToken token = .ok bytes ↔
    bytes ≠ [] ∧ unwrapped token = (textOfBytes bytes).toList
  /-- A token is missing exactly if it is nothing but line breaks. -/
  missing_iff : ∀ token, decodeToken token = .error .missingQuayToken ↔
    ∀ c ∈ token.toList, isLineBreak c = true
  /-- Every other token is invalid, and no more than these. -/
  invalid_iff : ∀ token, IsInvalid token ↔ (∃ c ∈ token.toList, isLineBreak c = false) ∧
    ∀ bytes, bytes ≠ [] → unwrapped token ≠ (textOfBytes bytes).toList
  /-- Decoding undoes encoding, whatever line breaks are put in between. -/
  wrapped : ∀ token bytes, bytes ≠ [] → Wraps (textOfBytes bytes).toList token.toList →
    decodeToken token = .ok bytes
  /-- Bytes have one token without line breaks. -/
  unique : ∀ bytes, bytes ≠ [] → ∃! token : String,
    (∀ c ∈ token.toList, isLineBreak c = false) ∧ decodeToken token = .ok bytes
  /-- Any other character is refused: other white space, or the marks of another alphabet. -/
  strange : ∀ token c, c ∈ token.toList → isLineBreak c = false → isBase64 c = false →
    IsInvalid token
  /-- Missing and surplus padding is refused. -/
  padding : ∀ token letters count, Spells token letters count →
    (letters.length + count) % 4 ≠ 0 ∨ 2 < count → IsInvalid token
  /-- Bits behind the last byte are refused unless they are zero. -/
  stray : ∀ token letters count, Spells token letters count →
    Base64.hasStrayBits letters = true → IsInvalid token

/-- Exactly canonical base64 is accepted, wrapped into lines or not. -/
theorem decodeToken_accepts_canonical : AcceptsCanonical where
  ok_iff _ _ := decodeToken_eq_ok_iff
  missing_iff _ := decodeToken_eq_missing_iff
  invalid_iff token := by
    rw [isInvalid_iff, ne_eq, decodeToken_eq_missing_iff]
    simp [decodeToken_eq_ok_iff]
  wrapped _ _ hbytes h := decodeToken_of_wraps hbytes h
  unique _ hbytes := existsUnique_plain_token hbytes
  strange _ _ hmem hbreak hbase := isInvalid_of_strange hmem hbreak hbase
  padding _ _ _ h hcount := h.isInvalid_of_padding hcount
  stray _ _ _ h hstray := h.isInvalid_of_stray hstray

/-- Line breaks may stand between any two symbols, and inside the padding. -/
example : (decodeToken "Y\nWI\r\n=\r").toOption = some [97, 98] := by decide

end PreviewInstaller.QuaySecret
