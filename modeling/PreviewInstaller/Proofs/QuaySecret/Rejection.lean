import Mathlib.Logic.Relation
import PreviewInstaller.Proofs.Base64.Rejection
import PreviewInstaller.Proofs.QuaySecret.Token

set_option autoImplicit false

/-! # Rejected tokens

Why a token is rejected is said of its bytes without the line breaks. Main statement: what is said
is true of these bytes, and line breaks that are put in or taken out change nothing of it. -/

namespace PreviewInstaller.QuaySecret

/-- The second text is the first one with a line break put in somewhere. -/
inductive InsertsBreak : List Char → List Char → Prop where
  | insert (front back : List Char) {c : Char} (hc : isLineBreak c = true) :
      InsertsBreak (front ++ back) (front ++ c :: back)

/-- One text becomes the other one by line breaks that are put in and taken out, any number of them
and in any order. -/
abbrev Rewraps : List Char → List Char → Prop :=
  Relation.EqvGen InsertsBreak

/-- Without its line breaks a text is the same, whatever line breaks it has. -/
theorem Rewraps.filter_eq {text other : List Char} (h : Rewraps text other) :
    text.filter (fun c => !isLineBreak c) = other.filter fun c => !isLineBreak c := by
  induction h with
  | rel _ _ hinsert =>
    obtain ⟨front, back, hc⟩ := hinsert
    simp [hc]
  | refl _ => rfl
  | symm _ _ _ ih => exact ih.symm
  | trans _ _ _ _ _ ihfirst ihsecond => exact ihfirst.trans ihsecond

/-- What becomes of a token does not depend on its line breaks. -/
theorem decodeToken_of_rewraps {token other : String} (h : Rewraps token.toList other.toList) :
    decodeToken other = decodeToken token := by
  have hsame : unwrapped other = unwrapped token := by
    rw [unwrapped_eq, unwrapped_eq, h.filter_eq]
  unfold decodeToken
  rw [hsame]

/-- An invalid token is one whose bytes are no canonical base64. -/
theorem decode_of_decodeToken {token : String} {fault : Base64.Fault}
    (h : decodeToken token = .error (.invalidQuayToken fault)) :
    Base64.decode (Text.utf8 (unwrapped token)) = .error fault := by
  unfold decodeToken at h
  by_cases hempty : unwrapped token = []
  · simp [hempty] at h
  · rw [if_neg hempty] at h
    cases hdecode : Base64.decode (Text.utf8 (unwrapped token)) with
    | ok bytes =>
      rw [hdecode] at h
      cases h
    | error found =>
      rw [hdecode] at h
      cases h
      rfl

/-- An invalid token is rejected with a fault that is true of its bytes, and with the same fault
however it is wrapped into lines. -/
theorem decodeToken_rejects_truthfully {token : String} {fault : Base64.Fault}
    (h : decodeToken token = .error (.invalidQuayToken fault)) :
    fault.IsTrueOf (Text.utf8 (unwrapped token)) ∧
      ∀ other : String, Rewraps token.toList other.toList →
        decodeToken other = .error (.invalidQuayToken fault) :=
  ⟨Base64.isTrueOf_of_decode (decode_of_decodeToken h),
    fun _ hother => (decodeToken_of_rewraps hother).trans h⟩

/-- Padding too early, behind two lines and before a letter of two bytes: its place is counted in
bytes and without the line breaks, and it is the same in a single line. -/
theorem decodeToken_rejects_truthfully_padded :
    let token := "YWJj\r\nYWJj\nY=é"
    decodeToken token = .error (.invalidQuayToken (.invalidByte Base64.pad 9)) ∧
      (Base64.Fault.invalidByte Base64.pad 9).IsTrueOf (Text.utf8 (unwrapped token)) ∧
      decodeToken "YWJjYWJjY=é" = .error (.invalidQuayToken (.invalidByte Base64.pad 9)) := by
  intro token
  have hrejected : decodeToken token = .error (.invalidQuayToken (.invalidByte Base64.pad 9)) := by
    decide
  obtain ⟨htrue, hsame⟩ := decodeToken_rejects_truthfully hrejected
  have hremove : ∀ front back : List Char, ∀ c, isLineBreak c = true →
      Rewraps (front ++ c :: back) (front ++ back) :=
    fun front back c hc => .symm _ _ (.rel _ _ (.insert front back hc))
  have htoken : token.toList = "YWJj".toList ++ '\r' :: '\n' :: ("YWJj".toList ++
      '\n' :: "Y=é".toList) := by
    decide
  have hline : "YWJjYWJjY=é".toList = "YWJj".toList ++ ("YWJj".toList ++ "Y=é".toList) := by
    decide
  have hlast := hremove ("YWJj".toList ++ "YWJj".toList) "Y=é".toList '\n' rfl
  rw [List.append_assoc, List.append_assoc] at hlast
  refine ⟨hrejected, htrue, hsame _ ?_⟩
  rw [htoken, hline]
  exact (hremove _ _ '\r' rfl).trans _ _ _ ((hremove _ _ '\n' rfl).trans _ _ _ hlast)

end PreviewInstaller.QuaySecret
