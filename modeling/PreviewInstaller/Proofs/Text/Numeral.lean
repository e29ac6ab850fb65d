import Mathlib.Algebra.Group.Nat.Defs
import PreviewInstaller.Text.Pieces

set_option autoImplicit false

/-! # Laws of numerals

Decimal digits denote the number they were made of, with or without zeros in front. -/

namespace PreviewInstaller.Text

theorem decimal_nil (before : Nat) : decimal before [] = before := rfl

theorem decimal_cons (before : Nat) (c : Char) (rest : List Char) :
    decimal before (c :: rest) = decimal (before * 10 + (c.toNat - '0'.toNat)) rest := (rfl)

theorem decimal_eq (before : Nat) (digits : List Char) :
    decimal before digits = Nat.ofDigitChars 10 digits before := by
  induction digits generalizing before with
  | nil => rw [decimal_nil, Nat.ofDigitChars_nil]
  | cons c rest ih => rw [decimal_cons, ih, Nat.ofDigitChars_cons, Nat.mul_comm]

theorem decimal_append (before : Nat) (front back : List Char) :
    decimal before (front ++ back) = decimal (decimal before front) back := by
  simp only [decimal_eq, Nat.ofDigitChars_append]

@[simp]
theorem decimal_toDigits (number : Nat) : decimal 0 (Nat.toDigits 10 number) = number := by
  rw [decimal_eq, Nat.ofDigitChars_ten_toDigits]

@[simp]
theorem decimal_toString (number : Nat) : decimal 0 (toString number).toList = number := by
  show decimal 0 (Nat.repr number).toList = number
  rw [Nat.repr, String.toList_ofList, decimal_toDigits]

theorem decimal_zeros (count before : Nat) :
    decimal before (List.replicate count '0') = 10 ^ count * before := by
  rw [decimal_eq, Nat.ofDigitChars_replicate_zero]

theorem decimal_padded (width number : Nat) : decimal 0 (padded width number) = number := by
  rw [padded, decimal_append, decimal_zeros, Nat.mul_zero, decimal_toDigits]

theorem isDigit_iff {c : Char} : c.isDigit = true ↔ 48 ≤ c.toNat ∧ c.toNat ≤ 57 := by
  rw [Char.isDigit, Bool.and_eq_true, decide_eq_true_eq, decide_eq_true_eq, ge_iff_le,
    UInt32.le_iff_toNat_le, UInt32.le_iff_toNat_le]
  rfl

theorem isDigit_of_mem_toDigits {number : Nat} {c : Char} (h : c ∈ Nat.toDigits 10 number) :
    c.isDigit = true :=
  Nat.isDigit_of_mem_toDigits (by decide) (by decide) h

theorem isDigit_of_mem_padded {width number : Nat} {c : Char} (h : c ∈ padded width number) :
    c.isDigit = true := by
  rcases List.mem_append.1 h with hzero | hdigit
  · rw [List.eq_of_mem_replicate hzero]
    rfl
  · exact isDigit_of_mem_toDigits hdigit

theorem length_padded (width number : Nat) :
    (padded width number).length = max width (Nat.toDigits 10 number).length := by
  simp only [padded, List.length_append, List.length_replicate]
  omega

/-- A number that fits is written with exactly the digits that are wanted. -/
theorem length_padded_of_lt {width number : Nat} (hwidth : 0 < width)
    (h : number < 10 ^ width) : (padded width number).length = width := by
  have hle := (Nat.length_toDigits_le_iff (by decide) hwidth).2 h
  rw [length_padded]
  omega

/-- Digits make a number that has no more digits. -/
theorem decimal_lt {digits : List Char} (h : ∀ c ∈ digits, c.isDigit = true) (before : Nat) :
    decimal before digits < (before + 1) * 10 ^ digits.length := by
  induction digits generalizing before with
  | nil => simp [decimal_nil]
  | cons c rest ih =>
    obtain ⟨hc, hrest⟩ := List.forall_mem_cons.1 h
    have hhigh := (isDigit_iff.1 hc).2
    have hzero : '0'.toNat = 48 := rfl
    calc decimal before (c :: rest)
        < (before * 10 + (c.toNat - '0'.toNat) + 1) * 10 ^ rest.length := ih hrest _
      _ ≤ (before + 1) * 10 * 10 ^ rest.length := Nat.mul_le_mul_right _ (by omega)
      _ = (before + 1) * 10 ^ (c :: rest).length := by
        rw [List.length_cons, Nat.pow_succ', Nat.mul_assoc]

theorem padded_ne_nil (width number : Nat) : padded width number ≠ [] := by
  simp [padded]

/-- Only zero has a zero in front. -/
theorem head?_toDigits_ne_zero {number : Nat} (h : number ≠ 0) :
    (Nat.toDigits 10 number).head? ≠ some '0' := by
  induction number using Nat.strongRecOn with
  | ind number ih =>
    by_cases hsmall : number < 10
    · have hdigit : ∀ digit < 10, digit ≠ 0 → [Nat.digitChar digit].head? ≠ some '0' := by decide
      rw [Nat.toDigits_of_lt_base hsmall]
      exact hdigit number hsmall h
    · have hfront := ih (number / 10) (by omega) (by omega)
      rw [Nat.toDigits_of_base_le (by decide) (by omega), List.head?_append]
      cases hdigits : Nat.toDigits 10 (number / 10) with
      | nil => exact absurd hdigits Nat.toDigits_ne_nil
      | cons first rest => simpa [hdigits] using hfront

/-! ## Order -/

theorem lt_iff_toNat_lt {c d : Char} : c < d ↔ c.toNat < d.toNat :=
  UInt32.lt_iff_toNat_lt

/-- Digits of one length are ordered as the numbers are that they make, whatever came in front. -/
theorem decimal_lt_iff {first second : List Char} (hlength : first.length = second.length)
    (hfirst : ∀ c ∈ first, c.isDigit = true) (hsecond : ∀ c ∈ second, c.isDigit = true)
    (before before' : Nat) :
    decimal before first < decimal before' second ↔
      before < before' ∨ before = before' ∧ first < second := by
  induction first generalizing second before before' with
  | nil =>
    rw [List.eq_nil_of_length_eq_zero hlength.symm]
    simp [decimal_nil]
  | cons c rest ih =>
    obtain ⟨d, rest', rfl⟩ := List.exists_cons_of_length_eq_add_one hlength.symm
    obtain ⟨hc, hrest⟩ := List.forall_mem_cons.1 hfirst
    obtain ⟨hd, hrest'⟩ := List.forall_mem_cons.1 hsecond
    have hlow := isDigit_iff.1 hc
    have hlow' := isDigit_iff.1 hd
    have hzero : '0'.toNat = 48 := rfl
    rw [decimal_cons, decimal_cons, ih (by simpa using hlength) hrest hrest',
      List.cons_lt_cons_iff, lt_iff_toNat_lt, ← Char.toNat_inj]
    by_cases hless : rest < rest'
    · simp only [hless, and_true]
      omega
    · simp only [hless, and_false, or_false]
      omega

/-- Lists with fronts of one length are ordered by the fronts first. -/
theorem append_lt_append_iff {front front' : List Char} (hlength : front.length = front'.length)
    (back back' : List Char) :
    front ++ back < front' ++ back' ↔ front < front' ∨ front = front' ∧ back < back' := by
  induction front generalizing front' with
  | nil =>
    rw [List.eq_nil_of_length_eq_zero hlength.symm]
    simp
  | cons c rest ih =>
    obtain ⟨d, rest', rfl⟩ := List.exists_cons_of_length_eq_add_one hlength.symm
    rw [List.cons_append, List.cons_append, List.cons_lt_cons_iff, List.cons_lt_cons_iff,
      ih (by simpa using hlength), List.cons.injEq]
    simp only [and_or_left, or_assoc, and_assoc]

/-- Numbers that are padded to one width are ordered as texts, up to what follows them. -/
theorem padded_append_lt_iff {width first second : Nat} (hwidth : 0 < width)
    (hfirst : first < 10 ^ width) (hsecond : second < 10 ^ width) (back back' : List Char) :
    padded width first ++ back < padded width second ++ back' ↔
      first < second ∨ first = second ∧ back < back' := by
  have hlength : (padded width first).length = (padded width second).length := by
    rw [length_padded_of_lt hwidth hfirst, length_padded_of_lt hwidth hsecond]
  have horder : padded width first < padded width second ↔ first < second := by
    have hdigits := decimal_lt_iff hlength (fun _ => isDigit_of_mem_padded)
      (fun _ => isDigit_of_mem_padded) 0 0
    rw [decimal_padded, decimal_padded] at hdigits
    simpa using hdigits.symm
  have hsame : padded width first = padded width second ↔ first = second := by
    refine ⟨fun heq => ?_, congrArg _⟩
    rw [← decimal_padded width first, heq, decimal_padded]
  rw [append_lt_append_iff hlength, horder, hsame]

end PreviewInstaller.Text
