import Mathlib.Data.List.TakeDrop
import PreviewInstaller.Json.Printer
import PreviewInstaller.Json.Token
import PreviewInstaller.Proofs.Text.Numeral

set_option autoImplicit false

/-! # Numbers as text

A number that is normal is read from its own text. An integer has no more than its digits there,
and any other number has a point or a power of ten, so the two are never mistaken for each other. -/

namespace PreviewInstaller.Json

open Text (decimal decimal_eq decimal_append decimal_toDigits decimal_zeros decimal_nil decimal_cons
  isDigit_of_mem_toDigits head?_toDigits_ne_zero)

/-! ## The parts of a numeral -/

/-- Digits end where something else begins. -/
theorem digits_append {front rest : List Char} (hfront : ∀ c ∈ front, c.isDigit = true)
    (hrest : ∀ c ∈ rest.head?, c.isDigit = false) : digits (front ++ rest) = (front, rest) := by
  rw [digits, List.span_eq_takeWhile_dropWhile, List.takeWhile_append_of_pos hfront,
    List.dropWhile_append_of_pos hfront]
  cases rest with
  | nil => simp
  | cons c rest => simp [hrest c rfl]

theorem digits_eq_self {text : List Char} (h : ∀ c ∈ text, c.isDigit = true) :
    digits text = (text, []) := by
  have happend := digits_append h (show ∀ c ∈ ([] : List Char).head?, c.isDigit = false by simp)
  rwa [List.append_nil] at happend

theorem isWhole_of_head {whole : List Char} (hne : whole ≠ []) (h : whole.head? ≠ some '0') :
    isWhole whole = true := by
  cases whole with
  | nil => exact absurd rfl hne
  | cons first rest =>
    cases rest with
    | nil => rfl
    | cons next rest => simpa [isWhole] using h

theorem isWhole_toDigits (number : Nat) : isWhole (Nat.toDigits 10 number) = true := by
  by_cases h : number = 0
  · subst h
    decide
  · exact isWhole_of_head Nat.toDigits_ne_nil (head?_toDigits_ne_zero h)

/-- The sign of a number. -/
def sign (negative : Bool) : List Char :=
  if negative then ['-'] else []

theorem numberText_decimal (negative : Bool) (number : Nat) (exponent : Int) :
    numberText (.decimal negative number exponent) =
      sign negative ++ decimalText (Nat.toDigits 10 number) exponent := rfl

theorem numberText_integer (value : Int) :
    numberText (.integer value) = sign (decide (value < 0)) ++ Nat.toDigits 10 value.natAbs := by
  rw [numberText, integerText, sign]
  by_cases h : value < 0 <;> simp [h]

/-- A sign and a whole part are read as such. -/
theorem numeral?_sign_append (negative : Bool) (whole tail : List Char)
    {places back : List Char} {power : Int}
    (hwhole : isWhole whole = true) (hdigits : ∀ c ∈ whole, c.isDigit = true)
    (htail : ∀ c ∈ tail.head?, c.isDigit = false)
    (hfraction : fraction? tail = some (places, back)) (hpower : exponent? back = some power) :
    numeral? (sign negative ++ (whole ++ tail)) =
      (let value := decimal 0 (whole ++ places)
      if tail = [] ∧ negative = false ∧ value < UInt64.size then some (.number (.integer value))
      else if tail = [] ∧ negative = true ∧ 0 < value ∧ value ≤ UInt64.size / 2 then
        some (.number (.integer (-(value : Int))))
      else if isInfinite value (power - places.length) then some .unreadable
      else some (.number (decimalOf negative (whole ++ places) (power - places.length)))) := by
  cases negative with
  | true =>
    show numeral? ('-' :: (whole ++ tail)) = _
    unfold numeral?
    simp only [digits_append hdigits htail, hwhole, hfraction, hpower, Option.bind_eq_bind,
      Option.bind_some]
    rfl
  | false =>
    show numeral? (whole ++ tail) = _
    unfold numeral?
    split
    · next heq =>
      split at heq
      · next hminus =>
        cases whole with
        | nil => cases hwhole
        | cons first rest =>
          cases hminus
          cases hdigits '-' (List.mem_cons_self ..)
      · cases heq
        simp only [digits_append hdigits htail, hwhole, hfraction, hpower, Option.bind_eq_bind,
          Option.bind_some]
        rfl

/-! ## Integers -/

theorem numeral?_integer {value : Int} (h : isNormal (.integer value) = true) :
    numeral? (numberText (.integer value)) = some (.number (.integer value)) := by
  obtain ⟨hlow, hhigh⟩ : -Int.pow 2 63 ≤ value ∧ value < Int.pow 2 64 := by
    simpa [isNormal] using h
  have hpow : Int.pow 2 63 = 9223372036854775808 ∧ Int.pow 2 64 = 18446744073709551616 := by
    decide
  have hread := numeral?_sign_append (decide (value < 0)) (Nat.toDigits 10 value.natAbs) []
    (isWhole_toDigits value.natAbs) (fun _ => isDigit_of_mem_toDigits) (by simp) rfl rfl
  rw [List.append_nil] at hread
  rw [numberText_integer, hread, decimal_toDigits]
  by_cases hneg : value < 0
  · simp only [hneg, decide_true, Bool.true_eq_false, false_and, and_false, if_false, true_and]
    rw [if_pos]
    · congr 3
      omega
    · constructor
      · omega
      · show value.natAbs ≤ 18446744073709551616 / 2
        omega
  · simp only [hneg, decide_false, true_and]
    rw [if_pos]
    · congr 3
      omega
    · show value.natAbs < 18446744073709551616
      omega

/-! ## Decimals -/

/-- A number whose digits end far enough to the left is no infinity. -/
theorem isInfinite_of_lt {value count : Nat} {exponent : Int} (hcount : 0 < count)
    (hvalue : value < 10 ^ count) (h : count + exponent < 309) :
    isInfinite value exponent = false := by
  have hlength := (Nat.length_toDigits_le_iff (by decide) hcount).2 hvalue
  unfold isInfinite
  by_cases hzero : value = 0
  · rw [if_pos hzero]
  · rw [if_neg hzero]
    exact if_pos (by omega)

theorem withoutZeros_replicate_append (count : Nat) (digits : List Char) :
    withoutZeros (List.replicate count '0' ++ digits) =
      ((withoutZeros digits).1, (withoutZeros digits).2 + count) := by
  induction count with
  | zero => rfl
  | succ count ih =>
    rw [List.replicate_succ, List.cons_append, withoutZeros, ih]
    rfl

theorem withoutZeros_of_head {digits : List Char} (h : digits.head? ≠ some '0') :
    withoutZeros digits = (digits, 0) := by
  unfold withoutZeros
  split
  · exact absurd rfl h
  · rfl

theorem head?_reverse_toDigits {number : Nat} (h : number % 10 ≠ 0) :
    (Nat.toDigits 10 number).reverse.head? ≠ some '0' := by
  have hdigit : ∀ digit < 10, digit ≠ 0 → some (Nat.digitChar digit) ≠ some '0' := by decide
  have hlast := hdigit (number % 10) (Nat.mod_lt _ (by decide)) h
  by_cases hsmall : number < 10
  · rw [Nat.toDigits_of_lt_base hsmall]
    rwa [Nat.mod_eq_of_lt hsmall] at hlast
  · rw [Nat.toDigits_of_base_le (by decide) (by omega), List.reverse_append]
    exact hlast

/-- Zeros on both sides of a number without zeros at its end do not count. -/
theorem decimalOf_zeros (negative : Bool) (front back : Nat) {number : Nat} (exponent : Int)
    (h : number % 10 ≠ 0) :
    decimalOf negative
        (List.replicate front '0' ++ Nat.toDigits 10 number ++ List.replicate back '0') exponent =
      .decimal negative number (exponent + back) := by
  have hne : (Nat.toDigits 10 number).reverse ≠ [] := by
    simp [Nat.toDigits_ne_nil]
  have hhead : ((Nat.toDigits 10 number).reverse ++ List.replicate front '0').head? ≠ some '0' := by
    have hlast := head?_reverse_toDigits h
    cases hdigits : (Nat.toDigits 10 number).reverse with
    | nil => exact absurd hdigits hne
    | cons last rest =>
      rw [hdigits] at hlast
      exact hlast
  have hwithout : withoutZeros
      (List.replicate front '0' ++ Nat.toDigits 10 number ++ List.replicate back '0').reverse =
        ((Nat.toDigits 10 number).reverse ++ List.replicate front '0', back) := by
    rw [List.reverse_append, List.reverse_append, List.reverse_replicate, List.reverse_replicate,
      withoutZeros_replicate_append, withoutZeros_of_head hhead, Nat.zero_add]
  unfold decimalOf
  simp only [hwithout]
  rw [if_neg (by simp [Nat.toDigits_ne_nil]), List.reverse_append, List.reverse_reverse,
    List.reverse_replicate, decimal_append, decimal_zeros, Nat.mul_zero, decimal_toDigits]

theorem decimalOf_replicate_zero (negative : Bool) (count : Nat) (exponent : Int) :
    decimalOf negative (List.replicate count '0') exponent = .decimal negative 0 0 := by
  have hwithout := withoutZeros_replicate_append count []
  rw [List.append_nil] at hwithout
  unfold decimalOf
  rw [List.reverse_replicate, hwithout]
  rfl

/-- A decimal that is normal has no zero at the end of its digits, and is no infinity. -/
theorem isNormal_decimal {negative : Bool} {number : Nat} {exponent : Int} :
    isNormal (.decimal negative number exponent) = true ↔
      (number = 0 ∧ exponent = 0) ∨ (number % 10 ≠ 0 ∧ isInfinite number exponent = false) := by
  unfold isNormal
  by_cases h : number = 0
  · simp [h]
  · simp [h]

section Shapes

variable (negative : Bool) {number : Nat} {exponent : Int}

/-- A numeral with a point or a power of ten is read by its digits, whatever zeros are around. -/
theorem numeral?_shape {whole tail places back : List Char} {power : Int} {front zeros : Nat}
    (hwhole : isWhole whole = true) (hdigits : ∀ c ∈ whole, c.isDigit = true)
    (htail : ∀ c ∈ tail.head?, c.isDigit = false) (hne : tail ≠ [])
    (hfraction : fraction? tail = some (places, back)) (hpower : exponent? back = some power)
    (hall : whole ++ places =
      List.replicate front '0' ++ Nat.toDigits 10 number ++ List.replicate zeros '0')
    (hexponent : power - places.length = exponent - zeros) (hnumber : number % 10 ≠ 0)
    (hfinite : isInfinite (10 ^ zeros * number) (exponent - zeros) = false) :
    numeral? (sign negative ++ (whole ++ tail)) =
      some (.number (.decimal negative number exponent)) := by
  have hvalue : decimal 0
      (List.replicate front '0' ++ Nat.toDigits 10 number ++ List.replicate zeros '0') =
        10 ^ zeros * number := by
    rw [decimal_append, decimal_append, decimal_zeros, decimal_zeros, Nat.mul_zero,
      decimal_toDigits]
  rw [numeral?_sign_append negative whole tail hwhole hdigits htail hfraction hpower]
  simp only [hall, hvalue, hne, false_and, if_false, hexponent, hfinite, Bool.false_eq_true,
    decimalOf_zeros negative front zeros _ hnumber, Int.sub_add_cancel]

theorem fraction?_digits {places back : List Char} (hne : places ≠ [])
    (hplaces : ∀ c ∈ places, c.isDigit = true) (hback : ∀ c ∈ back.head?, c.isDigit = false) :
    fraction? ('.' :: (places ++ back)) = some (places, back) := by
  simp only [fraction?, digits_append hplaces hback, if_neg hne]

theorem fraction?_point {places : List Char} (hne : places ≠ [])
    (hplaces : ∀ c ∈ places, c.isDigit = true) : fraction? ('.' :: places) = some (places, []) := by
  simp only [fraction?, digits_eq_self hplaces, if_neg hne]

theorem head?_point (tail : List Char) : ∀ c ∈ ('.' :: tail).head?, c.isDigit = false := by
  intro c hc
  cases hc
  rfl

theorem isDigit_zeros (count : Nat) : ∀ c ∈ List.replicate count '0', c.isDigit = true := by
  intro c hc
  rw [List.eq_of_mem_replicate hc]
  rfl

/-- The digits, the zeros that a whole number has behind them, and one zero behind the point. -/
theorem numeral?_whole (hnumber : number % 10 ≠ 0) {zeros : Nat}
    (hlength : (Nat.toDigits 10 number).length + zeros ≤ 16) :
    numeral? (sign negative ++
        (Nat.toDigits 10 number ++ List.replicate zeros '0' ++ ['.', '0'])) =
      some (.number (.decimal negative number zeros)) := by
  have hhead : (Nat.toDigits 10 number).head? ≠ some '0' :=
    head?_toDigits_ne_zero fun hzero => hnumber (by rw [hzero])
  have hwhole : isWhole (Nat.toDigits 10 number ++ List.replicate zeros '0') = true := by
    refine isWhole_of_head (by simp [Nat.toDigits_ne_nil]) ?_
    cases hdigits : Nat.toDigits 10 number with
    | nil => exact absurd hdigits Nat.toDigits_ne_nil
    | cons first rest => simpa [hdigits] using hhead
  have hlt : 10 ^ (zeros + 1) * number < 10 ^ ((Nat.toDigits 10 number).length + zeros + 1) := by
    have hnumber : number < 10 ^ (Nat.toDigits 10 number).length :=
      (Nat.length_toDigits_le_iff (by decide) Nat.length_toDigits_pos).1 (Nat.le_refl _)
    rw [Nat.add_assoc, Nat.pow_add 10 (Nat.toDigits 10 number).length, Nat.mul_comm]
    exact Nat.mul_lt_mul_of_pos_right hnumber (Nat.pow_pos (by decide))
  have hall : Nat.toDigits 10 number ++ List.replicate zeros '0' ++ ['0'] =
      List.replicate 0 '0' ++ Nat.toDigits 10 number ++ List.replicate (zeros + 1) '0' := by
    simp [List.replicate_succ']
  refine numeral?_shape negative hwhole ?_ (head?_point _) (by simp) rfl rfl hall ?_ hnumber ?_
  · intro c hc
    rcases List.mem_append.1 hc with hc | hc
    · exact isDigit_of_mem_toDigits hc
    · exact isDigit_zeros zeros c hc
  · show (0 : Int) - (1 : Nat) = (zeros : Int) - (zeros + 1 : Nat)
    omega
  · exact isInfinite_of_lt (by omega) hlt (by omega)

/-- The point between two digits. -/
theorem numeral?_point (hnumber : number % 10 ≠ 0) {count : Nat} (hpos : 0 < count)
    (hlt : count < (Nat.toDigits 10 number).length)
    (hexponent : count = (Nat.toDigits 10 number).length + exponent)
    (hfinite : isInfinite number exponent = false) :
    numeral? (sign negative ++
        ((Nat.toDigits 10 number).take count ++ '.' :: (Nat.toDigits 10 number).drop count)) =
      some (.number (.decimal negative number exponent)) := by
  have hhead : (Nat.toDigits 10 number).head? ≠ some '0' :=
    head?_toDigits_ne_zero fun hzero => hnumber (by rw [hzero])
  have hwhole : isWhole ((Nat.toDigits 10 number).take count) = true := by
    have hcount : count ≠ 0 := Nat.pos_iff_ne_zero.1 hpos
    refine isWhole_of_head (by simp [Nat.toDigits_ne_nil, hcount]) ?_
    rwa [List.head?_take, if_neg hcount]
  have hplaces : (Nat.toDigits 10 number).drop count ≠ [] := by
    simpa using hlt
  have hfraction := fraction?_point hplaces
    fun c hc => isDigit_of_mem_toDigits (List.mem_of_mem_drop hc)
  have hall : (Nat.toDigits 10 number).take count ++ (Nat.toDigits 10 number).drop count =
      List.replicate 0 '0' ++ Nat.toDigits 10 number ++ List.replicate 0 '0' := by
    simp
  refine numeral?_shape negative hwhole ?_ (head?_point _) (by simp) hfraction rfl hall ?_
    hnumber (by simpa using hfinite)
  · exact fun c hc => isDigit_of_mem_toDigits (List.mem_of_mem_take hc)
  · rw [List.length_drop]
    omega

/-- Nothing but zeros in front of the digits. -/
theorem numeral?_fraction (hnumber : number % 10 ≠ 0) {zeros : Nat}
    (hexponent : -exponent = zeros + (Nat.toDigits 10 number).length)
    (hfinite : isInfinite number exponent = false) :
    numeral? (sign negative ++
        (['0'] ++ '.' :: (List.replicate zeros '0' ++ Nat.toDigits 10 number))) =
      some (.number (.decimal negative number exponent)) := by
  have hplaces : ∀ c ∈ List.replicate zeros '0' ++ Nat.toDigits 10 number, c.isDigit = true := by
    intro c hc
    rcases List.mem_append.1 hc with hc | hc
    · exact isDigit_zeros zeros c hc
    · exact isDigit_of_mem_toDigits hc
  have hfraction := fraction?_point (by simp [Nat.toDigits_ne_nil]) hplaces
  have hall : ['0'] ++ (List.replicate zeros '0' ++ Nat.toDigits 10 number) =
      List.replicate (zeros + 1) '0' ++ Nat.toDigits 10 number ++ List.replicate 0 '0' := by
    simp [List.replicate_succ]
  refine numeral?_shape negative rfl (isDigit_zeros 1) (head?_point _) (by simp) hfraction rfl
    hall ?_ hnumber (by simpa using hfinite)
  rw [List.length_append, List.length_replicate]
  omega

/-- Every digit of a number that is normal, with the point where it belongs. -/
theorem numeral?_positional (hnumber : number % 10 ≠ 0)
    (hfinite : isInfinite number exponent = false)
    (hmagnitude : (Nat.toDigits 10 number).length + exponent ≤ 16) :
    numeral? (sign negative ++ positional (Nat.toDigits 10 number) (-exponent)) =
      some (.number (.decimal negative number exponent)) := by
  unfold positional
  dsimp only
  split
  · next hplaces =>
    obtain ⟨zeros, rfl⟩ := Int.eq_ofNat_of_zero_le (show 0 ≤ exponent by omega)
    rw [Int.natAbs_neg, Int.natAbs_natCast]
    exact numeral?_whole negative hnumber (by omega)
  · next hplaces =>
    split
    · next hlt => exact numeral?_point negative hnumber (by omega) (by omega) (by omega) hfinite
    · next hge => exact numeral?_fraction negative hnumber (by omega) hfinite

theorem exponent?_integerText (power : Int) :
    exponent? ('e' :: integerText power) = some power := by
  have hdigits : digits (Nat.toDigits 10 power.natAbs) = (Nat.toDigits 10 power.natAbs, []) :=
    digits_eq_self fun _ => isDigit_of_mem_toDigits
  by_cases hneg : power < 0
  · rw [integerText, if_pos hneg, exponent?]
    simp only [true_or, if_true, hdigits, Nat.toDigits_ne_nil, ne_eq, not_true_eq_false, or_self,
      if_false, decimal_toDigits]
    congr 1
    omega
  · have hne : ∀ c rest, c.isDigit = false → Nat.toDigits 10 power.natAbs ≠ c :: rest := by
      intro c rest hc heq
      have hdigit := isDigit_of_mem_toDigits (heq ▸ List.mem_cons_self ..)
      rw [hc] at hdigit
      cases hdigit
    rw [integerText, if_neg hneg, exponent?]
    · simp only [true_or, if_true, hdigits, Nat.toDigits_ne_nil, ne_eq, not_true_eq_false,
        or_self, if_false, decimal_toDigits, Bool.false_eq_true]
      congr 1
      omega
    · exact fun rest => hne '+' rest rfl
    · exact fun rest => hne '-' rest rfl

theorem numeral?_scientific (hnumber : number % 10 ≠ 0)
    (hfinite : isInfinite number exponent = false) :
    numeral? (sign negative ++ scientific (Nat.toDigits 10 number)
        ((Nat.toDigits 10 number).length + exponent - 1)) =
      some (.number (.decimal negative number exponent)) := by
  have hmark : ∀ tail, ∀ c ∈ ('e' :: tail).head?, c.isDigit = false := by
    intro tail c hc
    cases hc
    rfl
  have hisDigit : ∀ c ∈ Nat.toDigits 10 number, c.isDigit = true :=
    fun _ => isDigit_of_mem_toDigits
  cases hdigits : Nat.toDigits 10 number with
  | nil => exact absurd hdigits Nat.toDigits_ne_nil
  | cons first rest =>
    cases rest with
    | nil =>
      have hall : [first] ++ [] =
          List.replicate 0 '0' ++ Nat.toDigits 10 number ++ List.replicate 0 '0' := by
        simp [hdigits]
      rw [hdigits] at hisDigit
      refine numeral?_shape negative rfl hisDigit (hmark _) (by simp) rfl
        (exponent?_integerText _) hall ?_ hnumber (by simpa using hfinite)
      simp only [List.length_singleton, List.length_nil]
      omega
    | cons next rest =>
      have hall : [first] ++ (next :: rest) =
          List.replicate 0 '0' ++ Nat.toDigits 10 number ++ List.replicate 0 '0' := by
        simp [hdigits]
      rw [hdigits] at hisDigit
      have hfraction := fun power => fraction?_digits (List.cons_ne_nil next rest)
        (fun c hc => hisDigit c (List.mem_cons_of_mem _ hc)) (hmark (integerText power))
      show numeral? (sign negative ++
        ([first] ++ '.' :: ((next :: rest) ++ 'e' :: integerText _))) = _
      refine numeral?_shape negative rfl ?_ (head?_point _) (by simp) (hfraction _)
        (exponent?_integerText _) hall ?_ hnumber (by simpa using hfinite)
      · intro c hc
        rw [List.mem_singleton.1 hc]
        exact hisDigit first (List.mem_cons_self ..)
      · simp only [List.length_cons]
        omega

end Shapes

/-- A number that is normal is read from its text. -/
theorem numeral?_numberText {number : Number} (h : isNormal number = true) :
    numeral? (numberText number) = some (.number number) := by
  cases number with
  | integer value => exact numeral?_integer h
  | decimal negative number exponent =>
    rw [numberText_decimal]
    rcases isNormal_decimal.1 h with ⟨rfl, rfl⟩ | ⟨hnumber, hfinite⟩
    · have hread := numeral?_sign_append negative ['0'] ['.', '0'] rfl (isDigit_zeros 1)
        (head?_point _) rfl rfl
      have hzeros := decimalOf_replicate_zero negative 2 (0 - (1 : Nat))
      simp only [reduceCtorEq, false_and, if_false] at hread
      exact hread.trans (congrArg (fun number => some (Json.number number)) hzeros)
    · unfold decimalText
      dsimp only
      split
      · next hmagnitude => exact numeral?_positional negative hnumber hfinite hmagnitude.2
      · exact numeral?_scientific negative hnumber hfinite

end PreviewInstaller.Json
