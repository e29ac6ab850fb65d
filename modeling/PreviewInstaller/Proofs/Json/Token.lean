import PreviewInstaller.Proofs.Json.Numeral

set_option autoImplicit false

/-! # Tokens of printed values

The tokens of a value that is printed are those that the value is made of, whatever follows that
does not go on with its last token. -/

namespace PreviewInstaller.Json

open Text (isDigit_of_mem_toDigits isDigit_iff)

/-! ## Steps -/

theorem tokensFrom?_cons {mode next : Mode} {tokens : List Token} {c : Char} {rest : List Char}
    (h : step? mode c = some (next, tokens)) :
    tokensFrom? mode (c :: rest) = (tokensFrom? next rest).map (tokens ++ ·) := by
  rw [tokensFrom?, h]
  cases htokens : tokensFrom? next rest <;> simp [htokens]

/-- A step that finishes no token only changes the mode. -/
theorem tokensFrom?_cons_nil {mode : Mode} (next : Mode) {c : Char} {rest : List Char}
    (h : step? mode c = some (next, [])) :
    tokensFrom? mode (c :: rest) = tokensFrom? next rest := by
  rw [tokensFrom?_cons h]
  simp

/-- A character that is a token of its own. -/
theorem tokensFrom?_mark {c : Char} {token : Token} {rest : List Char}
    (h : step? .gap c = some (.gap, [token])) :
    tokensFrom? .gap (c :: rest) = (tokensFrom? .gap rest).map (token :: ·) :=
  tokensFrom?_cons h

/-! ## Text between quotes -/

/-- A character as it is read back from between quotes. -/
def pieceOf (c : Char) : Piece :=
  if c.toNat < 0x20 then .code c.toNat else .char c

/-- No piece of a text that is printed is half a surrogate pair. -/
theorem characters?_map_pieceOf (text : List Char) :
    characters? (text.map pieceOf) = some text := by
  induction text with
  | nil => rfl
  | cons c rest ih =>
    rw [List.map_cons, pieceOf]
    split
    · next hlow =>
      have hhigh : ¬(0xD800 ≤ c.toNat ∧ c.toNat < 0xDC00) := by omega
      have hpair : ¬(0xDC00 ≤ c.toNat ∧ c.toNat < 0xE000) := by omega
      have hhalf : ¬(0xD800 ≤ c.toNat ∧ c.toNat < 0xE000) := by omega
      have hcode : characters? (.code c.toNat :: rest.map pieceOf) =
          (Char.ofNat c.toNat :: ·) <$> characters? (rest.map pieceOf) := by
        generalize rest.map pieceOf = pieces
        rw [characters?.eq_def]
        cases pieces with
        | nil => exact if_neg hhalf
        | cons piece pieces =>
          cases piece with
          | char _ => exact if_neg hhalf
          | code _ => exact (if_neg hhigh).trans (if_neg hpair)
      rw [hcode, ih, Char.ofNat_toNat]
      rfl
    · rw [characters?, ih]
      rfl

/-- A control character is written with two zeros and two hexadecimal digits. -/
theorem controlEscape_eq {c : Char} (h : c.toNat < 0x20) :
    controlEscape c =
        ['\\', 'u', '0', '0', Nat.digitChar (c.toNat / 16), Nat.digitChar (c.toNat % 16)] ∧
      hexDigit? (Nat.digitChar (c.toNat / 16)) = some (c.toNat / 16) ∧
      hexDigit? (Nat.digitChar (c.toNat % 16)) = some (c.toNat % 16) := by
  have hall : ∀ code < 0x20, controlEscape (Char.ofNat code) =
        ['\\', 'u', '0', '0', Nat.digitChar (code / 16), Nat.digitChar (code % 16)] ∧
      hexDigit? (Nat.digitChar (code / 16)) = some (code / 16) ∧
      hexDigit? (Nat.digitChar (code % 16)) = some (code % 16) := by
    decide
  have hc := hall c.toNat h
  rwa [Char.ofNat_toNat] at hc

/-- A character is read back however it is written. -/
theorem tokensFrom?_escapeChar (pieces : List Piece) (c : Char) (rest : List Char) :
    tokensFrom? (.text pieces) (escapeChar c ++ rest) =
      tokensFrom? (.text (pieceOf c :: pieces)) rest := by
  unfold escapeChar
  split
  · next hquote =>
    subst hquote
    exact (tokensFrom?_cons_nil _ rfl).trans (tokensFrom?_cons_nil _ rfl)
  · next hquote =>
    split
    · next hbackslash =>
      subst hbackslash
      exact (tokensFrom?_cons_nil _ rfl).trans (tokensFrom?_cons_nil _ rfl)
    · next hbackslash =>
      split
      · next hlow =>
        obtain ⟨hescape, hhigh, hlowDigit⟩ := controlEscape_eq hlow
        have hcode : (0 * 16 + c.toNat / 16) * 16 + c.toNat % 16 = c.toNat := by omega
        rw [hescape, pieceOf, if_pos hlow]
        simp only [List.cons_append, List.nil_append]
        rw [tokensFrom?_cons_nil (.escape pieces) rfl,
          tokensFrom?_cons_nil (.unicode pieces 0 0) rfl,
          tokensFrom?_cons_nil (.unicode pieces 1 0) rfl,
          tokensFrom?_cons_nil (.unicode pieces 2 0) rfl,
          tokensFrom?_cons_nil (.unicode pieces 3 (c.toNat / 16)) (by
            simp [step?, hhigh]),
          tokensFrom?_cons_nil (.text (.code c.toNat :: pieces)) (by
            simp [step?, hlowDigit]; omega)]
      · next hlow =>
        rw [List.singleton_append, pieceOf, if_neg hlow]
        refine tokensFrom?_cons_nil _ ?_
        simp only [step?, hquote, hbackslash, hlow, if_false]

theorem tokensFrom?_flatMap_escapeChar (pieces : List Piece) (text rest : List Char) :
    tokensFrom? (.text pieces) (text.flatMap escapeChar ++ rest) =
      tokensFrom? (.text ((text.map pieceOf).reverse ++ pieces)) rest := by
  induction text generalizing pieces with
  | nil => rfl
  | cons c text ih =>
    rw [List.flatMap_cons, List.append_assoc, tokensFrom?_escapeChar, ih, List.map_cons,
      List.reverse_cons, List.append_assoc, List.singleton_append]

/-- A text between quotes is one token. -/
theorem tokensFrom?_quote (text : String) (rest : List Char) :
    tokensFrom? .gap (quote text ++ rest) =
      (tokensFrom? .gap rest).map (.text (some text) :: ·) := by
  rw [quote, List.cons_append, List.cons_append, List.append_assoc,
    tokensFrom?_cons_nil (.text []) rfl, tokensFrom?_flatMap_escapeChar, List.append_nil, List.singleton_append]
  have hend : step? (.text (text.toList.map pieceOf).reverse) '"' =
      some (.gap, [.text (some text)]) := by
    rw [step?, if_pos rfl, List.reverse_reverse, characters?_map_pieceOf, Option.map_some,
      String.ofList_toList]
  exact tokensFrom?_cons hend

/-! ## Words and numerals -/

/-- What follows a scalar does not go on with it. -/
def EndsScalar (rest : List Char) : Prop :=
  ∀ c ∈ rest.head?, c.isLower = false ∧ isNumeral c = false

/-- What follows a scalar ends it. -/
theorem tokensFrom?_endScalar {mode : Mode} {value : Json}
    (hfinish : finish? mode = some [.scalar value]) {rest : List Char}
    (hstep : ∀ c ∈ rest.head?, step? mode c = endScalar? (some value) c) :
    tokensFrom? mode rest = (tokensFrom? .gap rest).map (.scalar value :: ·) := by
  cases rest with
  | nil => exact hfinish
  | cons c rest =>
    rw [tokensFrom?, hstep c rfl, tokensFrom?, step?, endScalar?]
    cases begin? c with
    | none => rfl
    | some next =>
      obtain ⟨mode, tokens⟩ := next
      cases htokens : tokensFrom? mode rest <;> simp [htokens]

/-- A mode that collects characters collects all of a text. -/
theorem tokensFrom?_collect (collect : List Char → Mode) {text : List Char}
    (h : ∀ c ∈ text, ∀ seen, step? (collect seen) c = some (collect (c :: seen), []))
    (seen rest : List Char) :
    tokensFrom? (collect seen) (text ++ rest) =
      tokensFrom? (collect (text.reverse ++ seen)) rest := by
  induction text generalizing seen with
  | nil => rfl
  | cons c text ih =>
    rw [List.cons_append, tokensFrom?_cons_nil _ (h c (List.mem_cons_self ..) seen),
      ih fun c hc => h c (List.mem_cons_of_mem _ hc)]
    simp

theorem tokensFrom?_word {first : Char} {text : List Char} {value : Json}
    (hword : word? (first :: text) = some value)
    (hfirst : step? .gap first = some (.word [first], []))
    (hlower : ∀ c ∈ text, c.isLower = true) {rest : List Char} (hrest : EndsScalar rest) :
    tokensFrom? .gap (first :: text ++ rest) =
      (tokensFrom? .gap rest).map (.scalar value :: ·) := by
  rw [List.cons_append, tokensFrom?_cons_nil _ hfirst,
    tokensFrom?_collect .word fun c hc seen => if_pos (hlower c hc)]
  refine tokensFrom?_endScalar ?_ fun c hc => ?_
  · simp [finish?, hword]
  · simp [step?, (hrest c hc).1, hword]

theorem tokensFrom?_numeral {first : Char} {text : List Char} {value : Json}
    (hnumeral : numeral? (first :: text) = some value)
    (hfirst : step? .gap first = some (.numeral [first], []))
    (hchars : ∀ c ∈ text, isNumeral c = true) {rest : List Char} (hrest : EndsScalar rest) :
    tokensFrom? .gap (first :: text ++ rest) =
      (tokensFrom? .gap rest).map (.scalar value :: ·) := by
  rw [List.cons_append, tokensFrom?_cons_nil _ hfirst,
    tokensFrom?_collect .numeral fun c hc seen => if_pos (hchars c hc)]
  refine tokensFrom?_endScalar ?_ fun c hc => ?_
  · simp [finish?, hnumeral]
  · simp [step?, (hrest c hc).2, hnumeral]

/-! ## Numbers -/

theorem isNumeral_of_isDigit {c : Char} (h : c.isDigit = true) : isNumeral c = true := by
  simp [isNumeral, h]

theorem isNumeral_of_mem_integerText {value : Int} {c : Char} (h : c ∈ integerText value) :
    isNumeral c = true := by
  unfold integerText at h
  split at h
  · rcases List.mem_cons.1 h with rfl | h
    · rfl
    · exact isNumeral_of_isDigit (isDigit_of_mem_toDigits h)
  · exact isNumeral_of_isDigit (isDigit_of_mem_toDigits h)

theorem isNumeral_of_mem_decimalText {digits : List Char} {exponent : Int}
    (hdigits : ∀ c ∈ digits, isNumeral c = true) :
    ∀ c ∈ decimalText digits exponent, isNumeral c = true := by
  have hzeros : ∀ count, ∀ c ∈ List.replicate count '0', isNumeral c = true :=
    fun count c hc => isNumeral_of_isDigit (isDigit_zeros count c hc)
  intro c hc
  unfold decimalText at hc
  dsimp only at hc
  split at hc
  · unfold positional at hc
    dsimp only at hc
    split at hc
    · simp only [List.mem_append, List.mem_cons, List.not_mem_nil, or_false] at hc
      rcases hc with (hc | hc) | rfl | rfl
      · exact hdigits c hc
      · exact hzeros _ c hc
      · rfl
      · rfl
    · split at hc
      · simp only [List.mem_append, List.mem_cons] at hc
        rcases hc with hc | rfl | hc
        · exact hdigits c (List.mem_of_mem_take hc)
        · rfl
        · exact hdigits c (List.mem_of_mem_drop hc)
      · simp only [List.cons_append, List.mem_append, List.mem_cons] at hc
        rcases hc with rfl | rfl | hc | hc
        · rfl
        · rfl
        · exact hzeros _ c hc
        · exact hdigits c hc
  · unfold scientific at hc
    simp only [List.mem_append, List.mem_cons] at hc
    rcases hc with hc | rfl | hc
    · split at hc
      · next first next rest =>
        simp only [List.mem_cons] at hc hdigits
        rcases hc with rfl | rfl | hc
        · exact hdigits c (.inl rfl)
        · rfl
        · exact hdigits c (.inr hc)
      · exact hdigits c hc
    · rfl
    · exact isNumeral_of_mem_integerText hc

theorem isNumeral_of_mem_numberText {number : Number} {c : Char} (h : c ∈ numberText number) :
    isNumeral c = true := by
  cases number with
  | integer value => exact isNumeral_of_mem_integerText h
  | decimal negative number exponent =>
    rw [numberText_decimal] at h
    rcases List.mem_append.1 h with h | h
    · cases negative with
      | true =>
        rw [List.mem_singleton.1 h]
        rfl
      | false => cases h
    · exact isNumeral_of_mem_decimalText
        (fun c hc => isNumeral_of_isDigit (isDigit_of_mem_toDigits hc)) c h

/-- Nothing is a numeral that begins with neither a sign nor a digit. -/
theorem numeral?_eq_none {text : List Char}
    (h : ∀ c ∈ text.head?, c.isDigit = false ∧ c ≠ '-') : numeral? text = none := by
  have hdigits : digits ([] ++ text) = ([], text) :=
    digits_append (by simp) fun c hc => (h c hc).1
  rw [List.nil_append] at hdigits
  unfold numeral?
  split
  · next heq =>
    split at heq
    · exact absurd rfl (h '-' rfl).2
    · cases heq
      rw [hdigits]
      rfl

/-- A sign or a digit begins a numeral. -/
theorem step?_gap_of_isDigit_or {c : Char} (h : c.isDigit = true ∨ c = '-') :
    step? .gap c = some (.numeral [c], []) := by
  have hgap : ¬isGap c = true := by
    intro hgap
    simp only [isGap, Bool.or_eq_true, decide_eq_true_eq] at hgap
    rcases hgap with ((rfl | rfl) | rfl) | rfl <;> revert h <;> decide
  have hquote : c ≠ '"' := by
    rintro rfl
    revert h
    decide
  show begin? c = _
  unfold begin?
  rw [if_neg hgap, if_neg hquote, if_pos (by simpa using h)]

/-- A number that is normal is one token. -/
theorem tokensFrom?_number {number : Number} (h : isNormal number = true) {rest : List Char}
    (hrest : EndsScalar rest) :
    tokensFrom? .gap (numberText number ++ rest) =
      (tokensFrom? .gap rest).map (.scalar (.number number) :: ·) := by
  have hnumeral := numeral?_numberText h
  have hchars : ∀ c ∈ numberText number, isNumeral c = true :=
    fun _ => isNumeral_of_mem_numberText
  generalize numberText number = text at hnumeral hchars
  cases text with
  | nil => cases hnumeral
  | cons first text =>
    have hfirst : first.isDigit = true ∨ first = '-' := by
      by_contra hneither
      rw [numeral?_eq_none (by simpa using hneither)] at hnumeral
      cases hnumeral
    refine tokensFrom?_numeral hnumeral (step?_gap_of_isDigit_or hfirst)
      (fun c hc => hchars c (List.mem_cons_of_mem _ hc)) hrest

/-! ## Values -/

mutual

/-- The tokens that a value is made of. -/
def tokensOf : Json → List Token
  | .null | .unreadable => [.scalar .null]
  | .bool value => [.scalar (.bool value)]
  | .number value => [.scalar (.number value)]
  | .text value => [.text (some value)]
  | .array elements => .openArray :: tokensOfElements elements ++ [.closeArray]
  | .object members => .openObject :: tokensOfMembers members ++ [.closeObject]

/-- The tokens of elements with commas between them. -/
def tokensOfElements : List Json → List Token
  | [] => []
  | [value] => tokensOf value
  | value :: next :: rest => tokensOf value ++ .comma :: tokensOfElements (next :: rest)

/-- The tokens of members with commas between them. -/
def tokensOfMembers : List (String × Json) → List Token
  | [] => []
  | [(key, value)] => .text (some key) :: .colon :: tokensOf value
  | (key, value) :: next :: rest =>
    .text (some key) :: .colon :: tokensOf value ++ .comma :: tokensOfMembers (next :: rest)

end

/-! ## Printed values -/

theorem endsScalar_cons {c : Char} {rest : List Char} (hlower : c.isLower = false)
    (hnumeral : isNumeral c = false) : EndsScalar (c :: rest) := by
  intro c' hc
  cases hc
  exact ⟨hlower, hnumeral⟩

mutual

/-- A value that is printed is read as its tokens. -/
theorem tokensFrom?_print : (value : Json) → value.isReadable = true → (rest : List Char) →
    EndsScalar rest → tokensFrom? .gap (print value ++ rest) =
      (tokensFrom? .gap rest).map (tokensOf value ++ ·)
  | .null, _, rest, hrest => tokensFrom?_word rfl rfl (List.all_eq_true.1 rfl) hrest
  | .bool true, _, rest, hrest => tokensFrom?_word rfl rfl (List.all_eq_true.1 rfl) hrest
  | .bool false, _, rest, hrest => tokensFrom?_word rfl rfl (List.all_eq_true.1 rfl) hrest
  | .number _, h, _, hrest => tokensFrom?_number h hrest
  | .text value, _, rest, _ => tokensFrom?_quote value rest
  | .array elements, h, rest, _ => by
    rw [print, List.cons_append, List.cons_append, List.append_assoc, List.singleton_append,
      tokensFrom?_mark rfl, tokensFrom?_printElements elements h _ (endsScalar_cons rfl rfl),
      tokensFrom?_mark rfl]
    simp [tokensOf, Function.comp_def]
  | .object members, h, rest, _ => by
    rw [print, List.cons_append, List.cons_append, List.append_assoc, List.singleton_append,
      tokensFrom?_mark rfl, tokensFrom?_printMembers members h _ (endsScalar_cons rfl rfl),
      tokensFrom?_mark rfl]
    simp [tokensOf, Function.comp_def]

theorem tokensFrom?_printElements : (elements : List Json) → areReadable elements = true →
    (rest : List Char) → EndsScalar rest → tokensFrom? .gap (printElements elements ++ rest) =
      (tokensFrom? .gap rest).map (tokensOfElements elements ++ ·)
  | [], _, rest, _ => by simp [printElements, tokensOfElements]
  | [value], h, rest, hrest =>
    tokensFrom?_print value (Bool.and_eq_true_iff.1 h).1 rest hrest
  | value :: next :: others, h, rest, hrest => by
    obtain ⟨hvalue, hothers⟩ := Bool.and_eq_true_iff.1 h
    rw [printElements, List.append_assoc, List.cons_append,
      tokensFrom?_print value hvalue _ (endsScalar_cons rfl rfl), tokensFrom?_mark rfl,
      tokensFrom?_printElements (next :: others) hothers rest hrest]
    simp [tokensOfElements, Function.comp_def]

theorem tokensFrom?_printMembers : (members : List (String × Json)) →
    haveReadable members = true → (rest : List Char) → EndsScalar rest →
      tokensFrom? .gap (printMembers members ++ rest) =
        (tokensFrom? .gap rest).map (tokensOfMembers members ++ ·)
  | [], _, rest, _ => by simp [printMembers, tokensOfMembers]
  | [(key, value)], h, rest, hrest => by
    rw [printMembers, List.append_assoc, List.cons_append, tokensFrom?_quote,
      tokensFrom?_mark rfl, tokensFrom?_print value (Bool.and_eq_true_iff.1 h).1 rest hrest]
    simp [tokensOfMembers, Function.comp_def]
  | (key, value) :: next :: others, h, rest, hrest => by
    obtain ⟨hvalue, hothers⟩ := Bool.and_eq_true_iff.1 h
    rw [printMembers, List.append_assoc, List.append_assoc, List.cons_append, List.cons_append,
      tokensFrom?_quote, tokensFrom?_mark rfl,
      tokensFrom?_print value hvalue _ (endsScalar_cons rfl rfl), tokensFrom?_mark rfl,
      tokensFrom?_printMembers (next :: others) hothers rest hrest]
    simp [tokensOfMembers, Function.comp_def]

end

end PreviewInstaller.Json
