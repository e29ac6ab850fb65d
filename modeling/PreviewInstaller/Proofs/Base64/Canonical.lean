import PreviewInstaller.Proofs.Base64

set_option autoImplicit false

/-! # Canonical base64

A text that is read is the text of the bytes that are read from it: its body and its tail are
symbols, the padding behind them fills up the last four, and the last symbol has no stray bits. So
reading is the inverse of writing, and bytes have one text. -/

namespace PreviewInstaller.Base64

/-! ## Symbols and padding -/

/-- A byte that stands for six bits is the symbol of them. -/
theorem eq_symbol_of_sextet? {byte : UInt8} {sextet : Sextet} (h : sextet? byte = some sextet) :
    byte = symbol sextet := by
  have hbytes : ∀ n : Fin 256, (sextet? (UInt8.ofNat n)).all (symbol · = UInt8.ofNat n) = true := by
    decide +kernel
  have hbyte := hbytes ⟨byte.toNat, byte.toNat_lt⟩
  rw [UInt8.ofNat_toNat, h] at hbyte
  exact (of_decide_eq_true hbyte).symm

theorem eq_symbols_of_readBody {offset : Nat} {body : List UInt8} {letters : List Sextet}
    (h : readBody offset body = .ok letters) : body = letters.map symbol := by
  induction body generalizing offset letters with
  | nil =>
    cases h
    rfl
  | cons byte rest ih =>
    rw [readBody] at h
    cases hbyte : sextet? byte with
    | none => simp [hbyte] at h
    | some sextet =>
      simp only [hbyte] at h
      cases hrest : readBody (offset + 1) rest with
      | error fault => simp [hrest, Functor.map, Except.map] at h
      | ok others =>
        rw [hrest] at h
        cases h
        rw [List.map_cons, ← eq_symbol_of_sextet? hbyte, ← ih hrest]

/-- Where padding may stand, as many bytes of it as there are: behind the second or the third symbol
of a group of four, and not beyond the group. -/
def MayPad (seen count : Nat) : Prop :=
  count = 0 ∨ seen % 4 = 3 ∧ count = 1 ∨ seen % 4 = 2 ∧ count ≤ 2

/-- Behind padding there is only padding, and it does not leave its group of four. -/
theorem eq_pads_of_readTail {start seen first : Nat} {tail : List UInt8} {letters : List Sextet}
    (h : readTail start seen (some first) tail = .ok letters) :
    letters = [] ∧ ∃ count, tail = List.replicate count pad ∧ MayPad seen count := by
  induction tail generalizing seen first with
  | nil =>
    cases h
    exact ⟨rfl, 0, rfl, .inl rfl⟩
  | cons byte rest ih =>
    rw [readTail] at h
    by_cases hpad : byte = pad
    · rw [if_pos hpad] at h
      by_cases hseen : seen % 4 < 2
      · simp [hseen] at h
      · rw [Option.getD_some, if_neg hseen] at h
        obtain ⟨hletters, count, rfl, hcount⟩ := ih h
        refine ⟨hletters, count + 1, by rw [hpad, List.replicate_succ], ?_⟩
        unfold MayPad at hcount ⊢
        omega
    · simp [hpad] at h

/-- A tail is symbols with padding behind them. -/
theorem eq_symbols_of_readTail {start seen : Nat} {tail : List UInt8} {letters : List Sextet}
    (h : readTail start seen none tail = .ok letters) :
    ∃ count, tail = letters.map symbol ++ List.replicate count pad ∧
      MayPad (seen + letters.length) count := by
  induction tail generalizing seen letters with
  | nil =>
    cases h
    exact ⟨0, rfl, .inl rfl⟩
  | cons byte rest ih =>
    rw [readTail] at h
    by_cases hpad : byte = pad
    · rw [if_pos hpad] at h
      by_cases hseen : seen % 4 < 2
      · simp [hseen] at h
      · rw [if_neg hseen] at h
        obtain ⟨rfl, count, rfl, hcount⟩ := eq_pads_of_readTail h
        refine ⟨count + 1, by rw [hpad, List.replicate_succ]; rfl, ?_⟩
        unfold MayPad at hcount ⊢
        rw [List.length_nil]
        omega
    · rw [if_neg hpad] at h
      cases hbyte : sextet? byte with
      | none => simp [hbyte] at h
      | some sextet =>
        simp only [hbyte] at h
        cases hrest : readTail start (seen + 1) none rest with
        | error fault => simp [hrest, Functor.map, Except.map] at h
        | ok others =>
          rw [hrest] at h
          cases h
          obtain ⟨count, rfl, hcount⟩ := ih hrest
          refine ⟨count, by rw [List.map_cons, ← eq_symbol_of_sextet? hbyte]; rfl, ?_⟩
          rwa [List.length_cons, Nat.add_comm others.length, ← Nat.add_assoc]

/-! ## Bytes of sextets -/

/-- The bytes of whole sextets are spelled with just these. -/
theorem sextets_bytesOf (letters : List Sextet) (hlone : letters.length % 4 ≠ 1)
    (hstray : hasStrayBits letters = false) : sextets (bytesOf letters) = letters := by
  induction letters using bytesOf.induct with
  | case1 a b c d rest ih =>
    have hrest : rest.length % 4 ≠ 1 := by
      simp only [List.length_cons] at hlone
      omega
    have hbits := hasStrayBits_append [a, b, c, d] rest (by simp)
    rw [show [a, b, c, d] ++ rest = a :: b :: c :: d :: rest from rfl, hstray] at hbits
    have ha := a.isLt
    have hb := b.isLt
    have hc := c.isLt
    have hd := d.isLt
    simp only [bytesOf, sextets, ih hrest hbits.symm, List.cons.injEq, Fin.ext_iff, val_sextetOf,
      UInt8.toNat_ofNat', and_true]
    refine ⟨?_, ?_, ?_, ?_⟩ <;> omega
  | case2 a b c =>
    have ha := a.isLt
    have hb := b.isLt
    have hlast : c.val % 4 = 0 := by simpa [hasStrayBits] using hstray
    have hc := c.isLt
    simp only [bytesOf, sextets, List.cons.injEq, Fin.ext_iff, val_sextetOf, UInt8.toNat_ofNat',
      and_true]
    refine ⟨?_, ?_, ?_⟩ <;> omega
  | case3 a b =>
    have ha := a.isLt
    have hlast : b.val % 16 = 0 := by simpa [hasStrayBits] using hstray
    have hb := b.isLt
    simp only [bytesOf, sextets, List.cons.injEq, Fin.ext_iff, val_sextetOf, UInt8.toNat_ofNat',
      and_true]
    refine ⟨?_, ?_⟩ <;> omega
  | case4 letters hfour hthree htwo =>
    rcases letters with - | ⟨a, - | ⟨b, - | ⟨c, - | ⟨d, rest⟩⟩⟩⟩
    · rfl
    · simp at hlone
    · exact absurd rfl (htwo a b)
    · exact absurd rfl (hthree a b c)
    · exact absurd rfl (hfour a b c d rest)

/-- Whole sextets that padding fills up to groups of four are the text of their bytes. -/
theorem eq_encode_bytesOf {letters : List Sextet} {count : Nat}
    (hfilled : (letters.length + count) % 4 = 0) (hcount : count ≤ 2)
    (hstray : hasStrayBits letters = false) :
    letters.map symbol ++ List.replicate count pad = encode (bytesOf letters) := by
  have hletters := sextets_bytesOf letters (by omega) hstray
  obtain ⟨hmod, hpad, -⟩ := length_sextets (bytesOf letters)
  rw [hletters] at hmod
  have hpadding : padding (bytesOf letters) = count := by omega
  rw [encode_eq, hletters, hpadding]

theorem symbol_injective : Function.Injective symbol := by
  intro letter letter' h
  have hread := congrArg sextet? h
  rw [sextet?_symbol, sextet?_symbol] at hread
  exact Option.some.inj hread

/-- Symbols with padding behind them are the text of the bytes that have just these sextets. -/
theorem eq_sextets_of_eq_encode {letters : List Sextet} {count : Nat} {bytes : List UInt8}
    (h : letters.map symbol ++ List.replicate count pad = encode bytes) :
    letters = sextets bytes ∧ count = padding bytes := by
  rw [encode_eq] at h
  -- the symbols of a text are its bytes that are no padding
  have hsymbols : ∀ (letters : List Sextet) (count : Nat),
      (letters.map symbol ++ List.replicate count pad).filter (· ≠ pad) = letters.map symbol := by
    intro letters count
    simp [List.filter_append, List.filter_eq_self, symbol_ne_pad]
  have hletters : letters = sextets bytes := by
    have hfilter := congrArg (List.filter (· ≠ pad)) h
    rw [hsymbols, hsymbols] at hfilter
    exact (List.map_inj_right fun _ _ hsymbol => symbol_injective hsymbol).1 hfilter
  have hlength := congrArg List.length h
  simp only [hletters, List.length_append, List.length_map, List.length_replicate] at hlength
  exact ⟨hletters, by omega⟩

/-! ## Reading as the inverse of writing -/

/-- A text with a lone symbol is not read, nor is one with a strange last byte in its place. -/
theorem length_of_decode {text bytes : List UInt8} (h : decode text = .ok bytes) :
    text.length % 4 ≠ 1 := by
  intro hone
  unfold decode at h
  rw [if_pos hone] at h
  cases hlast : text.getLast? with
  | none =>
    rw [hlast] at h
    cases h
  | some last =>
    simp only [hlast] at h
    split at h <;> cases h

/-- What is read of a text: symbols in its body, and in its tail symbols with padding. -/
theorem exists_parts_of_decode {text bytes : List UInt8} (h : decode text = .ok bytes) :
    ∃ body ending, readBody 0 (text.take (text.length - tailLength text.length)) = .ok body ∧
      readTail (text.length - tailLength text.length) 0 none
        (text.drop (text.length - tailLength text.length)) = .ok ending ∧
      (text.drop (text.length - tailLength text.length)).length % 4 = 0 ∧
      hasStrayBits ending = false ∧ bytes = bytesOf (body ++ ending) := by
  have hlength := length_of_decode h
  unfold decode at h
  rw [if_neg hlength] at h
  generalize text.length - tailLength text.length = start at h ⊢
  cases hbody : readBody 0 (text.take start) with
  | error fault => simp [hbody, bind, Except.bind] at h
  | ok body =>
    cases hending : readTail start 0 none (text.drop start) with
    | error fault => simp [hbody, hending, bind, Except.bind] at h
    | ok ending =>
      simp only [hbody, hending, bind, Except.bind] at h
      split at h
      · cases h
      · next hwhole =>
        split at h
        · cases h
        · next hstray =>
          cases h
          exact ⟨body, ending, rfl, rfl, Decidable.not_not.1 hwhole, Bool.eq_false_iff.2 hstray,
            rfl⟩

/-- A text that is read is the one that its bytes are written as. -/
theorem eq_encode_of_decode {text bytes : List UInt8} (h : decode text = .ok bytes) :
    text = encode bytes := by
  obtain ⟨body, ending, hbody, hending, hwhole, hstray, rfl⟩ := exists_parts_of_decode h
  have hstart : (text.length - tailLength text.length) % 4 = 0 := by
    rw [List.length_drop] at hwhole
    unfold tailLength at hwhole ⊢
    grind
  have hle : text.length - tailLength text.length ≤ text.length := Nat.sub_le _ _
  generalize text.length - tailLength text.length = start at hbody hending hwhole hstart hle
  have hfront := eq_symbols_of_readBody hbody
  obtain ⟨count, hback, hcount⟩ := eq_symbols_of_readTail hending
  have hbodyLength : body.length = start := by
    rw [← List.length_map (f := symbol), ← hfront, List.length_take_of_le hle]
  have hendingLength : (text.drop start).length = ending.length + count := by
    rw [hback, List.length_append, List.length_map, List.length_replicate]
  unfold MayPad at hcount
  calc text = text.take start ++ text.drop start := (List.take_append_drop start text).symm
    _ = (body ++ ending).map symbol ++ List.replicate count pad := by
      rw [hfront, hback, List.map_append, List.append_assoc]
    _ = encode (bytesOf (body ++ ending)) := by
      refine eq_encode_bytesOf ?_ (by omega) ?_
      · rw [List.length_append]
        omega
      · rw [hasStrayBits_append body ending (hbodyLength ▸ hstart), hstray]

/-- A text is read as bytes exactly if it is what they are written as. -/
theorem decode_eq_ok_iff {text bytes : List UInt8} :
    decode text = .ok bytes ↔ text = encode bytes :=
  ⟨eq_encode_of_decode, fun h => h ▸ decode_encode bytes⟩

end PreviewInstaller.Base64
