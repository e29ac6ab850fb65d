import PreviewInstaller.Base64

set_option autoImplicit false

/-! # Laws of base64

The text of bytes is the symbols of their sextets and then padding. Reading finds the sextets in the
body and the tail of the text, the padding behind them, and the bytes in the sextets. -/

namespace PreviewInstaller.Base64

/-! ## Sextets of bytes -/

/-- The six lowest bits of a number. -/
def sextetOf (bits : Nat) : Sextet :=
  ⟨bits % 64, Nat.mod_lt _ (by decide)⟩

@[simp]
theorem val_sextetOf (bits : Nat) : (sextetOf bits).val = bits % 64 := rfl

theorem symbolOf_eq (bits : Nat) : symbolOf bits = symbol (sextetOf bits) := rfl

/-- The sextets that bytes are spelled with. -/
def sextets : List UInt8 → List Sextet
  | [] => []
  | [a] =>
    let bits := a.toNat * 16
    [sextetOf (bits / 64), sextetOf bits]
  | [a, b] =>
    let bits := (a.toNat * 256 + b.toNat) * 4
    [sextetOf (bits / 4096), sextetOf (bits / 64), sextetOf bits]
  | a :: b :: c :: rest =>
    let bits := (a.toNat * 256 + b.toNat) * 256 + c.toNat
    sextetOf (bits / 262144) :: sextetOf (bits / 4096) :: sextetOf (bits / 64) ::
      sextetOf bits :: sextets rest

/-- How many padding bytes fill up the last four. -/
def padding : List UInt8 → Nat
  | [] => 0
  | [_] => 2
  | [_, _] => 1
  | _ :: _ :: _ :: rest => padding rest

theorem encode_eq (bytes : List UInt8) :
    encode bytes = (sextets bytes).map symbol ++ List.replicate (padding bytes) pad := by
  induction bytes using encode.induct with
  | case1 => rfl
  | case2 a => rfl
  | case3 a b => rfl
  | case4 a b c rest ih => simp [encode, sextets, padding, symbolOf_eq, ih]

/-- The padding says how many sextets the last four lack. -/
theorem length_sextets (bytes : List UInt8) :
    ((sextets bytes).length + padding bytes) % 4 = 0 ∧ padding bytes ≤ 2 ∧
      padding bytes ≤ (sextets bytes).length := by
  induction bytes using encode.induct with
  | case1 => decide
  | case2 a => simp [sextets, padding]
  | case3 a b => simp [sextets, padding]
  | case4 a b c rest ih =>
    simp only [sextets, padding, List.length_cons]
    omega

theorem bytesOf_sextets (bytes : List UInt8) : bytesOf (sextets bytes) = bytes := by
  induction bytes using encode.induct with
  | case1 => rfl
  | case2 a =>
    have ha := a.toNat_lt
    simp only [sextets, bytesOf, val_sextetOf, List.cons.injEq, and_true]
    rw [← UInt8.toNat_inj, UInt8.toNat_ofNat']
    omega
  | case3 a b =>
    have ha := a.toNat_lt
    have hb := b.toNat_lt
    simp only [sextets, bytesOf, val_sextetOf, List.cons.injEq, and_true]
    refine ⟨?_, ?_⟩ <;>
    · rw [← UInt8.toNat_inj, UInt8.toNat_ofNat']
      omega
  | case4 a b c rest ih =>
    have ha := a.toNat_lt
    have hb := b.toNat_lt
    have hc := c.toNat_lt
    simp only [sextets, bytesOf, val_sextetOf, List.cons.injEq, ih, and_true]
    refine ⟨?_, ?_, ?_⟩ <;>
    · rw [← UInt8.toNat_inj, UInt8.toNat_ofNat']
      omega

/-- Whole groups of four in front do not matter for the bits at the end. -/
theorem hasStrayBits_append (front back : List Sextet) (h : front.length % 4 = 0) :
    hasStrayBits (front ++ back) = hasStrayBits back := by
  have hlength : (front ++ back).length % 4 = back.length % 4 := by
    rw [List.length_append]
    omega
  unfold hasStrayBits
  rw [hlength]
  cases back with
  | nil => rfl
  | cons first rest => rw [List.getLast?_append, List.getLast?_cons, Option.some_or]

/-- The last sextet of bytes has no bits that no byte uses. -/
theorem hasStrayBits_sextets (bytes : List UInt8) : hasStrayBits (sextets bytes) = false := by
  induction bytes using encode.induct with
  | case1 => rfl
  | case2 a => simp [hasStrayBits, sextets]
  | case3 a b => simp [hasStrayBits, sextets]
  | case4 a b c rest ih =>
    rw [sextets]
    exact (hasStrayBits_append [_, _, _, _] (sextets rest) (by simp)).trans ih

/-! ## Reading what was written -/

theorem symbol_ne_pad (sextet : Sextet) : symbol sextet ≠ pad := by
  revert sextet
  decide

theorem readBody_symbols (offset : Nat) (letters : List Sextet) :
    readBody offset (letters.map symbol) = .ok letters := by
  induction letters generalizing offset with
  | nil => rfl
  | cons letter rest ih =>
    rw [List.map_cons, readBody, sextet?_symbol]
    simp only [ih]
    rfl

/-- A tail may end in padding that starts in the second half of a group of four. -/
theorem readTail_pads (start seen count : Nat) (padded? : Option Nat)
    (h : count = 0 ∨ seen % 4 = 3 ∧ count = 1 ∨ seen % 4 = 2 ∧ count ≤ 2) :
    readTail start seen padded? (List.replicate count pad) = .ok [] := by
  induction count generalizing seen padded? with
  | zero => rfl
  | succ count ih =>
    have hseen : ¬seen % 4 < 2 := by omega
    simp only [List.replicate_succ, readTail, if_true, if_neg hseen]
    exact ih _ _ (by omega)

theorem readTail_symbols (start seen : Nat) (letters : List Sextet) (rest : List UInt8) :
    readTail start seen none (letters.map symbol ++ rest) =
      (letters ++ ·) <$> readTail start (seen + letters.length) none rest := by
  induction letters generalizing seen with
  | nil => simp
  | cons letter others ih =>
    simp only [List.map_cons, List.cons_append, readTail, if_neg (symbol_ne_pad letter),
      sextet?_symbol, ih]
    rw [← LawfulFunctor.comp_map, List.length_cons, Nat.add_right_comm, Nat.add_assoc]
    rfl

/-- The tail is at most eight bytes, and at least four of a text that has no broken group. -/
theorem tailLength_bounds {length : Nat} (h : length % 4 = 0) :
    tailLength length ≤ length ∧ (length - tailLength length) % 4 = 0 ∧
      (0 < length → 4 ≤ tailLength length) := by
  unfold tailLength
  split <;> omega

/-- The bytes of a text that was written are read from it. -/
theorem decode_encode (bytes : List UInt8) : decode (encode bytes) = .ok bytes := by
  obtain ⟨hmod, hpad, hle⟩ := length_sextets bytes
  have hlength : (encode bytes).length = (sextets bytes).length + padding bytes := by
    rw [encode_eq]
    simp
  obtain ⟨hstart, hfront, htail⟩ := tailLength_bounds (hlength ▸ hmod)
  generalize hcut : (encode bytes).length - tailLength (encode bytes).length = start at hfront
  have hbody : start ≤ ((sextets bytes).map symbol).length := by
    rw [List.length_map]
    omega
  have htake : (encode bytes).take start = ((sextets bytes).take start).map symbol := by
    rw [encode_eq, List.take_append_of_le_length hbody, List.map_take]
  have hdrop : (encode bytes).drop start =
      ((sextets bytes).drop start).map symbol ++ List.replicate (padding bytes) pad := by
    rw [encode_eq, List.drop_append_of_le_length hbody, List.map_drop]
  have hending : readTail start 0 none ((encode bytes).drop start) =
      .ok ((sextets bytes).drop start) := by
    rw [hdrop, readTail_symbols, readTail_pads]
    · exact congrArg Except.ok (List.append_nil _)
    · rw [List.length_map] at hbody
      rw [List.length_drop]
      omega
  have hstray : hasStrayBits ((sextets bytes).drop start) = false := by
    rw [← hasStrayBits_append ((sextets bytes).take start), List.take_append_drop]
    · exact hasStrayBits_sextets bytes
    · rw [List.length_take]
      rw [List.length_map] at hbody
      omega
  have hwhole : ((encode bytes).drop start).length % 4 = 0 := by
    rw [List.length_drop]
    omega
  unfold decode
  rw [if_neg (by omega)]
  simp only [hcut, htake, readBody_symbols, hending]
  show (if _ then _ else _) = _
  rw [if_neg (by simpa using hwhole), if_neg (by simp [hstray]), List.take_append_drop,
    bytesOf_sextets]
  rfl

/-- Every byte of a text is an ASCII character. -/
theorem encode_lt (bytes : List UInt8) : ∀ byte ∈ encode bytes, byte.toNat < 128 := by
  rw [encode_eq]
  intro byte hbyte
  rcases List.mem_append.1 hbyte with hsymbol | hpad
  · have hletters : ∀ letter, (symbol letter).toNat < 128 := by decide
    obtain ⟨letter, -, rfl⟩ := List.mem_map.1 hsymbol
    exact hletters letter
  · rw [List.eq_of_mem_replicate hpad]
    decide

end PreviewInstaller.Base64
