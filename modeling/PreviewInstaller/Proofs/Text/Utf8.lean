import PreviewInstaller.Text.Utf8

set_option autoImplicit false

/-! # Laws of UTF-8

The first byte of a character owes exactly the bytes that follow it, so reading what was written
gives the characters back. -/

namespace PreviewInstaller.Text

/-! ## First bytes -/

theorem firstByte_one {v : Nat} (h : v < 0x80) : firstByte v = some (v, []) := by
  rw [firstByte, if_pos h]

theorem firstByte_two {v : Nat} (hlow : 0x80 ≤ v) (hhigh : v < 0x800) :
    firstByte (v / 64 + 0xC0) = some (v / 64, [tailByte]) := by
  rw [firstByte, if_neg (by omega), if_neg (by omega), if_pos (by omega), Nat.add_sub_cancel]

/-- The second of three bytes is in the interval that the first one asks for: the character does not
fit into two bytes and is no half of a surrogate pair. -/
theorem firstByte_three {v : Nat} (hlow : 0x800 ≤ v) (hhigh : v < 0x10000)
    (hvalid : v < 0xD800 ∨ 0xDFFF < v) :
    ∃ low high, firstByte (v / 4096 + 0xE0) = some (v / 4096, [(low, high), tailByte]) ∧
      low ≤ v / 64 % 64 + 0x80 ∧ v / 64 % 64 + 0x80 ≤ high := by
  rw [firstByte, if_neg (by omega), if_neg (by omega), if_neg (by omega)]
  by_cases hfirst : v / 4096 = 0
  · refine ⟨0xA0, 0xBF, ?_, by omega, by omega⟩
    rw [if_pos (by omega), hfirst]
  rw [if_neg (by omega)]
  by_cases hsurrogate : v / 4096 = 0xD
  · refine ⟨0x80, 0x9F, ?_, by omega, by omega⟩
    rw [if_pos (by omega), hsurrogate]
  · refine ⟨0x80, 0xBF, ?_, by omega, by omega⟩
    rw [if_neg (by omega), if_pos (by omega), Nat.add_sub_cancel]
    rfl

/-- The second of four bytes is in the interval that the first one asks for: the character does not
fit into three bytes and lies not beyond the last one. -/
theorem firstByte_four {v : Nat} (hlow : 0x10000 ≤ v) (hhigh : v < 0x110000) :
    ∃ low high, firstByte (v / 262144 + 0xF0) =
        some (v / 262144, [(low, high), tailByte, tailByte]) ∧
      low ≤ v / 4096 % 64 + 0x80 ∧ v / 4096 % 64 + 0x80 ≤ high := by
  rw [firstByte, if_neg (by omega), if_neg (by omega), if_neg (by omega), if_neg (by omega),
    if_neg (by omega), if_neg (by omega)]
  by_cases hfirst : v / 262144 = 0
  · refine ⟨0x90, 0xBF, ?_, by omega, by omega⟩
    rw [if_pos (by omega), hfirst]
  rw [if_neg (by omega)]
  by_cases hlast : v / 262144 = 4
  · refine ⟨0x80, 0x8F, ?_, by omega, by omega⟩
    rw [if_neg (by omega), if_pos (by omega), hlast]
  · refine ⟨0x80, 0xBF, ?_, by omega, by omega⟩
    rw [if_pos (by omega), Nat.add_sub_cancel]
    rfl

/-! ## Reading what was written -/

theorem readUtf8_cons {start bits : Nat} {byte : UInt8} {owed : List (Nat × Nat)}
    {rest : List UInt8} {interval : Nat × Nat}
    (h : firstByte byte.toNat = some (bits, interval :: owed)) :
    readUtf8 start 0 0 [] (byte :: rest) = readUtf8 start 1 bits (interval :: owed) rest := by
  rw [readUtf8, h]

theorem readUtf8_owed {start seen value low high : Nat} {byte : UInt8} {next : Nat × Nat}
    {owed : List (Nat × Nat)} {rest : List UInt8} (h : low ≤ byte.toNat ∧ byte.toNat ≤ high) :
    readUtf8 start seen value ((low, high) :: next :: owed) (byte :: rest) =
      readUtf8 start (seen + 1) (value * 64 + (byte.toNat - 0x80)) (next :: owed) rest := by
  rw [readUtf8, if_pos h]

theorem readUtf8_last {start seen value low high : Nat} {byte : UInt8} {rest : List UInt8}
    (h : low ≤ byte.toNat ∧ byte.toNat ≤ high) :
    readUtf8 start seen value [(low, high)] (byte :: rest) =
      (Char.ofNat (value * 64 + (byte.toNat - 0x80)) :: ·) <$>
        readUtf8 (start + seen + 1) 0 0 [] rest := by
  rw [readUtf8, if_pos h]

theorem toNat_ofNat_of_lt {n : Nat} (h : n < 256) : (UInt8.ofNat n).toNat = n := by
  rw [UInt8.toNat_ofNat', Nat.mod_eq_of_lt h]

/-- The bytes of a character are read as that character. -/
theorem readUtf8_characterBytes (start : Nat) (c : Char) (rest : List UInt8) :
    ∃ next, readUtf8 start 0 0 [] (characterBytes c ++ rest) =
      (c :: ·) <$> readUtf8 next 0 0 [] rest := by
  have hvalid : c.toNat < 0xD800 ∨ 0xDFFF < c.toNat ∧ c.toNat < 0x110000 := c.valid
  have hc : Char.ofNat c.toNat = c := Char.ofNat_toNat c
  generalize hv : c.toNat = v at hvalid hc
  have hbytes : characterBytes c = if v ≤ 0x7f then [UInt8.ofNat v]
      else if v ≤ 0x7ff then [UInt8.ofNat (v / 64 % 0x20 + 0xc0), UInt8.ofNat (v % 0x40 + 0x80)]
      else if v ≤ 0xffff then
        [UInt8.ofNat (v / 4096 % 0x10 + 0xe0), UInt8.ofNat (v / 64 % 0x40 + 0x80),
          UInt8.ofNat (v % 0x40 + 0x80)]
      else [UInt8.ofNat (v / 262144 % 0x08 + 0xf0), UInt8.ofNat (v / 4096 % 0x40 + 0x80),
        UInt8.ofNat (v / 64 % 0x40 + 0x80), UInt8.ofNat (v % 0x40 + 0x80)] := by
    subst hv
    rfl
  rw [hbytes]
  by_cases hone : v ≤ 0x7f
  · refine ⟨start + 1, ?_⟩
    rw [if_pos hone, List.singleton_append, readUtf8, toNat_ofNat_of_lt (by omega),
      firstByte_one (by omega)]
    simp only [hc]
  rw [if_neg hone]
  have htail : ∀ n : Nat, (UInt8.ofNat (n % 0x40 + 0x80)).toNat = n % 0x40 + 0x80 :=
    fun n => toNat_ofNat_of_lt (by omega)
  by_cases htwo : v ≤ 0x7ff
  · refine ⟨start + 1 + 1, ?_⟩
    have hlead : (UInt8.ofNat (v / 64 % 0x20 + 0xc0)).toNat = v / 64 + 0xC0 := by
      rw [toNat_ofNat_of_lt (by omega)]
      omega
    have hfirst := firstByte_two (v := v) (by omega) (by omega)
    rw [← hlead] at hfirst
    have hvalue : v / 64 * 64 + (v % 0x40 + 0x80 - 0x80) = v := by omega
    rw [if_pos htwo, List.cons_append, List.singleton_append, readUtf8_cons hfirst, tailByte,
      readUtf8_last (by rw [htail]; omega), htail, hvalue, hc]
  rw [if_neg htwo]
  by_cases hthree : v ≤ 0xffff
  · refine ⟨start + 2 + 1, ?_⟩
    have hlead : (UInt8.ofNat (v / 4096 % 0x10 + 0xe0)).toNat = v / 4096 + 0xE0 := by
      rw [toNat_ofNat_of_lt (by omega)]
      omega
    obtain ⟨low, high, hfirst, hlow, hhigh⟩ :=
      firstByte_three (v := v) (by omega) (by omega) (by omega)
    rw [← hlead] at hfirst
    have hvalue : (v / 4096 * 64 + (v / 64 % 0x40 + 0x80 - 0x80)) * 64 +
        (v % 0x40 + 0x80 - 0x80) = v := by omega
    rw [if_pos hthree, List.cons_append, List.cons_append, List.singleton_append,
      readUtf8_cons hfirst, tailByte, readUtf8_owed (by rw [htail]; omega),
      readUtf8_last (by rw [htail]; omega), htail, htail, hvalue, hc]
  rw [if_neg hthree]
  refine ⟨start + 3 + 1, ?_⟩
  have hlead : (UInt8.ofNat (v / 262144 % 0x08 + 0xf0)).toNat = v / 262144 + 0xF0 := by
    rw [toNat_ofNat_of_lt (by omega)]
    omega
  obtain ⟨low, high, hfirst, hlow, hhigh⟩ := firstByte_four (v := v) (by omega) (by omega)
  rw [← hlead] at hfirst
  have hvalue : ((v / 262144 * 64 + (v / 4096 % 0x40 + 0x80 - 0x80)) * 64 +
      (v / 64 % 0x40 + 0x80 - 0x80)) * 64 + (v % 0x40 + 0x80 - 0x80) = v := by omega
  rw [List.cons_append, List.cons_append, List.cons_append, List.singleton_append,
    readUtf8_cons hfirst, tailByte, readUtf8_owed (by rw [htail]; omega),
    readUtf8_owed (by rw [htail]; omega), readUtf8_last (by rw [htail]; omega), htail, htail,
    htail, hvalue, hc]

/-- The characters that were written are read. -/
theorem decodeUtf8_utf8 (text : List Char) : decodeUtf8 (utf8 text) = .ok text := by
  suffices h : ∀ start, readUtf8 start 0 0 [] (utf8 text) = .ok text from h 0
  induction text with
  | nil => exact fun start => rfl
  | cons c rest ih =>
    intro start
    obtain ⟨next, hnext⟩ := readUtf8_characterBytes start c (utf8 rest)
    show readUtf8 start 0 0 [] (characterBytes c ++ utf8 rest) = _
    rw [hnext, ih]
    rfl

/-- Bytes below 128 are characters by themselves. -/
theorem utf8_map_ofNat {bytes : List UInt8} (h : ∀ byte ∈ bytes, byte.toNat < 128) :
    utf8 (bytes.map fun byte => Char.ofNat byte.toNat) = bytes := by
  induction bytes with
  | nil => rfl
  | cons byte rest ih =>
    have hbyte := h byte (List.mem_cons_self ..)
    have hchar : (Char.ofNat byte.toNat).toNat = byte.toNat := by
      rw [Char.ofNat, dif_pos (.inl (by omega))]
      rfl
    have hbytes : characterBytes (Char.ofNat byte.toNat) = [byte] := by
      show String.utf8EncodeChar _ = _
      unfold String.utf8EncodeChar
      dsimp only
      rw [show (Char.ofNat byte.toNat).val.toNat = byte.toNat from hchar, if_pos (by omega),
        UInt8.ofNat_toNat]
    show characterBytes _ ++ utf8 _ = _
    rw [hbytes, ih fun byte hmem => h byte (List.mem_cons_of_mem _ hmem)]
    rfl

end PreviewInstaller.Text
