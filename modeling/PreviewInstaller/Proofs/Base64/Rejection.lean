import PreviewInstaller.Proofs.Base64.Canonical

set_option autoImplicit false

/-! # Rejected base64

A fault says something about the text that was rejected: which byte stands where, how many bytes
there are, what the symbols and the padding are. Main statement: what it says is true, although the
text is not looked at from left to right and offsets are counted from the front of the body, from
the front of the tail and from the padding. -/

namespace PreviewInstaller.Base64

/-! ## What faults say -/

/-- The 64 symbols, in the order of the bits that they stand for. -/
def alphabet : List UInt8 :=
  "ABCDEFGHIJKLMNOPQRSTUVWXYZabcdefghijklmnopqrstuvwxyz0123456789+/".toList.map Char.toUInt8

/-- How many of the lowest bits of the last symbol no byte uses when there are `count` symbols. -/
def unusedBits (count : Nat) : Nat :=
  6 * count % 8

/-- What a fault says of a text is true of it. -/
def Fault.IsTrueOf (text : List UInt8) : Fault → Prop
  | .invalidByte byte offset => text[offset]? = some byte ∧ byte ∉ alphabet
  | .loneSymbol => text.length % 4 = 1
  | .invalidPadding =>
    (∃ symbols count, text = symbols ++ List.replicate count pad ∧ ∀ byte ∈ symbols,
      byte ∈ alphabet) ∧ (text.length % 4 = 2 ∨ text.length % 4 = 3)
  | .invalidLastSymbol byte offset =>
    text[offset]? = some byte ∧ (∀ earlier ∈ text.take offset, earlier ∈ alphabet) ∧
      (∃ sextet : Sextet, alphabet[sextet.val]? = some byte ∧
        sextet.val % Nat.pow 2 (unusedBits (offset + 1)) ≠ 0) ∧
      ∀ later ∈ text.drop (offset + 1), later = pad

theorem alphabet_eq : alphabet = (List.finRange 64).map symbol := by
  decide

theorem getElem?_alphabet (sextet : Sextet) : alphabet[sextet.val]? = some (symbol sextet) := by
  revert sextet
  decide

theorem symbol_mem_alphabet (sextet : Sextet) : symbol sextet ∈ alphabet :=
  List.mem_of_getElem? (getElem?_alphabet sextet)

/-- A byte is a symbol unless it stands for no bits. -/
theorem notMem_alphabet {byte : UInt8} (h : sextet? byte = none) : byte ∉ alphabet := by
  rw [alphabet_eq]
  intro hmem
  obtain ⟨sextet, -, rfl⟩ := List.mem_map.1 hmem
  rw [sextet?_symbol] at h
  cases h

theorem mem_alphabet_of_mem_map {letters : List Sextet} :
    ∀ byte ∈ letters.map symbol, byte ∈ alphabet := by
  intro byte hbyte
  obtain ⟨sextet, -, rfl⟩ := List.mem_map.1 hbyte
  exact symbol_mem_alphabet sextet

/-! ## The parts of a text -/

/-- A body is rejected for its first byte that is no symbol. -/
theorem invalid_of_readBody {offset : Nat} {body : List UInt8} {fault : Fault}
    (h : readBody offset body = .error fault) :
    ∃ byte place, fault = .invalidByte byte (offset + place) ∧ body[place]? = some byte ∧
      sextet? byte = none := by
  induction body generalizing offset with
  | nil => cases h
  | cons byte rest ih =>
    rw [readBody] at h
    cases hbyte : sextet? byte with
    | none =>
      simp only [hbyte] at h
      cases h
      exact ⟨byte, 0, rfl, rfl, hbyte⟩
    | some sextet =>
      simp only [hbyte] at h
      cases hrest : readBody (offset + 1) rest with
      | ok others => simp [hrest, Functor.map, Except.map] at h
      | error fault' =>
        rw [hrest] at h
        cases h
        obtain ⟨found, place, rfl, hfound, hstrange⟩ := ih hrest
        exact ⟨found, place + 1, by rw [Nat.add_assoc, Nat.add_comm 1], hfound, hstrange⟩

/-- A tail is rejected for a byte of its own that is no symbol, or for the padding that came before
it. -/
theorem invalid_of_readTail {start seen : Nat} {padded? : Option Nat} {tail : List UInt8}
    {fault : Fault} (h : readTail start seen padded? tail = .error fault) :
    ∃ byte offset, fault = .invalidByte byte offset ∧ sextet? byte = none ∧
      (byte = pad ∧ padded? = some offset ∨
        ∃ place, offset = start + seen + place ∧ tail[place]? = some byte) := by
  induction tail generalizing seen padded? with
  | nil => cases h
  | cons byte rest ih =>
    rw [readTail.eq_def] at h
    dsimp only at h
    by_cases hpad : byte = pad
    · subst hpad
      rw [if_pos rfl] at h
      -- the padding that is blamed: the first one, which is this one if there was none before
      have hfirst : pad = pad ∧ padded? = some (padded?.getD (start + seen)) ∨
          ∃ place, padded?.getD (start + seen) = start + seen + place ∧
            (pad :: rest)[place]? = some pad := by
        cases padded? with
        | none => exact .inr ⟨0, rfl, rfl⟩
        | some first => exact .inl ⟨rfl, rfl⟩
      by_cases hseen : seen % 4 < 2
      · rw [if_pos hseen] at h
        cases h
        exact ⟨pad, _, rfl, rfl, hfirst⟩
      · rw [if_neg hseen] at h
        obtain ⟨found, offset, rfl, hstrange, ⟨rfl, hbefore⟩ | ⟨place, rfl, hfound⟩⟩ := ih h
        · rw [← Option.some.inj hbefore]
          exact ⟨pad, _, rfl, rfl, hfirst⟩
        · exact ⟨found, _, rfl, hstrange, .inr ⟨place + 1, by omega, hfound⟩⟩
    · rw [if_neg hpad] at h
      cases padded? with
      | some first =>
        cases h
        exact ⟨pad, first, rfl, rfl, .inl ⟨rfl, rfl⟩⟩
      | none =>
        cases hbyte : sextet? byte with
        | none =>
          simp only [hbyte] at h
          cases h
          exact ⟨byte, _, rfl, hbyte, .inr ⟨0, rfl, rfl⟩⟩
        | some sextet =>
          simp only [hbyte] at h
          cases hrest : readTail start (seen + 1) none rest with
          | ok others => simp [hrest, Functor.map, Except.map] at h
          | error fault' =>
            rw [hrest] at h
            cases h
            obtain ⟨found, offset, rfl, hstrange, ⟨-, ⟨⟩⟩ | ⟨place, rfl, hfound⟩⟩ := ih hrest
            exact ⟨found, _, rfl, hstrange, .inr ⟨place + 1, by omega, hfound⟩⟩

/-! ## Whole texts -/

/-- Where the tail of a text starts. -/
def startOfTail (text : List UInt8) : Nat :=
  text.length - tailLength text.length

theorem startOfTail_mod (text : List UInt8) : startOfTail text % 8 = 0 ∧
    startOfTail text ≤ text.length := by
  unfold startOfTail tailLength
  split <;> omega

/-- Why a text can be rejected: its length, its body, its tail, its padding or its last symbol. -/
inductive Rejects (text : List UInt8) : Fault → Prop where
  | lone (hlength : text.length % 4 = 1) : Rejects text .loneSymbol
  | last {byte : UInt8} (hlast : text.getLast? = some byte) (hstrange : sextet? byte = none) :
      Rejects text (.invalidByte byte (text.length - 1))
  | body {fault : Fault} (h : readBody 0 (text.take (startOfTail text)) = .error fault) :
      Rejects text fault
  | tail {fault : Fault}
      (h : readTail (startOfTail text) 0 none (text.drop (startOfTail text)) = .error fault) :
      Rejects text fault
  | padding {body ending : List Sextet} (hlength : text.length % 4 ≠ 1)
      (hbody : readBody 0 (text.take (startOfTail text)) = .ok body)
      (hending : readTail (startOfTail text) 0 none (text.drop (startOfTail text)) = .ok ending)
      (hbroken : (text.drop (startOfTail text)).length % 4 ≠ 0) : Rejects text .invalidPadding
  | stray {body ending : List Sextet}
      (hbody : readBody 0 (text.take (startOfTail text)) = .ok body)
      (hending : readTail (startOfTail text) 0 none (text.drop (startOfTail text)) = .ok ending)
      (hstray : hasStrayBits ending = true) :
      Rejects text (.invalidLastSymbol (text.getD (startOfTail text + ending.length - 1) pad)
        (startOfTail text + ending.length - 1))

theorem rejects_of_decode {text : List UInt8} {fault : Fault} (h : decode text = .error fault) :
    Rejects text fault := by
  unfold decode at h
  by_cases hlength : text.length % 4 = 1
  · rw [if_pos hlength] at h
    cases hlast : text.getLast? with
    | none =>
      rw [hlast] at h
      cases h
      exact .lone hlength
    | some last =>
      simp only [hlast] at h
      split at h
      · next hstrange =>
        cases h
        exact .last hlast (Option.isNone_iff_eq_none.1 hstrange.2)
      · cases h
        exact .lone hlength
  rw [if_neg hlength] at h
  have hstart : text.length - tailLength text.length = startOfTail text := rfl
  rw [hstart] at h
  cases hbody : readBody 0 (text.take (startOfTail text)) with
  | error fault' =>
    simp only [hbody, bind, Except.bind] at h
    cases h
    exact .body hbody
  | ok body =>
    cases hending : readTail (startOfTail text) 0 none (text.drop (startOfTail text)) with
    | error fault' =>
      simp only [hbody, hending, bind, Except.bind] at h
      cases h
      exact .tail hending
    | ok ending =>
      simp only [hbody, hending, bind, Except.bind] at h
      split at h
      · next hbroken =>
        cases h
        exact .padding hlength hbody hending hbroken
      · split at h
        · next hstray =>
          cases h
          exact .stray hbody hending hstray
        · cases h

/-- A text whose parts are read is symbols with padding behind them. -/
theorem eq_symbols_of_parts {text : List UInt8} {body ending : List Sextet}
    (hbody : readBody 0 (text.take (startOfTail text)) = .ok body)
    (hending : readTail (startOfTail text) 0 none (text.drop (startOfTail text)) = .ok ending) :
    body.length = startOfTail text ∧
      ∃ count, text = (body ++ ending).map symbol ++ List.replicate count pad := by
  have hfront := eq_symbols_of_readBody hbody
  obtain ⟨count, hback, -⟩ := eq_symbols_of_readTail hending
  refine ⟨?_, count, ?_⟩
  · rw [← List.length_map (f := symbol), ← hfront,
      List.length_take_of_le (startOfTail_mod text).2]
  · calc text = text.take (startOfTail text) ++ text.drop (startOfTail text) :=
        (List.take_append_drop _ _).symm
      _ = (body ++ ending).map symbol ++ List.replicate count pad := by
        rw [hfront, hback, List.map_append, List.append_assoc]

/-- Stray bits are bits of the last symbol that no byte uses. -/
theorem exists_last_of_hasStrayBits {letters : List Sextet} (h : hasStrayBits letters = true) :
    ∃ front last, letters = front ++ [last] ∧
      last.val % Nat.pow 2 (unusedBits (front.length + 1)) ≠ 0 := by
  rcases List.eq_nil_or_concat letters with rfl | ⟨front, last, rfl⟩
  · cases h
  · refine ⟨front, last, by rw [List.concat_eq_append], ?_⟩
    rw [List.concat_eq_append] at h
    simp only [hasStrayBits, List.length_append, List.length_singleton, List.getLast?_concat] at h
    split at h
    · next hcount hlast =>
      have hbits : unusedBits (front.length + 1) = 4 := by
        unfold unusedBits
        omega
      obtain rfl := Option.some.inj hlast
      simpa [hbits] using h
    · next hcount hlast =>
      have hbits : unusedBits (front.length + 1) = 2 := by
        unfold unusedBits
        omega
      obtain rfl := Option.some.inj hlast
      simpa [hbits] using h
    · cases h

/-- A text is rejected for a reason that is true of it. -/
theorem Rejects.isTrueOf {text : List UInt8} {fault : Fault} (h : Rejects text fault) :
    fault.IsTrueOf text := by
  cases h with
  | lone hlength => exact hlength
  | last hlast hstrange =>
    refine ⟨?_, notMem_alphabet hstrange⟩
    rw [← List.getLast?_eq_getElem?]
    exact hlast
  | body h =>
    obtain ⟨byte, place, rfl, hfound, hstrange⟩ := invalid_of_readBody h
    refine ⟨?_, notMem_alphabet hstrange⟩
    obtain ⟨hlt, -⟩ := List.getElem?_eq_some_iff.1 hfound
    rw [List.length_take] at hlt
    rwa [Nat.zero_add, ← List.getElem?_take_of_lt (j := startOfTail text) (by omega)]
  | tail h =>
    obtain ⟨byte, offset, rfl, hstrange, ⟨-, ⟨⟩⟩ | ⟨place, rfl, hfound⟩⟩ := invalid_of_readTail h
    refine ⟨?_, notMem_alphabet hstrange⟩
    rwa [Nat.add_zero, ← List.getElem?_drop]
  | padding hlength hbody hending hbroken =>
    obtain ⟨-, count, htext⟩ := eq_symbols_of_parts hbody hending
    refine ⟨⟨_, count, htext, mem_alphabet_of_mem_map⟩, ?_⟩
    have hstart := startOfTail_mod text
    rw [List.length_drop] at hbroken
    omega
  | @stray body ending hbody hending hstray =>
    obtain ⟨hlength, count, htext⟩ := eq_symbols_of_parts hbody hending
    obtain ⟨front, last, rfl, hbits⟩ := exists_last_of_hasStrayBits hstray
    have hstart := startOfTail_mod text
    have hoffset : startOfTail text + (front ++ [last]).length - 1 =
        ((body ++ front).map symbol).length := by
      rw [List.length_append, List.length_singleton, List.length_map, List.length_append, hlength]
      omega
    have hsplit : text =
        (body ++ front).map symbol ++ symbol last :: List.replicate count pad := by
      rw [htext]
      simp
    have hunused : unusedBits (((body ++ front).map symbol).length + 1) =
        unusedBits (front.length + 1) := by
      rw [← hoffset, List.length_append, List.length_singleton]
      unfold unusedBits
      omega
    rw [hoffset]
    generalize hsymbols : (body ++ front).map symbol = symbols at hsplit hunused ⊢
    subst hsplit
    refine ⟨?_, ?_, ⟨last, ?_, ?_⟩, ?_⟩
    · simp
    · rw [List.take_left', ← hsymbols]
      · exact mem_alphabet_of_mem_map
      · rfl
    · rw [getElem?_alphabet]
      simp
    · rwa [hunused]
    · simp

/-- What a fault says of a text that was rejected is true of it. -/
theorem isTrueOf_of_decode {text : List UInt8} {fault : Fault} (h : decode text = .error fault) :
    fault.IsTrueOf text :=
  (rejects_of_decode h).isTrueOf

end PreviewInstaller.Base64
