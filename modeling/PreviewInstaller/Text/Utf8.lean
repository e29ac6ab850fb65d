set_option autoImplicit false

/-! # UTF-8

A first byte says which bytes must follow it. Reading goes one byte at a time and stops at the
first sequence that is broken off or ill-formed, told by where it starts. -/

namespace PreviewInstaller.Text

/-- Why bytes are not UTF-8. -/
inductive Utf8Fault where
  /-- `length` bytes from `start` on begin no character. -/
  | invalid (length start : Nat)
  /-- The bytes end inside the character that starts at `start`. -/
  | incomplete (start : Nat)
deriving DecidableEq, Repr

/-- The text of a fault. -/
def Utf8Fault.message : Utf8Fault → String
  | .invalid length start =>
    "invalid utf-8 sequence of " ++ toString length ++ " bytes from index " ++ toString start
  | .incomplete start => "incomplete utf-8 byte sequence from index " ++ toString start

/-- The interval of a byte that may stand anywhere after the second place. -/
def tailByte : Nat × Nat := (0x80, 0xBF)

/-- What a first byte contributes to its character, and the interval of each byte it owes. -/
def firstByte (byte : Nat) : Option (Nat × List (Nat × Nat)) :=
  if byte < 0x80 then some (byte, [])
  else if byte < 0xC2 then none
  else if byte < 0xE0 then some (byte - 0xC0, [tailByte])
  else if byte = 0xE0 then some (0, [(0xA0, 0xBF), tailByte])
  else if byte = 0xED then some (0xD, [(0x80, 0x9F), tailByte])
  else if byte < 0xF0 then some (byte - 0xE0, [tailByte, tailByte])
  else if byte = 0xF0 then some (0, [(0x90, 0xBF), tailByte, tailByte])
  else if byte < 0xF4 then some (byte - 0xF0, [tailByte, tailByte, tailByte])
  else if byte = 0xF4 then some (4, [(0x80, 0x8F), tailByte, tailByte])
  else none

/-- Reads on from `bytes`. The character under way starts at `start`, has `seen` bytes so far with
the bits `value`, and owes one byte for each interval of `owed`; with nothing owed a new character
begins at `start`. -/
def readUtf8 (start seen value : Nat) :
    List (Nat × Nat) → List UInt8 → Except Utf8Fault (List Char)
  | [], [] => .ok []
  | _ :: _, [] => .error (.incomplete start)
  | [], byte :: rest =>
    match firstByte byte.toNat with
    | none => .error (.invalid 1 start)
    | some (bits, []) => (Char.ofNat bits :: ·) <$> readUtf8 (start + 1) 0 0 [] rest
    | some (bits, owed) => readUtf8 start 1 bits owed rest
  | (low, high) :: owed, byte :: rest =>
    if low ≤ byte.toNat ∧ byte.toNat ≤ high then
      let bits := value * 64 + (byte.toNat - 0x80)
      match owed with
      | [] => (Char.ofNat bits :: ·) <$> readUtf8 (start + seen + 1) 0 0 [] rest
      | next :: others => readUtf8 start (seen + 1) bits (next :: others) rest
    else .error (.invalid seen start)

/-- The characters that bytes encode. -/
def decodeUtf8 (bytes : List UInt8) : Except Utf8Fault (List Char) :=
  readUtf8 0 0 0 [] bytes

/-- The bytes of one character. -/
def characterBytes (c : Char) : List UInt8 :=
  String.utf8EncodeChar c

/-- The bytes of a text. -/
def utf8 (text : List Char) : List UInt8 :=
  text.flatMap characterBytes

end PreviewInstaller.Text
