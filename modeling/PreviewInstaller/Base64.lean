set_option autoImplicit false

/-! # Base64

Bytes written four symbols to three bytes in the standard alphabet, with `=` filling up the last
four. Reading takes canonical text only: the padding is there and the unused bits of the last symbol
are zero. A fault names the byte and its offset.

Text is read in blocks of eight bytes, of which the last one (whole or broken off) is the tail: a
strange byte before the tail is reported before anything in the tail is looked at. -/

namespace PreviewInstaller.Base64

/-- The six bits that a symbol stands for. -/
abbrev Sextet := Fin 64

/-- The padding byte. -/
def pad : UInt8 := '='.toUInt8

/-- The symbol of six bits. -/
def symbol (sextet : Sextet) : UInt8 :=
  let n := sextet.val
  if n < 26 then UInt8.ofNat (n + 65)
  else if n < 52 then UInt8.ofNat (n - 26 + 97)
  else if n < 62 then UInt8.ofNat (n - 52 + 48)
  else if n = 62 then '+'.toUInt8
  else '/'.toUInt8

/-- The six bits of a symbol; `none` for a byte outside the alphabet. -/
def sextet? (byte : UInt8) : Option Sextet :=
  let n := byte.toNat
  if 65 ≤ n ∧ n ≤ 90 then some (Fin.ofNat 64 (n - 65))
  else if 97 ≤ n ∧ n ≤ 122 then some (Fin.ofNat 64 (n - 97 + 26))
  else if 48 ≤ n ∧ n ≤ 57 then some (Fin.ofNat 64 (n - 48 + 52))
  else if byte = '+'.toUInt8 then some 62
  else if byte = '/'.toUInt8 then some 63
  else none

/-- Every symbol is read as the bits it is written for. -/
theorem sextet?_symbol (sextet : Sextet) : sextet? (symbol sextet) = some sextet := by
  revert sextet
  decide

/-! ## Writing -/

/-- The symbol of the six lowest bits of a number. -/
def symbolOf (bits : Nat) : UInt8 :=
  symbol (Fin.ofNat 64 bits)

/-- The text of bytes. -/
def encode : List UInt8 → List UInt8
  | [] => []
  | [a] =>
    let bits := a.toNat * 16
    [symbolOf (bits / 64), symbolOf bits, pad, pad]
  | [a, b] =>
    let bits := (a.toNat * 256 + b.toNat) * 4
    [symbolOf (bits / 4096), symbolOf (bits / 64), symbolOf bits, pad]
  | a :: b :: c :: rest =>
    let bits := (a.toNat * 256 + b.toNat) * 256 + c.toNat
    symbolOf (bits / 262144) :: symbolOf (bits / 4096) :: symbolOf (bits / 64) ::
      symbolOf bits :: encode rest

/-! ## Reading -/

/-- Why a text is not canonical. -/
inductive Fault where
  /-- `byte` at `offset` may not stand there. -/
  | invalidByte (byte : UInt8) (offset : Nat)
  /-- One symbol is left over, which is less than a byte. -/
  | loneSymbol
  /-- The symbols and the padding do not fill up the last four. -/
  | invalidPadding
  /-- The last symbol, `byte` at `offset`, has unused bits that are not zero. -/
  | invalidLastSymbol (byte : UInt8) (offset : Nat)
deriving DecidableEq, Repr

/-- The text of a fault. -/
def Fault.message : Fault → String
  | .invalidByte byte offset =>
    "Invalid byte " ++ toString byte.toNat ++ ", offset " ++ toString offset ++ "."
  | .loneSymbol => "Encoded text cannot have a 6-bit remainder."
  | .invalidPadding => "Invalid padding"
  | .invalidLastSymbol byte offset =>
    "Invalid last symbol " ++ toString byte.toNat ++ ", offset " ++ toString offset ++ "."

/-- The sextets of bytes that are all symbols; the first of them stands at `offset`. -/
def readBody (offset : Nat) : List UInt8 → Except Fault (List Sextet)
  | [] => .ok []
  | byte :: rest =>
    match sextet? byte with
    | none => .error (.invalidByte byte offset)
    | some sextet => (sextet :: ·) <$> readBody (offset + 1) rest

/-- The sextets of a tail that starts at `start` of the text, of which `seen` bytes are read. Once a
padding byte has stood at `padded?`, only padding may follow. -/
def readTail (start seen : Nat) (padded? : Option Nat) :
    List UInt8 → Except Fault (List Sextet)
  | [] => .ok []
  | byte :: rest =>
    let here := start + seen
    if byte = pad then
      let first := padded?.getD here
      if seen % 4 < 2 then .error (.invalidByte pad first)
      else readTail start (seen + 1) (some first) rest
    else
      match padded? with
      | some first => .error (.invalidByte pad first)
      | none =>
        match sextet? byte with
        | none => .error (.invalidByte byte here)
        | some sextet => (sextet :: ·) <$> readTail start (seen + 1) none rest

/-- The bytes that sextets spell, without the bits that are left over. -/
def bytesOf : List Sextet → List UInt8
  | a :: b :: c :: d :: rest =>
    let bits := ((a.val * 64 + b.val) * 64 + c.val) * 64 + d.val
    UInt8.ofNat (bits / 65536) :: UInt8.ofNat (bits / 256) :: UInt8.ofNat bits :: bytesOf rest
  | [a, b, c] =>
    let bits := ((a.val * 64 + b.val) * 64 + c.val) / 4
    [UInt8.ofNat (bits / 256), UInt8.ofNat bits]
  | [a, b] => [UInt8.ofNat ((a.val * 64 + b.val) / 16)]
  | _ => []

/-- Whether the last of these sextets has bits that no byte uses. -/
def hasStrayBits (sextets : List Sextet) : Bool :=
  match sextets.length % 4, sextets.getLast? with
  | 2, some last => last.val % 16 ≠ 0
  | 3, some last => last.val % 4 ≠ 0
  | _, _ => false

/-- How many of `length` bytes make up the tail. -/
def tailLength (length : Nat) : Nat :=
  if length % 8 = 0 then min 8 length else length % 8

/-- The bytes that a text stands for. -/
def decode (text : List UInt8) : Except Fault (List UInt8) := do
  if text.length % 4 = 1 then
    match text.getLast? with
    | some last =>
      if last ≠ pad ∧ (sextet? last).isNone then
        throw (.invalidByte last (text.length - 1))
      else throw .loneSymbol
    | none => throw .loneSymbol
  let start := text.length - tailLength text.length
  let body ← readBody 0 (text.take start)
  let tail := text.drop start
  let ending ← readTail start 0 none tail
  if tail.length % 4 ≠ 0 then throw .invalidPadding
  let sextets := body ++ ending
  if hasStrayBits ending then
    let offset := start + ending.length - 1
    throw (.invalidLastSymbol (text.getD offset pad) offset)
  return bytesOf sextets

end PreviewInstaller.Base64
