import PreviewInstaller.Json.Basic
import PreviewInstaller.Text.Pieces

set_option autoImplicit false

/-! # Tokens of JSON text

JSON text is read one character at a time by a machine with a handful of states; each step may
finish tokens. Numerals and words are collected first and judged when they end, which no correct
text can tell from judging them character by character. -/

namespace PreviewInstaller.Json

/-- A token. -/
inductive Token where
  | openObject
  | closeObject
  | openArray
  | closeArray
  | colon
  | comma
  /-- A piece of text; `none` if it holds half a surrogate pair. -/
  | text (content : Option String)
  /-- A number, a truth value or `null`. -/
  | scalar (value : Json)
deriving Repr

/-! ## Numerals -/

/-- The digits at the front of a numeral, and what follows them. -/
def digits (text : List Char) : List Char × List Char :=
  text.span Char.isDigit

/-- Whether a whole part is well-formed: some digits without an idle zero in front. -/
def isWhole : List Char → Bool
  | [] => false
  | [_] => true
  | first :: _ => first ≠ '0'

/-- The digits after the point, and what follows them. -/
def fraction? : List Char → Option (List Char × List Char)
  | '.' :: rest =>
    let (places, rest) := digits rest
    if places = [] then none else some (places, rest)
  | rest => some ([], rest)

/-- The power of ten of an exponent that is the rest of a numeral. -/
def exponent? : List Char → Option Int
  | [] => some 0
  | mark :: rest =>
    if mark = 'e' ∨ mark = 'E' then
      let (negative, rest) := match rest with
        | '+' :: rest => (false, rest)
        | '-' :: rest => (true, rest)
        | rest => (false, rest)
      let (places, rest) := digits rest
      if places = [] ∨ rest ≠ [] then none
      else
        let power : Int := Text.decimal 0 places
        some (if negative then -power else power)
    else none

/-- The digits that are left without the zeros at their end, in reverse, and how many those are. -/
def withoutZeros : List Char → List Char × Nat
  | '0' :: rest =>
    let (digits, zeros) := withoutZeros rest
    (digits, zeros + 1)
  | digits => (digits, 0)

/-- The decimal of digits and a power of ten, with no zero at the end of its digits. -/
def decimalOf (negative : Bool) (digits : List Char) (exponent : Int) : Number :=
  let (reversed, zeros) := withoutZeros digits.reverse
  if reversed = [] then .decimal negative 0 0
  else .decimal negative (Text.decimal 0 reversed.reverse) (exponent + zeros)

/-- The value of a numeral. Minus zero is no integer. -/
def numeral? (text : List Char) : Option Json := do
  let (negative, rest) := match text with
    | '-' :: rest => (true, rest)
    | rest => (false, rest)
  let (whole, rest) := digits rest
  if isWhole whole = false then none
  let (places, tail) ← fraction? rest
  let exponent ← exponent? tail
  let value := Text.decimal 0 (whole ++ places)
  if rest = [] ∧ negative = false ∧ value < UInt64.size then return .number (.integer value)
  if rest = [] ∧ negative = true ∧ 0 < value ∧ value ≤ UInt64.size / 2 then
    return .number (.integer (-(value : Int)))
  let shift := exponent - places.length
  if isInfinite value shift then return .unreadable
  return .number (decimalOf negative (whole ++ places) shift)

/-- The value of a word. -/
def word? (letters : List Char) : Option Json :=
  if letters = ['n', 'u', 'l', 'l'] then some .null
  else if letters = ['t', 'r', 'u', 'e'] then some (.bool true)
  else if letters = ['f', 'a', 'l', 's', 'e'] then some (.bool false)
  else none

/-! ## Text -/

/-- A piece of text between quotes: a character as it stands, or a number after an escape, which
can be half a surrogate pair. -/
inductive Piece where
  | char (c : Char)
  | code (value : Nat)
deriving DecidableEq, Repr

/-- The characters of pieces; `none` if there is half a surrogate pair. -/
def characters? : List Piece → Option (List Char)
  | [] => some []
  | .char c :: rest => (c :: ·) <$> characters? rest
  | .code high :: .code low :: rest =>
    if 0xD800 ≤ high ∧ high < 0xDC00 then
      if 0xDC00 ≤ low ∧ low < 0xE000 then
        (Char.ofNat (0x10000 + (high - 0xD800) * 0x400 + (low - 0xDC00)) :: ·) <$>
          characters? rest
      else none
    else if 0xDC00 ≤ high ∧ high < 0xE000 then none
    else (Char.ofNat high :: ·) <$> characters? (.code low :: rest)
  | .code value :: rest =>
    if 0xD800 ≤ value ∧ value < 0xE000 then none
    else (Char.ofNat value :: ·) <$> characters? rest

/-- The character that a one-letter escape stands for. -/
def escape? (c : Char) : Option Char :=
  match c with
  | '"' => some '"'
  | '\\' => some '\\'
  | '/' => some '/'
  | 'b' => some '\x08'
  | 'f' => some '\x0c'
  | 'n' => some '\n'
  | 'r' => some '\r'
  | 't' => some '\t'
  | _ => none

/-- The value of a hexadecimal digit. -/
def hexDigit? (c : Char) : Option Nat :=
  if c.isDigit then some (c.toNat - '0'.toNat)
  else if 'a' ≤ c ∧ c ≤ 'f' then some (c.toNat - 'a'.toNat + 10)
  else if 'A' ≤ c ∧ c ≤ 'F' then some (c.toNat - 'A'.toNat + 10)
  else none

/-! ## The machine -/

/-- Where the machine stands; what it has collected is in reverse. -/
inductive Mode where
  | gap
  | word (letters : List Char)
  | numeral (symbols : List Char)
  | text (pieces : List Piece)
  /-- After a backslash. -/
  | escape (pieces : List Piece)
  /-- After `\u` and `seen` hexadecimal digits of the value `code`. -/
  | unicode (pieces : List Piece) (seen code : Nat)

/-- Whether a character can stand between tokens. -/
def isGap (c : Char) : Bool :=
  c = ' ' || c = '\t' || c = '\n' || c = '\r'

/-- Whether a numeral goes on with this character. -/
def isNumeral (c : Char) : Bool :=
  c.isDigit || c = '-' || c = '+' || c = '.' || c = 'e' || c = 'E'

/-- The step from between two tokens. -/
def begin? (c : Char) : Option (Mode × List Token) :=
  if isGap c then some (.gap, [])
  else if c = '"' then some (.text [], [])
  else if c.isDigit || c = '-' then some (.numeral [c], [])
  else if c.isLower then some (.word [c], [])
  else
    match c with
    | '\x7b' => some (.gap, [.openObject])
    | '\x7d' => some (.gap, [.closeObject])
    | '[' => some (.gap, [.openArray])
    | ']' => some (.gap, [.closeArray])
    | ':' => some (.gap, [.colon])
    | ',' => some (.gap, [.comma])
    | _ => none

/-- The step that ends a scalar at a character behind it. -/
def endScalar? (value? : Option Json) (c : Char) : Option (Mode × List Token) := do
  let value ← value?
  let (mode, tokens) ← begin? c
  return (mode, .scalar value :: tokens)

/-- One step: the next state and the tokens that are finished. -/
def step? (mode : Mode) (c : Char) : Option (Mode × List Token) :=
  match mode with
  | .gap => begin? c
  | .word letters =>
    if c.isLower then some (.word (c :: letters), [])
    else endScalar? (word? letters.reverse) c
  | .numeral symbols =>
    if isNumeral c then some (.numeral (c :: symbols), [])
    else endScalar? (numeral? symbols.reverse) c
  | .text pieces =>
    if c = '"' then some (.gap, [.text ((characters? pieces.reverse).map String.ofList)])
    else if c = '\\' then some (.escape pieces, [])
    else if c.toNat < 0x20 then none
    else some (.text (.char c :: pieces), [])
  | .escape pieces =>
    if c = 'u' then some (.unicode pieces 0 0, [])
    else (escape? c).map fun c => (.text (.char c :: pieces), [])
  | .unicode pieces seen code => do
    let code := code * 16 + (← hexDigit? c)
    return (if seen = 3 then .text (.code code :: pieces) else .unicode pieces (seen + 1) code, [])

/-- The tokens that the end of the text finishes. -/
def finish? : Mode → Option (List Token)
  | .gap => some []
  | .word letters => (word? letters.reverse).map fun value => [.scalar value]
  | .numeral symbols => (numeral? symbols.reverse).map fun value => [.scalar value]
  | _ => none

/-- The tokens of a text, from a state of the machine on. -/
def tokensFrom? : Mode → List Char → Option (List Token)
  | mode, [] => finish? mode
  | mode, c :: rest => do
    let (mode, tokens) ← step? mode c
    return tokens ++ (← tokensFrom? mode rest)

/-- The tokens of a text; `none` if it has a part that is no token. -/
def tokens? (text : List Char) : Option (List Token) :=
  tokensFrom? .gap text

end PreviewInstaller.Json
