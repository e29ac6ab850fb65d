import PreviewInstaller.Json.Basic

set_option autoImplicit false

/-! # Writing JSON values

Values are written without blanks. Quotes, backslashes and control characters are escaped, and all
other characters stand for themselves. A value without meaning is written as `null`. -/

namespace PreviewInstaller.Json

/-- The digits of an integer. -/
def integerText (value : Int) : List Char :=
  if value < 0 then '-' :: Nat.toDigits 10 value.natAbs else Nat.toDigits 10 value.natAbs

/-- Digits of which `places` stand behind the point. -/
def positional (digits : List Char) (places : Int) : List Char :=
  let length : Int := digits.length
  if places ≤ 0 then digits ++ List.replicate places.natAbs '0' ++ ['.', '0']
  else if places < length then
    digits.take (length - places).toNat ++ '.' :: digits.drop (length - places).toNat
  else '0' :: '.' :: List.replicate (places - length).toNat '0' ++ digits

/-- Digits of which the first stands before the point, and a power of ten. -/
def scientific (digits : List Char) (power : Int) : List Char :=
  (match digits with
    | first :: next :: rest => first :: '.' :: next :: rest
    | digits => digits) ++ 'e' :: integerText power

/-- Digits times a power of ten. From 10⁻⁵ on and below 10¹⁶ every place is written. -/
def decimalText (digits : List Char) (exponent : Int) : List Char :=
  let magnitude := digits.length + exponent
  if -5 < magnitude ∧ magnitude ≤ 16 then positional digits (-exponent)
  else scientific digits (magnitude - 1)

/-- A number: integers by their digits, others with a point or a power of ten. -/
def numberText : Number → List Char
  | .integer value => integerText value
  | .decimal negative digits exponent =>
    (if negative then ['-'] else []) ++ decimalText (Nat.toDigits 10 digits) exponent

/-- A control character as an escape with four hexadecimal digits. -/
def controlEscape (c : Char) : List Char :=
  let digits := Nat.toDigits 16 c.toNat
  '\\' :: 'u' :: List.replicate (4 - digits.length) '0' ++ digits

/-- A character between quotes. -/
def escapeChar (c : Char) : List Char :=
  if c = '"' then ['\\', '"']
  else if c = '\\' then ['\\', '\\']
  else if c.toNat < 0x20 then controlEscape c
  else [c]

/-- A text between quotes. -/
def quote (text : String) : List Char :=
  '"' :: text.toList.flatMap escapeChar ++ ['"']

mutual

/-- The text of a value. -/
def print : Json → List Char
  | .null | .unreadable => ['n', 'u', 'l', 'l']
  | .bool true => ['t', 'r', 'u', 'e']
  | .bool false => ['f', 'a', 'l', 's', 'e']
  | .number value => numberText value
  | .text value => quote value
  | .array elements => '[' :: printElements elements ++ [']']
  | .object members => '\x7b' :: printMembers members ++ ['\x7d']

/-- Elements with commas between them. -/
def printElements : List Json → List Char
  | [] => []
  | [value] => print value
  | value :: next :: rest => print value ++ ',' :: printElements (next :: rest)

/-- Members with commas between them. -/
def printMembers : List (String × Json) → List Char
  | [] => []
  | [(key, value)] => quote key ++ ':' :: print value
  | (key, value) :: next :: rest =>
    quote key ++ ':' :: print value ++ ',' :: printMembers (next :: rest)

end

/-- The text of a value. -/
def render (json : Json) : String :=
  String.ofList (print json)

end PreviewInstaller.Json
