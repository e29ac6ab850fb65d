set_option autoImplicit false

/-! # JSON values

The values of JSON text. Members of an object keep their order and their repetitions, because a
reader of objects may care for both. Integers of 64 bits are kept apart from all other numbers: only
they are read where an integer is wanted. -/

namespace PreviewInstaller

/-- A number of JSON text. -/
inductive Number where
  /-- A number without fraction and exponent, between -2⁶³ and 2⁶⁴ - 1. -/
  | integer (value : Int)
  /-- Any other number: `digits` times ten to the power `exponent`, with its sign. -/
  | decimal (negative : Bool) (digits : Nat) (exponent : Int)
deriving DecidableEq, Repr, Inhabited

/-- A JSON value. -/
inductive Json where
  | null
  | bool (value : Bool)
  | number (value : Number)
  | text (value : String)
  | array (elements : List Json)
  | object (members : List (String × Json))
  /-- A value of correct form without meaning: text with half a surrogate pair, an object with such
  a key, or a number beyond all doubles. It can be passed over and not be read. -/
  | unreadable
deriving Repr, Inhabited

namespace Json

/-- The JSON value of an integer. -/
def ofInt (value : Int) : Json :=
  .number (.integer value)

/-- The value of the last member with this key. -/
def lookup (key : String) (members : List (String × Json)) : Option Json :=
  (members.reverse.find? (·.1 = key)).map (·.2)

/-- The member of an object, `null` where there is none. -/
def get (json : Json) (key : String) : Json :=
  match json with
  | .object members => (lookup key members).getD .null
  | _ => .null

/-- The text of a value that is text. -/
def text? : Json → Option String
  | .text value => some value
  | _ => none

/-- The integer of a value that is one. -/
def integer? : Json → Option Int
  | .number (.integer value) => some value
  | _ => none

/-- The elements of an array. -/
def elements? : Json → Option (List Json)
  | .array elements => some elements
  | _ => none

/-- The members of an object. -/
def members? : Json → Option (List (String × Json))
  | .object members => some members
  | _ => none

/-- Whether a value is `null`. -/
def isNull : Json → Bool
  | .null => true
  | _ => false

/-! ## Readable values -/

/-- The first number that is beyond all doubles: halfway from the greatest double to the next power
of two. -/
def firstInfinite : Nat := Nat.pow 2 1024 - Nat.pow 2 970

/-- Whether `digits` times ten to the power `exponent` is beyond all doubles. -/
def isInfinite (digits : Nat) (exponent : Int) : Bool :=
  if digits = 0 then false
  else
    let magnitude := (Nat.toDigits 10 digits).length + exponent
    if magnitude < 309 then false
    else if 310 < magnitude then true
    else if 0 ≤ exponent then firstInfinite ≤ digits * Nat.pow 10 exponent.toNat
    else firstInfinite * Nat.pow 10 exponent.natAbs ≤ digits

/-- Whether a number is within its bounds and written with no more digits than it needs. -/
def isNormal : Number → Bool
  | .integer value => -Int.pow 2 63 ≤ value && value < Int.pow 2 64
  | .decimal _ digits exponent =>
    if digits = 0 then exponent = 0 else digits % 10 ≠ 0 && !isInfinite digits exponent

mutual

/-- Whether a value has meaning throughout. -/
def isReadable : Json → Bool
  | .array elements => areReadable elements
  | .object members => haveReadable members
  | .number value => isNormal value
  | .unreadable => false
  | _ => true

/-- Whether all values of a list have meaning throughout. -/
def areReadable : List Json → Bool
  | [] => true
  | value :: rest => isReadable value && areReadable rest

/-- Whether the values of all members have meaning throughout. -/
def haveReadable : List (String × Json) → Bool
  | [] => true
  | (_, value) :: rest => isReadable value && haveReadable rest

end

end Json

end PreviewInstaller
