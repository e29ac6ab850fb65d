set_option autoImplicit false

/-! # Blank characters

The characters with the Unicode property White_Space, and the cutting of blanks at the front of a
text. -/

namespace PreviewInstaller.Text

/-- The intervals of code points with the property White_Space. -/
def blankRanges : List (Nat × Nat) :=
  [(0x09, 0x0D), (0x20, 0x20), (0x85, 0x85), (0xA0, 0xA0), (0x1680, 0x1680), (0x2000, 0x200A),
   (0x2028, 0x2029), (0x202F, 0x202F), (0x205F, 0x205F), (0x3000, 0x3000)]

/-- Whether a character is blank. -/
def isBlank (c : Char) : Bool :=
  blankRanges.any fun (low, high) => low ≤ c.toNat && c.toNat ≤ high

/-- The text from its first character on that is not blank. -/
def skipBlanks (text : List Char) : List Char :=
  text.dropWhile isBlank

end PreviewInstaller.Text
