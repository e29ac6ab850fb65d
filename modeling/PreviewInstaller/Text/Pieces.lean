set_option autoImplicit false

/-! # Cutting text

Text is cut at a separator into the pieces between its occurrences, or at line ends into lines.
`joined` puts pieces back together with the separator between them. -/

namespace PreviewInstaller.Text

/-- The pieces between the occurrences of `separator`: one more than there are occurrences. -/
def pieces (separator : Char) : List Char → List (List Char)
  | [] => [[]]
  | c :: rest =>
    match pieces separator rest with
    | [] => [[c]]
    | first :: others =>
      if c = separator then [] :: first :: others else (c :: first) :: others

/-- The pieces with the separator between them. -/
def joined (separator : Char) : List (List Char) → List Char
  | [] => []
  | [piece] => piece
  | piece :: next :: others => piece ++ separator :: joined separator (next :: others)

theorem pieces_ne_nil (separator : Char) (text : List Char) : pieces separator text ≠ [] := by
  cases text with
  | nil => simp [pieces]
  | cons c rest =>
    simp only [pieces]
    split
    · simp
    · split <;> simp

theorem joined_cons (separator : Char) (piece : List Char) (others : List (List Char))
    (h : others ≠ []) :
    joined separator (piece :: others) = piece ++ separator :: joined separator others := by
  cases others with
  | nil => exact absurd rfl h
  | cons next rest => rfl

theorem joined_cons_char (separator c : Char) (first : List Char) (others : List (List Char)) :
    joined separator ((c :: first) :: others) = c :: joined separator (first :: others) := by
  cases others <;> rfl

/-- Cutting loses nothing. -/
theorem joined_pieces (separator : Char) (text : List Char) :
    joined separator (pieces separator text) = text := by
  induction text with
  | nil => rfl
  | cons c rest ih =>
    simp only [pieces]
    split
    · next h => exact absurd h (pieces_ne_nil separator rest)
    · next first others h =>
      rw [h] at ih
      split
      · next hc => rw [joined_cons _ _ _ (by simp), ih, hc]; rfl
      · rw [joined_cons_char, ih]

/-- A line without the carriage return it may end in. -/
def withoutReturn (line : List Char) : List Char :=
  match line.reverse with
  | '\r' :: front => front.reverse
  | _ => line

/-- The lines of a text. Each line ends in a line feed, which the last one may lack, and a carriage
return before the line feed belongs to the line end. -/
def lines (text : String) : List String :=
  let cut := pieces '\n' text.toList
  let (ended, last) := (cut.dropLast, cut.getLast?.getD [])
  (ended.map withoutReturn ++ if last = [] then [] else [last]).map String.ofList

/-- The first line of a text, without its line end. -/
def firstLine (text : String) : String :=
  String.ofList (text.toList.takeWhile (· ≠ '\n'))

/-- Whether `text` begins with `front`. -/
def startsWith (front text : String) : Bool :=
  front.toList.isPrefixOf text.toList

/-- What follows `front` in a text that begins with it. -/
def after? (front text : String) : Option String :=
  if startsWith front text then some (String.ofList (text.toList.drop front.toList.length))
  else none

/-- Whether `part` occurs in `text`. -/
def contains (part : List Char) : List Char → Bool
  | [] => part.isEmpty
  | c :: rest => part.isPrefixOf (c :: rest) || contains part rest

/-- A number in decimal with at least `width` digits. -/
def padded (width number : Nat) : List Char :=
  let digits := Nat.toDigits 10 number
  List.replicate (width - digits.length) '0' ++ digits

/-- The number that decimal digits denote, read after `before`. -/
def decimal (before : Nat) : List Char → Nat
  | [] => before
  | c :: rest => decimal (before * 10 + (c.toNat - '0'.toNat)) rest

end PreviewInstaller.Text
