import PreviewInstaller.Text.Pieces
import PreviewInstaller.Text.Blank

set_option autoImplicit false

/-! # Instants

An instant is a second of UTC, counted from the start of 1970, or the leap second that follows the
last second of a minute. A point in time lies within such a second. Dates are proleptic Gregorian.
Both are written as RFC 3339 timestamps in UTC without fractions; years outside 0 to 9999 carry a
sign and at least four digits.

Day numbers are split into eras of 400 years that start on the first of March, so that the day a
leap year adds is the last one of its year, the year it adds the last of its century, and so on:
each division but the outermost is cut off at its last part. -/

namespace PreviewInstaller

/-! ## Dates -/

/-- A day of the proleptic Gregorian calendar. -/
structure Date where
  year : Int
  month : Nat
  day : Nat
deriving DecidableEq, Repr

namespace Date

/-- Days of an era, which is 400 years. -/
def daysPerEra : Nat := 146097

/-- Days from the first of March of year 0 to the first of January 1970. -/
def epoch : Int := 719468

/-- Whether 29 February exists in a year. -/
def isLeapYear (year : Int) : Bool :=
  year % 4 = 0 && (year % 100 ≠ 0 || year % 400 = 0)

/-- Days of a month. -/
def daysInMonth (year : Int) (month : Nat) : Nat :=
  if month = 2 then if isLeapYear year then 29 else 28
  else if month = 4 ∨ month = 6 ∨ month = 9 ∨ month = 11 then 30
  else 31

/-- Whether the day exists. -/
def exists? (date : Date) : Bool :=
  1 ≤ date.month && date.month ≤ 12 && 1 ≤ date.day &&
    date.day ≤ daysInMonth date.year date.month

/-- Days from the first of March to the first of the month that comes `index` months later. -/
def daysBeforeMonth (index : Nat) : Nat :=
  (153 * index + 2) / 5

/-- The day that lies `dayOfYear` days after the first of March of `marchYear`. -/
def ofDayOfYear (marchYear : Int) (dayOfYear : Nat) : Date :=
  let index := (5 * dayOfYear + 2) / 153
  let day := dayOfYear - daysBeforeMonth index + 1
  if index < 10 then ⟨marchYear, index + 3, day⟩ else ⟨marchYear + 1, index - 9, day⟩

/-- The day that lies `days` days after the first of January 1970. -/
def ofDays (days : Int) : Date :=
  let sinceEpoch := days + epoch
  let era := sinceEpoch / daysPerEra
  let dayOfEra := (sinceEpoch % daysPerEra).toNat
  let century := min (dayOfEra / 36524) 3
  let dayOfCentury := dayOfEra - century * 36524
  let cycle := dayOfCentury / 1461
  let dayOfCycle := dayOfCentury - cycle * 1461
  let yearOfCycle := min (dayOfCycle / 365) 3
  let yearOfEra := century * 100 + cycle * 4 + yearOfCycle
  ofDayOfYear (era * 400 + yearOfEra) (dayOfCycle - yearOfCycle * 365)

/-- The number of days from the first of January 1970 to a date. -/
def toDays (date : Date) : Int :=
  let marchYear := if date.month ≤ 2 then date.year - 1 else date.year
  let index := if date.month ≤ 2 then date.month + 9 else date.month - 3
  let yearOfEra := marchYear % 400
  marchYear / 400 * daysPerEra + yearOfEra * 365 + yearOfEra / 4 - yearOfEra / 100 +
    daysBeforeMonth index + date.day - 1 - epoch

end Date

/-! ## Instants -/

/-- The first day that an instant can lie in. -/
def firstDate : Date := ⟨-262143, 1, 1⟩

/-- The last day that an instant can lie in. -/
def lastDate : Date := ⟨262142, 12, 31⟩

/-- Seconds of a day. -/
def secondsPerDay : Int := 86400

/-- Whether a number of seconds lies in the years that an instant can have. -/
def isInCalendar (seconds : Int) : Bool :=
  firstDate.toDays ≤ seconds / secondsPerDay && seconds / secondsPerDay ≤ lastDate.toDays

/-- A second of UTC. With `leap` it is the leap second after second 59 of a minute, and `seconds`
counts up to that second 59. -/
structure Instant where
  seconds : Int
  leap : Bool
  in_calendar : isInCalendar seconds = true
  leap_last : leap = true → seconds % 60 = 59
deriving DecidableEq, Repr

/-- A point in time: a second of UTC, and how many nanoseconds of it have passed. -/
structure PointInTime where
  instant : Instant
  nanoseconds : Fin 1000000000
deriving DecidableEq, Repr

namespace Instant

/-- The point in time at which the second begins. -/
def start (instant : Instant) : PointInTime :=
  ⟨instant, 0⟩

/-- The instant with these seconds, when there is one. -/
def make? (seconds : Int) (leap : Bool) : Option Instant :=
  if h : isInCalendar seconds = true ∧ (leap = true → seconds % 60 = 59) then
    some ⟨seconds, leap, h.1, h.2⟩
  else none

/-- The instant of a second and its nanoseconds. A leap second is given as second 59 with at least
a whole second of nanoseconds, and there are less than two seconds of them. -/
def ofUnix? (seconds : Int) (nanoseconds : Nat) : Option Instant :=
  if nanoseconds < 2000000000 then make? seconds (1000000000 ≤ nanoseconds) else none

/-- The start of 1970. -/
def epoch : Instant :=
  ⟨0, false, by decide, by decide⟩

/-- The day of an instant. -/
def date (instant : Instant) : Date :=
  Date.ofDays (instant.seconds / secondsPerDay)

/-- Seconds since the start of the day, a leap second not counted. -/
def secondOfDay (instant : Instant) : Nat :=
  (instant.seconds % secondsPerDay).toNat

/-- A year: four digits from 0 to 9999, else a sign and at least four digits. -/
def yearText (year : Int) : List Char :=
  if year < 0 then '-' :: Text.padded 4 year.natAbs
  else if year ≤ 9999 then Text.padded 4 year.natAbs
  else '+' :: Text.padded 4 year.natAbs

/-- The characters of the RFC 3339 form. -/
def characters (instant : Instant) : List Char :=
  let date := instant.date
  let time := instant.secondOfDay
  let second := time % 60 + if instant.leap then 1 else 0
  yearText date.year ++ '-' :: Text.padded 2 date.month ++ '-' :: Text.padded 2 date.day ++
    'T' :: Text.padded 2 (time / 3600) ++ ':' :: Text.padded 2 (time / 60 % 60) ++
    ':' :: Text.padded 2 second ++ ['Z']

/-- The RFC 3339 form in UTC, without fractions: `2023-07-14T09:30:00Z`. -/
def rfc3339 (instant : Instant) : String :=
  String.ofList instant.characters

/-! ## Reading

The reader is lenient: blanks may stand before every field, mark and offset, fields but the offset's
may lack leading zeros, a space may stand for the `T`, and letters may be of either case. -/

/-- A number of at least one and at most `most` digits at the front, and what follows it. -/
def number? (most : Nat) (text : List Char) : Option (Nat × List Char) :=
  let digits := (text.take most).takeWhile Char.isDigit
  if digits = [] then none else some (Text.decimal 0 digits, text.drop digits.length)

/-- The number of `most` digits at most that follows blanks. -/
def field? (most : Nat) (text : List Char) : Option (Nat × List Char) :=
  number? most (Text.skipBlanks text)

/-- What follows a mark at the front. -/
def mark? (mark : Char) : List Char → Option (List Char)
  | [] => none
  | c :: rest => if c = mark then some rest else none

/-- A year: up to four digits, or a sign and any number of digits. -/
def year? (text : List Char) : Option (Int × List Char) :=
  match Text.skipBlanks text with
  | '-' :: rest => (number? rest.length rest).map fun (n, rest) => (-(n : Int), rest)
  | '+' :: rest => (number? rest.length rest).map fun (n, rest) => ((n : Int), rest)
  | rest => (number? 4 rest).map fun (n, rest) => ((n : Int), rest)

/-- A field that follows a mark. -/
def markedField? (mark : Char) (text : List Char) : Option (Nat × List Char) :=
  (mark? mark (Text.skipBlanks text)).bind (field? 2)

/-- A date, with dashes between its fields. -/
def date? (text : List Char) : Option (Date × List Char) := do
  let (year, rest) ← year? text
  let (month, rest) ← markedField? '-' rest
  let (day, rest) ← markedField? '-' rest
  return (⟨year, month, day⟩, rest)

/-- What follows the letter or the space behind a date. -/
def separator? : List Char → Option (List Char)
  | [] => none
  | c :: rest => if c = 'T' ∨ c = 't' ∨ c = ' ' then some rest else none

/-- Hour, minute and second, with colons between them. -/
def timeOfDay? (text : List Char) : Option ((Nat × Nat × Nat) × List Char) := do
  let (hour, rest) ← field? 2 text
  let (minute, rest) ← markedField? ':' rest
  let (second, rest) ← markedField? ':' rest
  return ((hour, minute, second), rest)

/-- The nanoseconds that the fraction of a second at the front makes, and what follows it. Without
a fraction there are none, and digits behind the ninth do not count. -/
def fraction? : List Char → Option (Fin 1000000000 × List Char)
  | '.' :: rest =>
    let digits := rest.takeWhile Char.isDigit
    let nine := digits.take 9 ++ List.replicate (9 - digits.length) '0'
    if digits = [] then none
    else some (Fin.ofNat _ (Text.decimal 0 nine), rest.drop digits.length)
  | rest => some (0, rest)

/-- The text in capital letters, as far as ASCII goes. -/
def isUtc (letters : List Char) : Bool :=
  letters.map Char.toUpper = ['U', 'T', 'C']

/-- Two digits at the front, the first below `limit`, and what follows them. -/
def twoDigits? (limit : Nat) : List Char → Option (Nat × List Char)
  | a :: b :: rest =>
    if a.isDigit && b.isDigit && a.toNat - '0'.toNat < limit then
      some (Text.decimal 0 [a, b], rest)
    else none
  | _ => none

/-- An offset from UTC in minutes: `Z`, `UTC`, or a sign, hours and minutes, which colons and blanks
may separate. -/
def offset? (text : List Char) : Option (Int × List Char) :=
  if isUtc (text.take 3) then some (0, text.drop 3)
  else
    match text with
    | [] => none
    | c :: rest =>
      if c = 'Z' ∨ c = 'z' then some (0, rest)
      else if c = '+' ∨ c = '-' ∨ c = '−' then do
        let (hours, rest) ← twoDigits? 10 rest
        let rest := rest.dropWhile fun c => c = ':' || Text.isBlank c
        let (minutes, rest) ← twoDigits? 6 rest
        let offset : Int := hours * 60 + minutes
        return (if c = '+' then offset else -offset, rest)
      else none

/-- The instant of a date, a time of day and an offset in minutes, when there is one. Second 60 is
the leap second after second 59. -/
def ofFields? (date : Date) (hour minute second : Nat) (offset : Int) : Option Instant :=
  let leap := second = 60
  let wallClock := date.toDays * secondsPerDay + (hour * 3600 + minute * 60 : Nat) +
    (if leap then 59 else second)
  if date.exists? && hour < 24 && minute < 60 && second ≤ 60 && offset.natAbs < 1440 &&
      isInCalendar wallClock then
    make? (wallClock - offset * 60) leap
  else none

end Instant

namespace PointInTime

open Instant

/-- The point in time that a timestamp with an offset names. -/
def read? (text : String) : Option PointInTime := do
  let (date, rest) ← date? text.toList
  let rest ← separator? rest
  let ((hour, minute, second), rest) ← timeOfDay? rest
  let (nanoseconds, rest) ← fraction? rest
  let (offset, rest) ← offset? (Text.skipBlanks rest)
  if Text.skipBlanks rest = [] then
    (ofFields? date hour minute second offset).map (⟨·, nanoseconds⟩)
  else none

end PointInTime

/-- The second in which the point in time lies that a timestamp with an offset names. -/
def Instant.read? (text : String) : Option Instant :=
  (PointInTime.read? text).map (·.instant)

end PreviewInstaller
