import PreviewInstaller.Instant
import PreviewInstaller.Proofs.Text.Numeral

set_option autoImplicit false

/-! # Laws of instants

The date of a day exists and is that of no other day, and the timestamp that is written for an
instant is read as that instant. -/

namespace PreviewInstaller

namespace Date

/-! ## Days and dates -/

/-- The day number of a date that lies some days after the first of March of a year. Its month is
told by the number of months since March, and its day by the days before that month. -/
theorem toDays_ofDayOfYear (era : Int) (yearOfEra dayOfYear : Nat) (hyear : yearOfEra < 400)
    (hday : dayOfYear < 366) :
    (ofDayOfYear (era * 400 + yearOfEra) dayOfYear).toDays =
      era * 146097 + (yearOfEra * 365 + yearOfEra / 4 - yearOfEra / 100 + dayOfYear : Nat) -
        epoch := by
  have hbefore : daysBeforeMonth ((5 * dayOfYear + 2) / 153) ≤ dayOfYear := by
    unfold daysBeforeMonth
    omega
  have hera : (era * 400 + yearOfEra) / 400 = era := by omega
  have hrest : (era * 400 + yearOfEra) % 400 = yearOfEra := by omega
  have hdays : (daysPerEra : Int) = 146097 := rfl
  unfold ofDayOfYear
  dsimp only
  split
  · next hindex =>
    have hmonth : ¬(5 * dayOfYear + 2) / 153 + 3 ≤ 2 := by omega
    simp only [toDays, if_neg hmonth, Nat.add_sub_cancel, hera, hrest, hdays]
    omega
  · next hindex =>
    have hmonth : (5 * dayOfYear + 2) / 153 - 9 ≤ 2 := by omega
    have hmonths : (5 * dayOfYear + 2) / 153 - 9 + 9 = (5 * dayOfYear + 2) / 153 := by omega
    simp only [toDays, if_pos hmonth, hmonths, Int.add_sub_cancel, hera, hrest, hdays]
    omega

/-- Where a day lies in the calendar: the parts that `ofDays` cuts it into. The last century of an
era and the last year of a cycle have one more day, which is why the cuts stop at 3. -/
theorem exists_parts (days : Int) :
    ∃ (era : Int) (century cycle year dayOfYear : Nat),
      ofDays days = ofDayOfYear (era * 400 + (century * 100 + cycle * 4 + year : Nat)) dayOfYear ∧
      days + epoch = era * 146097 +
        (century * 36524 + cycle * 1461 + year * 365 + dayOfYear : Nat) ∧
      century ≤ 3 ∧ cycle ≤ 24 ∧ year ≤ 3 ∧ dayOfYear ≤ 365 ∧
      (dayOfYear = 365 → year = 3 ∧ (cycle = 24 → century = 3)) := by
  have hdays : (daysPerEra : Int) = 146097 := rfl
  refine ⟨_, _, _, _, _, rfl, ?_⟩
  simp only [hdays]
  generalize days + epoch = day
  have hday : ((day % 146097).toNat : Int) = day % 146097 := by omega
  generalize (day % 146097).toNat = dayOfEra at hday
  omega

theorem toDays_ofDays (days : Int) : (ofDays days).toDays = days := by
  obtain ⟨era, century, cycle, year, dayOfYear, hdate, hdays, hcentury, hcycle, hyear, hday, -⟩ :=
    exists_parts days
  rw [hdate, toDays_ofDayOfYear _ _ _ (by omega) (by omega)]
  omega

/-- The day of a year exists if the year ends no later than February does. -/
theorem exists_ofDayOfYear (marchYear : Int) (dayOfYear : Nat) (hday : dayOfYear ≤ 365)
    (hleap : dayOfYear = 365 → isLeapYear (marchYear + 1) = true) :
    (ofDayOfYear marchYear dayOfYear).exists? = true := by
  unfold ofDayOfYear daysBeforeMonth
  have hindex : (5 * dayOfYear + 2) / 153 < 12 := by omega
  have hlow : 153 * ((5 * dayOfYear + 2) / 153) ≤ 5 * dayOfYear + 2 := by omega
  have hhigh : 5 * dayOfYear + 2 < 153 * ((5 * dayOfYear + 2) / 153) + 153 := by omega
  generalize (5 * dayOfYear + 2) / 153 = index at hindex hlow hhigh
  dsimp only
  split
  · simp only [exists?, daysInMonth, Bool.and_eq_true, decide_eq_true_eq]
    refine ⟨⟨⟨by omega, by omega⟩, by omega⟩, ?_⟩
    rw [if_neg (by omega)]
    split <;> omega
  · simp only [exists?, daysInMonth, Bool.and_eq_true, decide_eq_true_eq]
    refine ⟨⟨⟨by omega, by omega⟩, by omega⟩, ?_⟩
    by_cases hmonth : index = 11
    · rw [if_pos (by omega)]
      by_cases hlast : dayOfYear = 365
      · rw [if_pos (hleap hlast)]
        omega
      · split <;> omega
    · rw [if_neg (by omega), if_neg (by omega)]
      omega

/-- The date of a day exists. -/
theorem exists_ofDays (days : Int) : (ofDays days).exists? = true := by
  obtain ⟨era, century, cycle, year, dayOfYear, hdate, -, hcentury, hcycle, hyear, hday, hleap⟩ :=
    exists_parts days
  rw [hdate]
  refine exists_ofDayOfYear _ _ hday fun hlast => ?_
  obtain ⟨hyear, hcentury⟩ := hleap hlast
  simp only [isLeapYear, Bool.and_eq_true, Bool.or_eq_true, decide_eq_true_eq]
  omega

end Date

namespace Instant

/-! ## Reading fields -/

/-- Digits are read up to a character that is none. -/
theorem number?_append {most : Nat} {digits rest : List Char}
    (hdigits : ∀ c ∈ digits, c.isDigit = true) (hne : digits ≠ []) (hlength : digits.length ≤ most)
    (hrest : rest.head?.any Char.isDigit = false) :
    number? most (digits ++ rest) = some (Text.decimal 0 digits, rest) := by
  have hend : (rest.take (most - digits.length)).takeWhile Char.isDigit = [] := by
    cases rest with
    | nil => simp
    | cons c others =>
      have hc : c.isDigit = false := by simpa using hrest
      cases most - digits.length with
      | zero => rfl
      | succ count => simp [hc]
  have hfront : ((digits ++ rest).take most).takeWhile Char.isDigit = digits := by
    rw [List.take_append, List.take_of_length_le hlength,
      List.takeWhile_append_of_pos hdigits, hend, List.append_nil]
  simp only [number?, hfront, if_neg hne, List.drop_left]

theorem skipBlanks_cons {c : Char} (rest : List Char) (h : Text.isBlank c = false) :
    Text.skipBlanks (c :: rest) = c :: rest :=
  List.dropWhile_cons_of_neg (by simp [h])

theorem isBlank_of_isDigit {c : Char} (h : c.isDigit = true) : Text.isBlank c = false := by
  obtain ⟨hlow, hhigh⟩ := Text.isDigit_iff.1 h
  simp [Text.isBlank, Text.blankRanges]
  omega

theorem skipBlanks_padded (width number : Nat) (rest : List Char) :
    Text.skipBlanks (Text.padded width number ++ rest) = Text.padded width number ++ rest := by
  cases h : Text.padded width number with
  | nil => exact absurd h (Text.padded_ne_nil _ _)
  | cons c others =>
    have hmem : c ∈ Text.padded width number := by
      rw [h]
      exact List.mem_cons_self ..
    exact skipBlanks_cons _ (isBlank_of_isDigit (Text.isDigit_of_mem_padded hmem))

theorem field?_padded {number : Nat} {rest : List Char} (h : number < 100)
    (hrest : rest.head?.any Char.isDigit = false) :
    field? 2 (Text.padded 2 number ++ rest) = some (number, rest) := by
  have hlength : (Text.padded 2 number).length = 2 := Text.length_padded_of_lt (by decide) h
  rw [field?, skipBlanks_padded, number?_append (fun c => Text.isDigit_of_mem_padded)
    (Text.padded_ne_nil _ _) (Nat.le_of_eq hlength) hrest, Text.decimal_padded]

theorem mark?_skipBlanks {c : Char} (rest : List Char) (h : Text.isBlank c = false) :
    mark? c (Text.skipBlanks (c :: rest)) = some rest := by
  rw [skipBlanks_cons rest h, mark?, if_pos rfl]

theorem markedField?_padded {mark : Char} {number : Nat} {rest : List Char}
    (hmark : Text.isBlank mark = false) (h : number < 100)
    (hrest : rest.head?.any Char.isDigit = false) :
    markedField? mark (mark :: Text.padded 2 number ++ rest) = some (number, rest) := by
  rw [List.cons_append, markedField?, mark?_skipBlanks _ hmark, Option.bind_some,
    field?_padded h hrest]

/-- The year that was written is read, up to the mark behind it. -/
theorem year?_yearText (year : Int) (rest : List Char) :
    year? (yearText year ++ '-' :: rest) = some (year, '-' :: rest) := by
  have hdigits : ∀ c ∈ Text.padded 4 year.natAbs, c.isDigit = true :=
    fun c => Text.isDigit_of_mem_padded
  have hnumber : ∀ most, (Text.padded 4 year.natAbs).length ≤ most →
      number? most (Text.padded 4 year.natAbs ++ '-' :: rest) =
        some (year.natAbs, '-' :: rest) := by
    intro most hmost
    rw [number?_append hdigits (Text.padded_ne_nil _ _) hmost rfl, Text.decimal_padded]
  unfold yearText
  by_cases hnegative : year < 0
  · rw [if_pos hnegative, List.cons_append, year?, skipBlanks_cons _ (by decide)]
    simp only
    rw [hnumber _ (by simp)]
    simp only [Option.map_some]
    congr 2
    omega
  rw [if_neg hnegative]
  by_cases hsmall : year ≤ 9999
  · rw [if_pos hsmall, year?, skipBlanks_padded]
    have hlength : (Text.padded 4 year.natAbs).length ≤ 4 :=
      Nat.le_of_eq (Text.length_padded_of_lt (by decide) (by omega))
    have hread := hnumber 4 hlength
    cases hpadded : Text.padded 4 year.natAbs with
    | nil => exact absurd hpadded (Text.padded_ne_nil _ _)
    | cons c others =>
      have hc := hdigits c (hpadded ▸ List.mem_cons_self ..)
      rw [hpadded] at hread
      rw [List.cons_append] at hread ⊢
      split
      · next heq =>
        obtain ⟨rfl, -⟩ := List.cons.inj heq
        exact absurd hc (by decide)
      · next heq =>
        obtain ⟨rfl, -⟩ := List.cons.inj heq
        exact absurd hc (by decide)
      · rw [hread]
        simp only [Option.map_some]
        congr 2
        omega
  · rw [if_neg hsmall, List.cons_append, year?, skipBlanks_cons _ (by decide)]
    simp only
    rw [hnumber _ (by simp)]
    simp only [Option.map_some]
    congr 2
    omega

/-! ## Reading what was written -/

/-- The second that is written: second 60 is the leap second. -/
theorem second_le (instant : Instant) :
    instant.secondOfDay % 60 + (if instant.leap then 1 else 0) ≤ 60 ∧
      (instant.secondOfDay % 60 + (if instant.leap then 1 else 0) = 60 ↔ instant.leap = true) := by
  have hlast := instant.leap_last
  have hday : (instant.secondOfDay : Int) = instant.seconds % 86400 := by
    simp only [secondOfDay, secondsPerDay]
    omega
  cases hleap : instant.leap with
  | false => simp only [Bool.false_eq_true, if_false, iff_false]; omega
  | true =>
    have hminute := hlast hleap
    simp only [if_true, iff_true]
    omega

/-- The fields of an instant are those of no other one. -/
theorem ofFields?_fields (instant : Instant) :
    ofFields? instant.date (instant.secondOfDay / 3600) (instant.secondOfDay / 60 % 60)
      (instant.secondOfDay % 60 + if instant.leap then 1 else 0) 0 = some instant := by
  obtain ⟨hle, hsixty⟩ := second_le instant
  have hday : (instant.secondOfDay : Int) = instant.seconds % 86400 := by
    simp only [secondOfDay, secondsPerDay]
    omega
  have hdays : instant.date.toDays = instant.seconds / 86400 := Date.toDays_ofDays _
  have hexists : instant.date.exists? = true := Date.exists_ofDays _
  have hsecond : (if instant.secondOfDay % 60 + (if instant.leap then 1 else 0) = 60 then 59
      else instant.secondOfDay % 60 + if instant.leap then 1 else 0) =
        instant.secondOfDay % 60 := by
    cases hleap : instant.leap with
    | false =>
      simp only [Bool.false_eq_true, if_false, Nat.add_zero]
      exact if_neg (by omega)
    | true =>
      have hlast := hsixty.2 hleap
      simp only [hleap, if_true] at hlast ⊢
      rw [if_pos hlast]
      omega
  have hseconds : instant.date.toDays * secondsPerDay +
      (instant.secondOfDay / 3600 * 3600 + instant.secondOfDay / 60 % 60 * 60 : Nat) +
      (instant.secondOfDay % 60 : Nat) = instant.seconds := by
    simp only [hdays, secondsPerDay]
    omega
  have hleap : decide (instant.secondOfDay % 60 + (if instant.leap then 1 else 0) = 60) =
      instant.leap := by
    cases h : instant.leap with
    | false => simpa [h] using hsixty
    | true => simpa [h] using hsixty
  unfold ofFields?
  simp only [hleap, hsecond, hseconds, hexists, instant.in_calendar, decide_eq_true hle]
  rw [if_pos (by simp; omega), make?]
  simp only [Int.zero_mul, Int.sub_zero]
  exact dif_pos ⟨instant.in_calendar, instant.leap_last⟩

theorem date?_date (instant : Instant) {rest : List Char}
    (hrest : rest.head?.any Char.isDigit = false) :
    date? (yearText instant.date.year ++ '-' :: Text.padded 2 instant.date.month ++
      '-' :: Text.padded 2 instant.date.day ++ rest) = some (instant.date, rest) := by
  have hexists : instant.date.exists? = true := Date.exists_ofDays _
  simp only [Date.exists?, Bool.and_eq_true, decide_eq_true_eq] at hexists
  obtain ⟨⟨⟨-, hmonth⟩, -⟩, hexists⟩ := hexists
  have hday : instant.date.day ≤ 31 := by
    refine Nat.le_trans hexists ?_
    unfold Date.daysInMonth
    repeat' split
    all_goals decide
  have hdash : Text.isBlank '-' = false := by decide
  unfold date?
  simp only [List.append_assoc, List.cons_append, year?_yearText, Option.bind_eq_bind,
    Option.bind_some]
  rw [← List.cons_append, markedField?_padded hdash (by omega) rfl, Option.bind_some,
    ← List.cons_append, markedField?_padded hdash (by omega) hrest]
  rfl

theorem timeOfDay?_secondOfDay (instant : Instant) {rest : List Char}
    (hrest : rest.head?.any Char.isDigit = false) :
    timeOfDay? (Text.padded 2 (instant.secondOfDay / 3600) ++
      ':' :: Text.padded 2 (instant.secondOfDay / 60 % 60) ++
      ':' :: Text.padded 2 (instant.secondOfDay % 60 + if instant.leap then 1 else 0) ++ rest) =
        some ((instant.secondOfDay / 3600, instant.secondOfDay / 60 % 60,
          instant.secondOfDay % 60 + if instant.leap then 1 else 0), rest) := by
  obtain ⟨hle, -⟩ := second_le instant
  have htime : instant.secondOfDay < 86400 := by
    simp only [secondOfDay, secondsPerDay]
    omega
  have hcolon : Text.isBlank ':' = false := by decide
  unfold timeOfDay?
  simp only [List.append_assoc, List.cons_append, Option.bind_eq_bind]
  rw [field?_padded (by omega) rfl, Option.bind_some, ← List.cons_append,
    markedField?_padded hcolon (by omega) rfl, Option.bind_some, ← List.cons_append,
    markedField?_padded hcolon (by omega) hrest]
  rfl

/-- The timestamp that is written for an instant is read as its start. -/
theorem readPointInTime?_rfc3339 (instant : Instant) :
    PointInTime.read? instant.rfc3339 = some instant.start := by
  have hfraction : fraction? ['Z'] = some (0, ['Z']) := rfl
  have hoffset : offset? (Text.skipBlanks ['Z']) = some (0, []) := by decide
  have hend : Text.skipBlanks [] = [] := rfl
  have hcharacters : instant.characters = yearText instant.date.year ++
      '-' :: Text.padded 2 instant.date.month ++ '-' :: Text.padded 2 instant.date.day ++
      'T' :: (Text.padded 2 (instant.secondOfDay / 3600) ++
        ':' :: Text.padded 2 (instant.secondOfDay / 60 % 60) ++
        ':' :: Text.padded 2 (instant.secondOfDay % 60 + if instant.leap then 1 else 0) ++
        ['Z']) := by
    simp only [characters, List.append_assoc, List.cons_append]
  unfold PointInTime.read?
  rw [rfc3339, String.toList_ofList, hcharacters, date?_date instant rfl]
  simp only [Option.bind_eq_bind, Option.bind_some, separator?, true_or, if_true]
  rw [timeOfDay?_secondOfDay instant rfl]
  simp only [Option.bind_some, hfraction, hoffset, hend, if_true, ofFields?_fields]
  rfl

/-- The timestamp that is written for an instant is read as that instant. -/
theorem read?_rfc3339 (instant : Instant) : read? instant.rfc3339 = some instant := by
  rw [read?, readPointInTime?_rfc3339]
  rfl

end Instant

namespace PointInTime

/-- The start of the second that a point in time lies in. -/
def floor (time : PointInTime) : PointInTime :=
  time.instant.start

end PointInTime

end PreviewInstaller
