import PreviewInstaller.Proofs.Calendar

set_option autoImplicit false

/-! # Timestamps

The reader of the installer is lenient, so that it reads back what was written says little about the
text. Here a text is taken apart into digits between marks, which is `Writes`, and its day is counted
along the calendar. Main statement: the text of an instant writes one date and time of day, and that
is its second; no other second has this text; and as long as years have four digits, texts are
ordered as seconds are. -/

namespace PreviewInstaller.Instant

open Date (IsDay)

/-! ## What a text writes -/

/-- A date and a time of day. -/
structure Stamp where
  date : Date
  hour : Nat
  minute : Nat
  second : Nat

/-- Digits, and how many of them, that make a number. -/
structure WritesNumber (width number : Nat) (digits : List Char) : Prop where
  digit : ∀ c ∈ digits, c.isDigit = true
  length : digits.length = width
  decimal : Text.decimal 0 digits = number

/-- Characters that make a year: four digits from 0 to 9999, else a sign and at least four digits. -/
inductive WritesYear : Int → List Char → Prop where
  | plain {year : Nat} {digits : List Char} (h : WritesNumber 4 year digits) : WritesYear year digits
  | early {year width : Nat} {digits : List Char} (hyear : 0 < year) (hwidth : 4 ≤ width)
      (h : WritesNumber width year digits) : WritesYear (-year) ('-' :: digits)
  | late {year width : Nat} {digits : List Char} (hyear : 9999 < year) (hwidth : 4 ≤ width)
      (h : WritesNumber width year digits) : WritesYear year ('+' :: digits)

/-- A text writes a date and a time of day in UTC. -/
def Writes (text : String) (stamp : Stamp) : Prop :=
  ∃ year month day hour minute second,
    text.toList = year ++ '-' :: (month ++ '-' :: (day ++ 'T' :: (hour ++ ':' :: (minute ++ ':' ::
      (second ++ ['Z']))))) ∧
    WritesYear stamp.date.year year ∧ WritesNumber 2 stamp.date.month month ∧
    WritesNumber 2 stamp.date.day day ∧ WritesNumber 2 stamp.hour hour ∧
    WritesNumber 2 stamp.minute minute ∧ WritesNumber 2 stamp.second second

theorem writesNumber_padded {width number : Nat} (hwidth : 0 < width) (h : number < 10 ^ width) :
    WritesNumber width number (Text.padded width number) where
  digit _ := Text.isDigit_of_mem_padded
  length := Text.length_padded_of_lt hwidth h
  decimal := Text.decimal_padded width number

theorem writesYear_yearText (year : Int) : WritesYear year (yearText year) := by
  have hwidth : 4 ≤ (Text.padded 4 year.natAbs).length := by
    rw [Text.length_padded]
    exact Nat.le_max_left _ _
  have hnumber : WritesNumber _ year.natAbs (Text.padded 4 year.natAbs) :=
    ⟨fun _ => Text.isDigit_of_mem_padded, rfl, Text.decimal_padded _ _⟩
  unfold yearText
  split
  · next hearly =>
    have hyear : year = -(year.natAbs : Int) := by omega
    have hwrites := WritesYear.early (by omega) hwidth hnumber
    rwa [← hyear] at hwrites
  split
  · next hearly hlast =>
    have hyear : year = (year.natAbs : Int) := by omega
    have hfour : year.natAbs < 10 ^ 4 := by omega
    have hwrites := WritesYear.plain (writesNumber_padded (by decide) hfour)
    rwa [← hyear] at hwrites
  · next hearly hlate =>
    have hyear : year = (year.natAbs : Int) := by omega
    have hwrites := WritesYear.late (by omega) hwidth hnumber
    rwa [← hyear] at hwrites

/-! ## One reading -/

theorem WritesYear.unique {first second : Int} {year : List Char} (hfirst : WritesYear first year)
    (hsecond : WritesYear second year) : first = second := by
  -- no sign is a digit
  have hminus : '-'.isDigit = false := by decide
  have hplus : '+'.isDigit = false := by decide
  cases hfirst with
  | plain h =>
    cases hsecond with
    | plain h' => rw [← h.decimal, h'.decimal]
    | early => simpa [hminus] using h.digit '-'
    | late => simpa [hplus] using h.digit '+'
  | early _ _ h =>
    cases hsecond with
    | plain h' => simpa [hminus] using h'.digit '-'
    | early _ _ h' => rw [← h.decimal, h'.decimal]
  | late _ _ h =>
    cases hsecond with
    | plain h' => simpa [hplus] using h'.digit '+'
    | late _ _ h' => rw [← h.decimal, h'.decimal]

/-- A field of known width in front of a mark is the same in two readings. -/
theorem WritesNumber.unique {width first second : Nat} {digits digits' rest rest' : List Char}
    (hfirst : WritesNumber width first digits) (hsecond : WritesNumber width second digits')
    (h : digits ++ rest = digits' ++ rest') : first = second ∧ rest = rest' := by
  obtain ⟨rfl, rfl⟩ := List.append_inj h (hfirst.length.trans hsecond.length.symm)
  exact ⟨hfirst.decimal.symm.trans hsecond.decimal, rfl⟩

theorem Writes.unique {text : String} {first second : Stamp} (hfirst : Writes text first)
    (hsecond : Writes text second) : first = second := by
  obtain ⟨year, month, day, hour, minute, sec, htext, hyear, hmonth, hday, hhour, hminute, hsec⟩ :=
    hfirst
  obtain ⟨year', month', day', hour', minute', sec', htext', hyear', hmonth', hday', hhour',
    hminute', hsec'⟩ := hsecond
  rw [htext] at htext'
  -- what follows the year has the same length in both readings
  obtain ⟨rfl, hrest⟩ := List.append_inj' htext' (by
    simp [hmonth.length, hmonth'.length, hday.length, hday'.length, hhour.length, hhour'.length,
      hminute.length, hminute'.length, hsec.length, hsec'.length])
  obtain ⟨hmonths, hrest⟩ := hmonth.unique hmonth' (List.cons.inj hrest).2
  obtain ⟨hdays, hrest⟩ := hday.unique hday' (List.cons.inj hrest).2
  obtain ⟨hhours, hrest⟩ := hhour.unique hhour' (List.cons.inj hrest).2
  obtain ⟨hminutes, hrest⟩ := hminute.unique hminute' (List.cons.inj hrest).2
  obtain ⟨hseconds, -⟩ := hsec.unique hsec' (List.cons.inj hrest).2
  obtain ⟨⟨_, _, _⟩, _, _, _⟩ := first
  obtain ⟨⟨_, _, _⟩, _, _, _⟩ := second
  simp only [Stamp.mk.injEq, Date.mk.injEq]
  exact ⟨⟨hyear.unique hyear', hmonths, hdays⟩, hhours, hminutes, hseconds⟩

/-- The text has twenty characters as long as four digits are enough for the year. -/
theorem Writes.length_eq_iff {text : String} {stamp : Stamp} (h : Writes text stamp) :
    text.length = 20 ↔ 0 ≤ stamp.date.year ∧ stamp.date.year ≤ 9999 := by
  obtain ⟨year, month, day, hour, minute, second, htext, hyear, hmonth, hday, hhour, hminute,
    hsecond⟩ := h
  have hlength : text.length = year.length + 16 := by
    rw [← String.length_toList, htext]
    simp [hmonth.length, hday.length, hhour.length, hminute.length, hsecond.length]
  generalize stamp.date.year = number at *
  cases hyear with
  | plain h =>
    have hsmall := Text.decimal_lt h.digit 0
    have hfour := h.length
    rw [h.decimal, hfour] at hsmall
    omega
  | early hearly hwidth h =>
    have hmore := h.length
    simp only [List.length_cons] at hlength
    omega
  | late hlate hwidth h =>
    have hmore := h.length
    simp only [List.length_cons] at hlength
    omega

/-! ## The text of an instant -/

/-- The date and the time of day of an instant. -/
def stamp (instant : Instant) : Stamp where
  date := instant.date
  hour := instant.secondOfDay / 3600
  minute := instant.secondOfDay / 60 % 60
  second := instant.secondOfDay % 60 + if instant.leap then 1 else 0

/-- A stamp is that of a second, where second 60 is the leap second after second 59. -/
structure Stamp.IsOf (stamp : Stamp) (seconds : Int) (leap : Prop) : Prop where
  exists_date : stamp.date.exists? = true
  hour : stamp.hour < 24
  minute : stamp.minute < 60
  second : stamp.second ≤ 60
  seconds : ∃ days, IsDay days stamp.date ∧ seconds = days * 86400 +
    (stamp.hour * 3600 + stamp.minute * 60 + min stamp.second 59 : Nat)
  leap : stamp.second = 60 ↔ leap

theorem coe_secondOfDay (instant : Instant) :
    (instant.secondOfDay : Int) = instant.seconds % 86400 :=
  Int.toNat_of_nonneg (Int.emod_nonneg _ (by decide))

theorem isOf_stamp (instant : Instant) :
    instant.stamp.IsOf instant.seconds (instant.leap = true) := by
  obtain ⟨hle, hleap⟩ := second_le instant
  have hday := coe_secondOfDay instant
  have hsecond : min instant.stamp.second 59 = instant.secondOfDay % 60 := by
    show min (instant.secondOfDay % 60 + if instant.leap then 1 else 0) 59 = _
    by_cases h : instant.leap = true
    · have hsixty := hleap.2 h
      rw [if_pos h] at hsixty ⊢
      omega
    · rw [if_neg h]
      omega
  refine ⟨Date.exists_ofDays _, ?_, ?_, hle, ⟨_, Date.isDay_ofDays _, ?_⟩, hleap⟩
  · show instant.secondOfDay / 3600 < 24
    omega
  · show instant.secondOfDay / 60 % 60 < 60
    omega
  · show instant.seconds = instant.seconds / 86400 * 86400 +
      (instant.secondOfDay / 3600 * 3600 + instant.secondOfDay / 60 % 60 * 60 +
        min instant.stamp.second 59 : Nat)
    rw [hsecond]
    omega

theorem lt_of_exists {date : Date} (h : date.exists? = true) :
    date.month < 100 ∧ date.day < 100 := by
  obtain ⟨-, hmonth, -, hday⟩ := Date.exists_iff.1 h
  have hlong := Date.daysInMonth_le date.year date.month
  omega

theorem toList_rfc3339 (instant : Instant) :
    instant.rfc3339.toList = yearText instant.stamp.date.year ++
      '-' :: (Text.padded 2 instant.stamp.date.month ++ '-' ::
      (Text.padded 2 instant.stamp.date.day ++ 'T' :: (Text.padded 2 instant.stamp.hour ++ ':' ::
      (Text.padded 2 instant.stamp.minute ++ ':' ::
      (Text.padded 2 instant.stamp.second ++ ['Z']))))) := by
  simp only [rfc3339, String.toList_ofList, characters, stamp, List.append_assoc,
    List.cons_append]

theorem writes_rfc3339 (instant : Instant) : Writes instant.rfc3339 instant.stamp := by
  obtain ⟨hdate, hhour, hminute, hsecond, -, -⟩ := isOf_stamp instant
  obtain ⟨hmonth, hday⟩ := lt_of_exists hdate
  have htwo : ∀ {number : Nat}, number < 100 → WritesNumber 2 number (Text.padded 2 number) :=
    fun h => writesNumber_padded (by decide) h
  exact ⟨_, _, _, _, _, _, toList_rfc3339 instant, writesYear_yearText _, htwo hmonth, htwo hday,
    htwo (by omega), htwo (by omega), htwo (by omega)⟩

/-! ## The order of texts -/

/-- A stamp comes before another one in the order of its fields. -/
def Stamp.Before (first second : Stamp) : Prop :=
  first.date.Before second.date ∨ first.date = second.date ∧
    (first.hour < second.hour ∨ first.hour = second.hour ∧
      (first.minute < second.minute ∨ first.minute = second.minute ∧
        first.second < second.second))

/-- One instant comes before another one. A leap second comes after the second that it has its
number from. -/
def Precedes (first second : Instant) : Prop :=
  first.seconds < second.seconds ∨
    first.seconds = second.seconds ∧ first.leap = false ∧ second.leap = true

theorem stamp_before_iff (first second : Instant) :
    first.stamp.Before second.stamp ↔ first.Precedes second := by
  have hdates : first.date.Before second.date ↔
      first.seconds / 86400 < second.seconds / 86400 := by
    rw [date, date, Date.before_iff_toDays_lt (Date.exists_ofDays _) (Date.exists_ofDays _),
      Date.toDays_ofDays, Date.toDays_ofDays, secondsPerDay]
  have hsame : first.date = second.date ↔ first.seconds / 86400 = second.seconds / 86400 := by
    constructor
    · intro h
      have hdays := congrArg Date.toDays h
      rwa [date, date, Date.toDays_ofDays, Date.toDays_ofDays] at hdays
    · intro h
      exact congrArg Date.ofDays h
  have hfirst := coe_secondOfDay first
  have hsecond := coe_secondOfDay second
  have hlast := first.leap_last
  have hlast' := second.leap_last
  simp only [Stamp.Before, stamp, hdates, hsame, Precedes]
  cases hleap : first.leap <;> cases hleap' : second.leap <;>
    simp only [hleap, hleap', if_true, if_false, Bool.false_eq_true, forall_const, false_implies,
      and_true, and_false, or_false, Nat.add_zero, reduceCtorEq] at hlast hlast' ⊢ <;> omega

theorem yearText_plain {year : Int} (hlow : 0 ≤ year) (hhigh : year ≤ 9999) :
    yearText year = Text.padded 4 year.natAbs := by
  rw [yearText, if_neg (by omega), if_pos hhigh]

/-- With four digits for the year, texts are ordered as their fields are. -/
theorem rfc3339_lt_iff {first second : Instant}
    (hfirst : 0 ≤ first.stamp.date.year ∧ first.stamp.date.year ≤ 9999)
    (hsecond : 0 ≤ second.stamp.date.year ∧ second.stamp.date.year ≤ 9999) :
    first.rfc3339 < second.rfc3339 ↔ first.stamp.Before second.stamp := by
  obtain ⟨hdate, hhour, hminute, hsec, -, -⟩ := isOf_stamp first
  obtain ⟨hdate', hhour', hminute', hsec', -, -⟩ := isOf_stamp second
  obtain ⟨hmonth, hday⟩ := lt_of_exists hdate
  obtain ⟨hmonth', hday'⟩ := lt_of_exists hdate'
  have hyear : first.stamp.date.year.natAbs < 10 ^ 4 := by omega
  have hyear' : second.stamp.date.year.natAbs < 10 ^ 4 := by omega
  have hfield : ∀ {number number' : Nat} {mark : Char} {rest rest' : List Char},
      number < 100 → number' < 100 →
      (Text.padded 2 number ++ mark :: rest < Text.padded 2 number' ++ mark :: rest' ↔
        number < number' ∨ number = number' ∧ rest < rest') := by
    intro number number' mark rest rest' h h'
    rw [Text.padded_append_lt_iff (by decide) h h', List.cons_lt_cons_self]
  rw [String.lt_iff, toList_rfc3339, toList_rfc3339, yearText_plain hfirst.1 hfirst.2,
    yearText_plain hsecond.1 hsecond.2, Text.padded_append_lt_iff (by decide) hyear hyear',
    List.cons_lt_cons_self, hfield hmonth hmonth', hfield hday hday',
    hfield (by omega) (by omega), hfield (by omega) (by omega), hfield (by omega) (by omega)]
  generalize first.stamp = stamp at *
  generalize second.stamp = stamp' at *
  have hyears : stamp.date.year.natAbs < stamp'.date.year.natAbs ↔
      stamp.date.year < stamp'.date.year := by omega
  have hsame : stamp.date.year.natAbs = stamp'.date.year.natAbs ↔
      stamp.date.year = stamp'.date.year := by omega
  obtain ⟨⟨year, month, day⟩, hour, minute, sec⟩ := stamp
  obtain ⟨⟨year', month', day'⟩, hour', minute', sec'⟩ := stamp'
  simp only [hyears, hsame, Stamp.Before, Date.Before, Date.mk.injEq, List.not_lt_nil, and_false,
    or_false]
  omega

/-! ## Accepted instants -/

/-- The second of an instant can be counted in nanoseconds, which only the last second of a minute
has more than a whole second of, and its year is one that an instant can have. -/
structure IsAccepted (seconds : Int) (nanoseconds : Nat) : Prop where
  nanoseconds_lt : nanoseconds < 2000000000
  leap_last : 1000000000 ≤ nanoseconds → seconds % 60 = 59
  year : ∃ date, IsDay (seconds / 86400) date ∧ -262143 ≤ date.year ∧ date.year ≤ 262142

theorem isInCalendar_iff (seconds : Int) : isInCalendar seconds = true ↔
    ∃ date, IsDay (seconds / 86400) date ∧ -262143 ≤ date.year ∧ date.year ≤ 262142 := by
  have hdays : (Date.ofDays (seconds / 86400)).toDays = seconds / 86400 := Date.toDays_ofDays _
  have hexists : (Date.ofDays (seconds / 86400)).exists? = true := Date.exists_ofDays _
  simp only [Date.isDay_iff, exists_eq_left]
  generalize Date.ofDays (seconds / 86400) = date at *
  obtain ⟨hlow, hhigh, hday, hlast⟩ := Date.exists_iff.1 hexists
  have hlong := Date.daysInMonth_le date.year date.month
  have hearly := Date.before_iff_toDays_lt hexists (show firstDate.exists? = true from rfl)
  have hlate := Date.before_iff_toDays_lt (show lastDate.exists? = true from rfl) hexists
  have hfirst : date.Before firstDate ↔ date.year < -262143 := by
    simp only [Date.Before, firstDate]
    omega
  have hend : lastDate.Before date ↔ 262142 < date.year := by
    simp only [Date.Before, lastDate]
    omega
  rw [isInCalendar, Bool.and_eq_true, decide_eq_true_eq, decide_eq_true_eq, secondsPerDay]
  rw [hfirst] at hearly
  rw [hend] at hlate
  omega

theorem make?_eq_some_iff {seconds : Int} {leap : Bool} {instant : Instant} :
    make? seconds leap = some instant ↔ instant.seconds = seconds ∧ instant.leap = leap := by
  unfold make?
  split
  · next h =>
    obtain ⟨other, otherLeap, _, _⟩ := instant
    simp only [Option.some.injEq, Instant.mk.injEq, eq_comm]
  · next h =>
    constructor
    · intro hnone
      cases hnone
    · rintro ⟨rfl, rfl⟩
      exact absurd ⟨instant.in_calendar, instant.leap_last⟩ h

theorem ofUnix?_eq_some_iff {seconds : Int} {nanoseconds : Nat} {instant : Instant} :
    ofUnix? seconds nanoseconds = some instant ↔ nanoseconds < 2000000000 ∧
      instant.seconds = seconds ∧ (instant.leap = true ↔ 1000000000 ≤ nanoseconds) := by
  unfold ofUnix?
  split
  · next h =>
    rw [make?_eq_some_iff, and_iff_right h, eq_comm (b := decide _), eq_comm (a := decide _),
      Bool.eq_iff_iff, decide_eq_true_eq]
  · next h =>
    constructor
    · intro hnone
      cases hnone
    · intro hsome
      exact absurd hsome.1 h

theorem isAccepted_iff (seconds : Int) (nanoseconds : Nat) :
    IsAccepted seconds nanoseconds ↔ ∃ instant, ofUnix? seconds nanoseconds = some instant := by
  constructor
  · rintro ⟨hnanoseconds, hlast, hyear⟩
    have hcalendar := (isInCalendar_iff seconds).2 hyear
    refine ⟨⟨seconds, decide (1000000000 ≤ nanoseconds), hcalendar, ?_⟩, ?_⟩
    · simpa using hlast
    · exact ofUnix?_eq_some_iff.2 ⟨hnanoseconds, rfl, decide_eq_true_iff⟩
  · rintro ⟨instant, hsome⟩
    obtain ⟨hnanoseconds, rfl, hleap⟩ := ofUnix?_eq_some_iff.1 hsome
    exact ⟨hnanoseconds, fun h => instant.leap_last (hleap.2 h),
      (isInCalendar_iff _).1 instant.in_calendar⟩

/-! ## Faithful texts -/

/-- What the text of an accepted second tells, alone and beside the texts of other ones. -/
structure IsFaithful (seconds : Int) (nanoseconds : Nat) (text : String) : Prop where
  /-- It can be read in one way, and what is read is the second. -/
  reads : ∃ stamp, (∀ other, Writes text other ↔ other = stamp) ∧
    stamp.IsOf seconds (1000000000 ≤ nanoseconds)
  /-- It is the text of no other second. -/
  same : ∀ seconds' nanoseconds' other, ofUnix? seconds' nanoseconds' = some other →
    (other.rfc3339 = text ↔ seconds' = seconds ∧
      (1000000000 ≤ nanoseconds' ↔ 1000000000 ≤ nanoseconds))
  /-- It is longer than twenty characters only if the year needs a sign. -/
  length : ∀ stamp, Writes text stamp →
    (text.length = 20 ↔ 0 ≤ stamp.date.year ∧ stamp.date.year ≤ 9999)
  /-- Among texts without a sign it stands where its second stands among the seconds. -/
  order : ∀ seconds' nanoseconds' other, ofUnix? seconds' nanoseconds' = some other →
    text.length = 20 → other.rfc3339.length = 20 →
      (text < other.rfc3339 ↔ seconds < seconds' ∨
        seconds = seconds' ∧ nanoseconds < 1000000000 ∧ 1000000000 ≤ nanoseconds')

theorem writes_iff (instant : Instant) (stamp : Stamp) :
    Writes instant.rfc3339 stamp ↔ stamp = instant.stamp := by
  constructor
  · intro h
    exact h.unique (writes_rfc3339 instant)
  · rintro rfl
    exact writes_rfc3339 instant

theorem eq_of_seconds_eq {first second : Instant} (hseconds : first.seconds = second.seconds)
    (hleap : first.leap = second.leap) : first = second := by
  obtain ⟨seconds, leap, _, _⟩ := first
  obtain rfl : seconds = _ := hseconds
  obtain rfl : leap = _ := hleap
  rfl

theorem rfc3339_inj {first second : Instant} (h : first.rfc3339 = second.rfc3339) :
    first = second := by
  have hread := read?_rfc3339 first
  rw [h, read?_rfc3339] at hread
  exact (Option.some.inj hread).symm

/-- A second is accepted exactly if its nanoseconds and its year allow it, and then its text is faithful. -/
theorem rfc3339_faithful (seconds : Int) (nanoseconds : Nat) :
    (IsAccepted seconds nanoseconds ↔ ∃ instant, ofUnix? seconds nanoseconds = some instant) ∧
      ∀ instant, ofUnix? seconds nanoseconds = some instant →
        IsFaithful seconds nanoseconds instant.rfc3339 := by
  refine ⟨isAccepted_iff seconds nanoseconds, fun instant hsome => ?_⟩
  obtain ⟨-, rfl, hleap⟩ := ofUnix?_eq_some_iff.1 hsome
  refine ⟨⟨instant.stamp, writes_iff instant, ?_⟩, ?_, fun stamp => Writes.length_eq_iff, ?_⟩
  · rw [← hleap]
    exact isOf_stamp instant
  · intro seconds' nanoseconds' other hother
    obtain ⟨-, rfl, hleap'⟩ := ofUnix?_eq_some_iff.1 hother
    rw [← hleap, ← hleap', ← Bool.eq_iff_iff]
    constructor
    · intro htext
      rw [rfc3339_inj htext]
      exact ⟨rfl, rfl⟩
    · rintro ⟨hseconds, hsame⟩
      rw [eq_of_seconds_eq hseconds hsame]
  · intro seconds' nanoseconds' other hother hlength hlength'
    obtain ⟨-, rfl, hleap'⟩ := ofUnix?_eq_some_iff.1 hother
    rw [rfc3339_lt_iff ((writes_rfc3339 instant).length_eq_iff.1 hlength)
      ((writes_rfc3339 other).length_eq_iff.1 hlength'), stamp_before_iff, Precedes, ← hleap',
      ← Nat.not_le, ← hleap, Bool.not_eq_true]

/-- A leap second, given as the second before it. -/
example : (ofUnix? 1483228799 1500000000).map rfc3339 = some "2016-12-31T23:59:60Z" := by
  rfl

end PreviewInstaller.Instant
