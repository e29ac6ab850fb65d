import Mathlib.Tactic.IntervalCases
import PreviewInstaller.Proofs.Instant

set_option autoImplicit false

/-! # The calendar

Day numbers are cut into eras, centuries and cycles that start in March, which nobody reads off a
calendar. Here the calendar is walked through instead: `next` is the day after a date, and `IsDay`
counts along it from the first of January 1970, in both directions. Main statement: the date of a day
number is the one that is reached by counting. The months are laid end to end for this, so that all
that has to be known of a month is how long it is. -/

namespace PreviewInstaller.Date

/-! ## Months end to end -/

/-- The number of a month, counted from March of year 0. -/
def monthNumber (year : Int) (month : Nat) : Int :=
  year * 12 + month - 3

/-- Days from the first of March of year 0 to the first of March of another year. -/
def yearStart (marchYear : Int) : Int :=
  marchYear * 365 + marchYear / 4 - marchYear / 100 + marchYear / 400

/-- Days from the first of March of year 0 to the first of the month with a number. -/
def monthStart (number : Int) : Int :=
  yearStart (number / 12) + daysBeforeMonth (number % 12).toNat

/-- A year that starts in March ends with the February of the next year. -/
theorem yearStart_eq (year : Int) :
    yearStart year = yearStart (year - 1) + daysBeforeMonth 11 + daysInMonth year 2 := by
  have hmonth : daysBeforeMonth 11 = 337 := rfl
  rw [hmonth, daysInMonth, if_pos rfl]
  unfold yearStart
  split
  · next hleap =>
    simp only [isLeapYear, Bool.and_eq_true, Bool.or_eq_true, decide_eq_true_eq] at hleap
    omega
  · next hcommon =>
    simp only [isLeapYear, Bool.and_eq_true, Bool.or_eq_true, decide_eq_true_eq, not_and_or,
      not_or] at hcommon
    omega

/-- The months of a year that starts in March, up to its last one. -/
theorem daysBeforeMonth_add_one (year : Int) {month index : Nat} (hlow : 1 ≤ month)
    (hhigh : month ≤ 12) (hne : month ≠ 2) (hindex : index = (month + 9) % 12) :
    daysBeforeMonth (index + 1) = daysBeforeMonth index + daysInMonth year month := by
  subst hindex
  interval_cases month
  all_goals first | rfl | exact absurd rfl hne

theorem monthStart_add_one {year : Int} {month : Nat} (hlow : 1 ≤ month) (hhigh : month ≤ 12) :
    monthStart (monthNumber year month + 1) =
      monthStart (monthNumber year month) + daysInMonth year month := by
  by_cases hfebruary : month = 2
  · subst hfebruary
    have hbefore : monthNumber year 2 / 12 = year - 1 ∧ monthNumber year 2 % 12 = 11 := by
      unfold monthNumber
      omega
    have hafter : (monthNumber year 2 + 1) / 12 = year ∧ (monthNumber year 2 + 1) % 12 = 0 := by
      omega
    rw [monthStart, monthStart, hbefore.1, hbefore.2, hafter.1, hafter.2, yearStart_eq year]
    have hmarch : (daysBeforeMonth (Int.toNat 0) : Int) = 0 := rfl
    have hlast : (Int.toNat 11) = 11 := rfl
    rw [hmarch, hlast]
    omega
  · -- any other month is followed by one of the same March year
    have hindex : (monthNumber year month % 12).toNat = (month + 9) % 12 := by
      unfold monthNumber
      omega
    have hafter : (monthNumber year month + 1) / 12 = monthNumber year month / 12 ∧
        ((monthNumber year month + 1) % 12).toNat = (monthNumber year month % 12).toNat + 1 := by
      unfold monthNumber
      omega
    rw [monthStart, monthStart, hafter.1, hafter.2,
      daysBeforeMonth_add_one year hlow hhigh hfebruary hindex]
    omega

theorem toDays_eq {date : Date} (hlow : 1 ≤ date.month) (hhigh : date.month ≤ 12) :
    date.toDays = monthStart (monthNumber date.year date.month) + date.day - 1 - epoch := by
  have hdays : (daysPerEra : Int) = 146097 := rfl
  unfold toDays monthStart yearStart
  by_cases hmonth : date.month ≤ 2
  · have hparts : monthNumber date.year date.month / 12 = date.year - 1 ∧
        (monthNumber date.year date.month % 12).toNat = date.month + 9 := by
      unfold monthNumber
      omega
    simp only [if_pos hmonth, hparts.1, hparts.2, hdays]
    omega
  · have hparts : monthNumber date.year date.month / 12 = date.year ∧
        (monthNumber date.year date.month % 12).toNat = date.month - 3 := by
      unfold monthNumber
      omega
    simp only [if_neg hmonth, hparts.1, hparts.2, hdays]
    omega

theorem daysInMonth_pos (year : Int) (month : Nat) : 0 < daysInMonth year month := by
  unfold daysInMonth
  repeat' split
  all_goals decide

theorem daysInMonth_le (year : Int) (month : Nat) : daysInMonth year month ≤ 31 := by
  unfold daysInMonth
  repeat' split
  all_goals decide

theorem monthStart_lt_add_one (number : Int) : monthStart number < monthStart (number + 1) := by
  have hnumber : number = monthNumber ((number + 2) / 12) ((number + 2) % 12 + 1).toNat := by
    unfold monthNumber
    omega
  have hpos := daysInMonth_pos ((number + 2) / 12) ((number + 2) % 12 + 1).toNat
  rw [hnumber, monthStart_add_one (by omega) (by omega)]
  omega

/-- A later month starts later. -/
theorem monthStart_mono {first second : Int} (h : first ≤ second) :
    monthStart first ≤ monthStart second := by
  obtain ⟨count, hcount⟩ := Int.eq_ofNat_of_zero_le (Int.sub_nonneg_of_le h)
  obtain rfl : second = first + count := by omega
  clear h hcount
  induction count with
  | zero => exact Int.le_of_eq (congrArg monthStart (Int.add_zero first).symm)
  | succ count ih =>
    have hnext := monthStart_lt_add_one (first + count)
    rw [Int.natCast_succ, ← Int.add_assoc]
    omega

/-! ## The order of dates -/

/-- A date comes before another one in the order of years, months and days. -/
def Before (first second : Date) : Prop :=
  first.year < second.year ∨ first.year = second.year ∧
    (first.month < second.month ∨ first.month = second.month ∧ first.day < second.day)

theorem eq_or_before (first second : Date) :
    first = second ∨ first.Before second ∨ second.Before first := by
  obtain ⟨year, month, day⟩ := first
  obtain ⟨year', month', day'⟩ := second
  simp only [Before, Date.mk.injEq]
  omega

theorem exists_iff {date : Date} : date.exists? = true ↔
    1 ≤ date.month ∧ date.month ≤ 12 ∧ 1 ≤ date.day ∧
      date.day ≤ daysInMonth date.year date.month := by
  simp only [exists?, Bool.and_eq_true, decide_eq_true_eq, and_assoc]

theorem toDays_lt_of_before {first second : Date} (hfirst : first.exists? = true)
    (hsecond : second.exists? = true) (h : first.Before second) :
    first.toDays < second.toDays := by
  obtain ⟨hlow, hhigh, hday, hlast⟩ := exists_iff.1 hfirst
  obtain ⟨hlow', hhigh', hday', hlast'⟩ := exists_iff.1 hsecond
  rw [toDays_eq hlow hhigh, toDays_eq hlow' hhigh']
  have hmonths : monthNumber first.year first.month < monthNumber second.year second.month ∨
      first.year = second.year ∧ first.month = second.month ∧ first.day < second.day := by
    unfold monthNumber
    rcases h with h | ⟨h, h' | h'⟩ <;> omega
  rcases hmonths with hless | ⟨hyear, hmonth, hless⟩
  · -- the first month is over when the second one starts
    have hover := monthStart_mono (Int.add_one_le_of_lt hless)
    rw [monthStart_add_one hlow hhigh] at hover
    omega
  · rw [hyear, hmonth]
    omega

theorem before_iff_toDays_lt {first second : Date} (hfirst : first.exists? = true)
    (hsecond : second.exists? = true) : first.Before second ↔ first.toDays < second.toDays := by
  refine ⟨toDays_lt_of_before hfirst hsecond, fun hless => ?_⟩
  rcases eq_or_before first second with rfl | hbefore | hafter
  · exact absurd hless (Int.lt_irrefl _)
  · exact hbefore
  · have hmore := toDays_lt_of_before hsecond hfirst hafter
    omega

/-- Two dates that exist are not the same day. -/
theorem eq_of_toDays_eq {first second : Date} (hfirst : first.exists? = true)
    (hsecond : second.exists? = true) (h : first.toDays = second.toDays) : first = second := by
  rcases eq_or_before first second with heq | hbefore | hafter
  · exact heq
  · have hless := toDays_lt_of_before hfirst hsecond hbefore
    omega
  · have hmore := toDays_lt_of_before hsecond hfirst hafter
    omega

theorem ofDays_toDays {date : Date} (h : date.exists? = true) : ofDays date.toDays = date :=
  eq_of_toDays_eq (exists_ofDays _) h (toDays_ofDays _)

/-! ## Counting days -/

/-- The day after a date. -/
def next (date : Date) : Date :=
  if date.day < daysInMonth date.year date.month then { date with day := date.day + 1 }
  else if date.month < 12 then ⟨date.year, date.month + 1, 1⟩
  else ⟨date.year + 1, 1, 1⟩

theorem next_spec {date : Date} (h : date.exists? = true) :
    date.next.exists? = true ∧ date.next.toDays = date.toDays + 1 := by
  obtain ⟨hlow, hhigh, hday, hlast⟩ := exists_iff.1 h
  have hstart := @monthStart_add_one date.year date.month hlow hhigh
  have hdate := toDays_eq hlow hhigh
  unfold next
  split
  · next hless =>
    have hnext := @toDays_eq ⟨date.year, date.month, date.day + 1⟩ hlow hhigh
    refine ⟨exists_iff.2 ⟨hlow, hhigh, Nat.succ_pos _, hless⟩, ?_⟩
    simp only at hnext
    omega
  split
  · next hmore hmonth =>
    have hnext := @toDays_eq ⟨date.year, date.month + 1, 1⟩ (Nat.succ_pos _) hmonth
    have hnumber : monthNumber date.year (date.month + 1) =
        monthNumber date.year date.month + 1 := by
      unfold monthNumber
      omega
    refine ⟨exists_iff.2 ⟨Nat.succ_pos _, hmonth, Nat.le_refl 1, daysInMonth_pos _ _⟩, ?_⟩
    simp only [hnumber] at hnext
    omega
  · next hmore hmonth =>
    have hnext := @toDays_eq ⟨date.year + 1, 1, 1⟩ (Nat.le_refl 1) (by simp)
    have hnumber : monthNumber (date.year + 1) 1 = monthNumber date.year date.month + 1 := by
      unfold monthNumber
      omega
    refine ⟨exists_iff.2 ⟨Nat.le_refl 1, by simp, Nat.le_refl 1, daysInMonth_pos _ _⟩, ?_⟩
    simp only [hnumber] at hnext
    omega

/-- The number of a day and its date, counted along the calendar. -/
inductive IsDay : Int → Date → Prop where
  | epoch : IsDay 0 ⟨1970, 1, 1⟩
  | next {days : Int} {date : Date} (h : IsDay days date) : IsDay (days + 1) date.next
  | previous {days : Int} {date : Date} (hexists : date.exists? = true)
      (h : IsDay (days + 1) date.next) : IsDay days date

theorem IsDay.toDays_eq {days : Int} {date : Date} (h : IsDay days date) :
    date.exists? = true ∧ date.toDays = days := by
  induction h with
  | epoch => exact ⟨rfl, rfl⟩
  | next _ ih =>
    obtain ⟨hexists, hdays⟩ := ih
    exact ⟨(next_spec hexists).1, by rw [(next_spec hexists).2, hdays]⟩
  | previous hexists _ ih =>
    have hdays := (next_spec hexists).2
    exact ⟨hexists, by omega⟩

theorem next_ofDays (days : Int) : (ofDays days).next = ofDays (days + 1) := by
  obtain ⟨hexists, hdays⟩ := next_spec (exists_ofDays days)
  refine eq_of_toDays_eq hexists (exists_ofDays _) ?_
  rw [hdays, toDays_ofDays, toDays_ofDays]

theorem isDay_ofDays (days : Int) : IsDay days (ofDays days) := by
  induction days with
  | zero => exact .epoch
  | succ count ih => exact next_ofDays _ ▸ ih.next
  | pred count ih =>
    refine .previous (exists_ofDays _) ?_
    rw [next_ofDays, Int.sub_add_cancel]
    exact ih

/-- The date of a day is the one that counting days leads to. -/
theorem isDay_iff {days : Int} {date : Date} : IsDay days date ↔ date = ofDays days := by
  constructor
  · intro h
    obtain ⟨hexists, hdays⟩ := h.toDays_eq
    rw [← hdays, ofDays_toDays hexists]
  · rintro rfl
    exact isDay_ofDays days

end PreviewInstaller.Date
