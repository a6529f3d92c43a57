import Prepaid.Time.Calendar

/-!
# The calendar and its days

Every number of days has a date, that date is in the calendar, and it is counted back to
the same number. A day is found in three steps: its era of 400 years, the year of the era
and the day of that year, both counted from March, and the month.
-/

namespace Prepaid.Date

/-! ## Years of an era -/

/-- The year, counted from March, that a day of an era is in. -/
def yearOfEra (day : Int) : Int :=
  (day - day / 1460 + day / 36524 - day / 146096) / 365

/-- How many days of its year, counted from March, are before a day of an era. -/
def dayOfYear (day : Int) : Int :=
  day - (365 * yearOfEra day + yearOfEra day / 4 - yearOfEra day / 100)

section Era

variable {day : Int} (first : 0 ≤ day) (last : day < 146097)

include first last

/-- An era has four hundred years. -/
theorem yearOfEra_bounds : 0 ≤ yearOfEra day ∧ yearOfEra day < 400 := by
  unfold yearOfEra
  omega

/-- The last day of an era belongs to its fourth century. -/
theorem century_yearOfEra : yearOfEra day / 100 = day / 36524 - day / 146096 := by
  -- Within one span of 36524 days the quotients that make up the year are linear in the day.
  have spans : day / 36524 = 0 ∨ day / 36524 = 1 ∨ day / 36524 = 2 ∨ day / 36524 = 3 ∨
      day / 36524 = 4 := by
    omega
  unfold yearOfEra
  rcases spans with span | span | span | span | span <;> rw [span] <;> omega

/-- Spans of four common years run ahead of the leap days by one at most. -/
theorem leaps_yearOfEra :
    yearOfEra day / 4 ≤ day / 1460 ∧ day / 1460 ≤ yearOfEra day / 4 + 1 := by
  have century := century_yearOfEra first last
  have bounds := yearOfEra_bounds first last
  unfold yearOfEra at *
  omega

/-- A year has 366 days at most. -/
theorem dayOfYear_bounds : 0 ≤ dayOfYear day ∧ dayOfYear day ≤ 365 := by
  have century := century_yearOfEra first last
  have bounds := yearOfEra_bounds first last
  have leaps := leaps_yearOfEra first last
  unfold dayOfYear yearOfEra at *
  omega

/-- Only a year with a leap day at its end has 366 days. -/
theorem isLeapYear_of_dayOfYear (era : Int) (long : dayOfYear day = 365) :
    isLeapYear (era * 400 + yearOfEra day + 1) = true := by
  have century := century_yearOfEra first last
  have bounds := yearOfEra_bounds first last
  have leaps := leaps_yearOfEra first last
  have ends : yearOfEra day % 4 = 3 ∧ (yearOfEra day % 100 = 99 → yearOfEra day = 399) := by
    unfold dayOfYear yearOfEra at *
    omega
  simp only [isLeapYear, Bool.and_eq_true, Bool.or_eq_true, decide_eq_true_eq]
  omega

end Era

/-! ## Months of a year -/

/-- The month of a day of the year, counted from March. -/
def monthFromMarch (dayOfYear : Nat) : Nat :=
  (5 * dayOfYear + 2) / 153

/-- The number of the month of a day of the year. -/
def monthOf (dayOfYear : Nat) : Nat :=
  if monthFromMarch dayOfYear < 10 then monthFromMarch dayOfYear + 3
    else monthFromMarch dayOfYear - 9

/-- The day of the month of a day of the year. -/
def dayOf (dayOfYear : Nat) : Nat :=
  dayOfYear - (153 * monthFromMarch dayOfYear + 2) / 5 + 1

/-- What holds of the month and the day that a day of the year is given. -/
structure InMonth (dayOfYear : Nat) : Prop where
  month : 1 ≤ monthOf dayOfYear ∧ monthOf dayOfYear ≤ 12
  day : 1 ≤ dayOf dayOfYear
  counted : (153 * ((monthOf dayOfYear + 9) % 12) + 2) / 5 + dayOf dayOfYear - 1 = dayOfYear
  common : dayOfYear < 365 → dayOf dayOfYear ≤ monthLength 1 (monthOf dayOfYear)
  leapDay : dayOfYear = 365 → monthOf dayOfYear = 2 ∧ dayOf dayOfYear = 29

/-- Every day of a year is in a month. -/
theorem inMonth {dayOfYear : Nat} (last : dayOfYear ≤ 365) : InMonth dayOfYear := by
  have each : ∀ dayOfYear ≤ 365,
      (1 ≤ monthOf dayOfYear ∧ monthOf dayOfYear ≤ 12) ∧ 1 ≤ dayOf dayOfYear ∧
        (153 * ((monthOf dayOfYear + 9) % 12) + 2) / 5 + dayOf dayOfYear - 1 = dayOfYear ∧
        (dayOfYear < 365 → dayOf dayOfYear ≤ monthLength 1 (monthOf dayOfYear)) ∧
        (dayOfYear = 365 → monthOf dayOfYear = 2 ∧ dayOf dayOfYear = 29) := by
    decide +kernel
  obtain ⟨month, day, counted, common, leapDay⟩ := each dayOfYear last
  exact ⟨month, day, counted, common, leapDay⟩

/-- No month is shorter in a leap year. -/
theorem monthLength_common_le (year : Int) (month : Nat) :
    monthLength 1 month ≤ monthLength year month := by
  have common : isLeapYear 1 = false := by decide
  unfold monthLength
  split
  · rw [common]
    cases isLeapYear year <;> decide
  all_goals exact Nat.le_refl _

/-- No month has more than 31 days. -/
theorem monthLength_le (year : Int) (month : Nat) : monthLength year month ≤ 31 := by
  unfold monthLength
  split
  · split <;> decide
  all_goals decide

/-! ## Dates of days -/

/-- The day of its era that a number of days falls on. -/
def dayOfEra (days : Int) : Int :=
  (days + 719468) % 146097

/-- An era has 146097 days. -/
theorem dayOfEra_bounds (days : Int) : 0 ≤ dayOfEra days ∧ dayOfEra days < 146097 := by
  unfold dayOfEra
  omega

/-- A date is put together from the era and the day of its year. -/
theorem ofDays_eq (days : Int) :
    ofDays days =
      let year := (days + 719468) / 146097 * 400 + yearOfEra (dayOfEra days)
      let dayOfYear := (dayOfYear (dayOfEra days)).toNat
      { year := year + if monthOf dayOfYear ≤ 2 then 1 else 0
        month := monthOf dayOfYear
        day := dayOf dayOfYear } := rfl

/-- Every day has a date. -/
theorem exists?_ofDays (days : Int) : (ofDays days).exists? = true := by
  obtain ⟨first, last⟩ := dayOfEra_bounds days
  obtain ⟨nonneg, short⟩ := dayOfYear_bounds first last
  have found : InMonth (dayOfYear (dayOfEra days)).toNat := inMonth (by omega)
  have fits : (ofDays days).day ≤ monthLength (ofDays days).year (ofDays days).month := by
    rw [ofDays_eq]
    by_cases leap : dayOfYear (dayOfEra days) = 365
    · obtain ⟨february, leapDay⟩ := found.leapDay (by omega)
      have long := isLeapYear_of_dayOfYear first last ((days + 719468) / 146097) leap
      simp [february, leapDay, monthLength, long]
    · exact Nat.le_trans (found.common (by omega)) (monthLength_common_le ..)
  simp only [exists?, Bool.and_eq_true, decide_eq_true_eq]
  exact ⟨⟨found.month, found.day⟩, fits⟩

/-- The date of a number of days is that many days away. -/
@[simp] theorem toDays_ofDays (days : Int) : (ofDays days).toDays = days := by
  obtain ⟨first, last⟩ := dayOfEra_bounds days
  obtain ⟨nonneg, short⟩ := dayOfYear_bounds first last
  obtain ⟨yearNonneg, yearLast⟩ := yearOfEra_bounds first last
  have found : InMonth (dayOfYear (dayOfEra days)).toNat := inMonth (by omega)
  have year : (if (ofDays days).month ≤ 2 then (ofDays days).year - 1 else (ofDays days).year) =
      (days + 719468) / 146097 * 400 + yearOfEra (dayOfEra days) := by
    rw [ofDays_eq]
    dsimp only
    split <;> omega
  have era : ((days + 719468) / 146097 * 400 + yearOfEra (dayOfEra days)) / 400 =
      (days + 719468) / 146097 := by
    omega
  have ofEra : ((days + 719468) / 146097 * 400 + yearOfEra (dayOfEra days)) % 400 =
      yearOfEra (dayOfEra days) := by
    omega
  have whole : days + 719468 = (days + 719468) / 146097 * 146097 + dayOfEra days := by
    unfold dayOfEra
    omega
  have parts : dayOfEra days = 365 * yearOfEra (dayOfEra days) + yearOfEra (dayOfEra days) / 4 -
      yearOfEra (dayOfEra days) / 100 + dayOfYear (dayOfEra days) := by
    unfold dayOfYear
    omega
  rw [toDays, year]
  dsimp only [ofDays_eq]
  rw [found.counted, era, ofEra]
  omega

end Prepaid.Date
