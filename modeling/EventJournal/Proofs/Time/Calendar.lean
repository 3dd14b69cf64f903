import EventJournal.Time.Calendar
import Mathlib.Tactic.IntervalCases

/-!
# The calendar

A day has one date. Years are counted in eras of 400, which have 146097 days each, and begin in March, so that
the day of a year tells its month and its day whatever year it is; only the last day of a year may be missing.

* `Date.year_of_day` — the year of a day within its era is the one whose days it is among.
* `Date.ofDays_spec` — how the date of a day is put together.
* `Date.toDays_ofDays` and `Date.isValid_ofDays` — the date of a day exists and is that of no other day.
-/

namespace EventJournal.Date

/-! ## Years of an era -/

/-- The days of an era before one of its years. -/
def daysBefore (year : Int) : Int := 365 * year + year / 4 - year / 100

/-- A day of an era is counted in the century of its year; the last day of an era is one too many for its
century. -/
theorem century_of_day {day year : Int} (low : 0 ≤ day) (high : day ≤ 146096)
    (h : year = (day - day / 1460 + day / 36524 - day / 146096) / 365) :
    day / 36524 = year / 100 ∨ day = 146096 ∧ year = 399 := by
  have hcentury : day / 36524 = 0 ∨ day / 36524 = 1 ∨ day / 36524 = 2 ∨ day / 36524 = 3 ∨
      day = 146096 := by omega
  rcases hcentury with hc | hc | hc | hc | hc
  all_goals omega

/-- The year of a day within its era is the one whose days it is among. -/
theorem year_of_day {day year : Int} (low : 0 ≤ day) (high : day ≤ 146096)
    (h : year = (day - day / 1460 + day / 36524 - day / 146096) / 365) :
    0 ≤ year ∧ year ≤ 399 ∧ daysBefore year ≤ day ∧
      day < daysBefore (year + 1) + (year + 1) / 400 := by
  unfold daysBefore
  rcases century_of_day low high h with hcentury | ⟨rfl, rfl⟩
  · refine ⟨by omega, by omega, by omega, ?_⟩
    -- the next year may begin a century, or else only the place among four years matters
    by_cases hlast : (year + 1) % 100 = 0
    · have hnext : (year + 1) / 100 = year / 100 + 1 := by omega
      have hfour : (year + 1) / 4 = year / 4 + 1 := by omega
      omega
    · have hnext : (year + 1) / 100 = year / 100 := by omega
      have hera : (year + 1) / 400 = 0 := by omega
      have hday : day / 146096 = 0 := by omega
      rw [hday] at h
      have hfour : year % 4 = 0 ∨ year % 4 = 1 ∨ year % 4 = 2 ∨ year % 4 = 3 := by omega
      rcases hfour with hf | hf | hf | hf
      all_goals omega
  · decide

/-- A year has 366 days at most. -/
theorem daysBefore_succ_le {year : Int} (low : 0 ≤ year) (high : year ≤ 399) :
    daysBefore (year + 1) + (year + 1) / 400 ≤ daysBefore year + 366 := by
  unfold daysBefore
  omega

/-- The last day of a year that begins in March is that of a leap year. -/
theorem leap_of_last_day {year day : Int} (era : Int) (low : 0 ≤ year) (high : year ≤ 399)
    (last : day = daysBefore year + 365) (within : day < daysBefore (year + 1) + (year + 1) / 400) :
    isLeap (year + era * 400 + 1) = true := by
  unfold daysBefore at last within
  have hfour : (year + 1) % 4 = 0 := by omega
  have hcentury : (year + 1) % 100 ≠ 0 ∨ (year + 1) % 400 = 0 := by omega
  have hfour' : (year + era * 400 + 1).emod 4 = 0 := by
    show (year + era * 400 + 1) % 4 = 0
    omega
  have hcentury' : (year + era * 400 + 1).emod 100 ≠ 0 ∨ (year + era * 400 + 1).emod 400 = 0 := by
    show (year + era * 400 + 1) % 100 ≠ 0 ∨ (year + era * 400 + 1) % 400 = 0
    omega
  simpa [isLeap, hfour'] using hcentury'

/-! ## Days of a year -/

/-- The date of a day of a year that begins in March. -/
def ofMarch (year day : Int) : Date :=
  let month := (5 * day + 2) / 153
  ⟨year + (if month < 10 then 0 else 1), (if month < 10 then month + 3 else month - 9).toNat,
    (day - (153 * month + 2) / 5 + 1).toNat⟩

/-- How the date of a day is put together: from its era, the year in the era and the day in the year. -/
theorem ofDays_spec (days : Int) : ∃ era year day : Int,
    days + 719468 = era * 146097 + daysBefore year + day ∧ 0 ≤ year ∧ year ≤ 399 ∧
      0 ≤ day ∧ day ≤ 365 ∧ (day = 365 → isLeap (year + era * 400 + 1) = true) ∧
      ofDays days = ofMarch (year + era * 400) day := by
  obtain ⟨era, hera⟩ : ∃ era, era = (days + 719468) / 146097 := ⟨_, rfl⟩
  obtain ⟨dayOfEra, hday⟩ : ∃ dayOfEra, dayOfEra = days + 719468 - era * 146097 := ⟨_, rfl⟩
  obtain ⟨year, hyear⟩ : ∃ year,
      year = (dayOfEra - dayOfEra / 1460 + dayOfEra / 36524 - dayOfEra / 146096) / 365 := ⟨_, rfl⟩
  obtain ⟨hpos, hmax, hfrom, hbefore⟩ := year_of_day (by omega) (by omega) hyear
  have hlength := daysBefore_succ_le hpos hmax
  refine ⟨era, year, dayOfEra - daysBefore year, by omega, hpos, hmax, by omega, by omega,
    fun hlast => leap_of_last_day era hpos hmax (by omega) hbefore, ?_⟩
  have hdiv : Int.fdiv (days + 719468) 146097 = era := by
    rw [Int.fdiv_eq_ediv_of_nonneg _ (by decide), hera]
  simp only [ofDays, hdiv, ← hday, ← hyear]
  obtain ⟨month, hmonth⟩ : ∃ month, month = (5 * (dayOfEra - daysBefore year) + 2) / 153 := ⟨_, rfl⟩
  have hcivil : (if (if month < 10 then month + 3 else month - 9) ≤ 2 then 1 else 0) =
      (if month < 10 then 0 else 1 : Int) := by
    split <;> split <;> omega
  subst hmonth
  exact congrArg (fun more => (⟨year + era * 400 + more, _, _⟩ : Date)) hcivil

/-- The day of a date counts from the start of its era. -/
theorem toDays_ofMarch {year day : Int} (era : Int) (low : 0 ≤ year) (high : year ≤ 399) (first : 0 ≤ day)
    (upto : day ≤ 365) :
    (ofMarch (year + era * 400) day).toDays = era * 146097 + daysBefore year + day - 719468 := by
  have hfdiv (y : Int) : Int.fdiv y 400 = y / 400 := Int.fdiv_eq_ediv_of_nonneg _ (by decide)
  obtain ⟨month, hmonth⟩ : ∃ month, month = (5 * day + 2) / 153 := ⟨_, rfl⟩
  have hera : (year + era * 400) / 400 = era := by omega
  have hyear : year + era * 400 - era * 400 = year := by omega
  simp only [ofMarch, toDays, daysBefore, hfdiv, ← hmonth]
  by_cases hwrap : month < 10
  · have hearly : ¬ (month + 3).toNat ≤ 2 := by omega
    have hback : (((month + 3).toNat : Int) + 9) % 12 = month := by omega
    simp only [hwrap, if_true, hearly, if_false, Int.add_zero, hera, hyear, hback]
    omega
  · have hlate : (month - 9).toNat ≤ 2 := by omega
    have hback : (((month - 9).toNat : Int) + 9) % 12 = month := by omega
    simp only [hwrap, if_false, hlate, if_true, Int.add_sub_cancel, hera, hyear, hback]
    omega

/-- The calendar has the date of a day of a year, which may be its last one if the next year is leap. -/
theorem isValid_ofMarch {year day : Int} (first : 0 ≤ day) (upto : day ≤ 365)
    (leap : day = 365 → isLeap (year + 1) = true) : (ofMarch year day).isValid = true := by
  obtain ⟨month, hmonth⟩ : ∃ month, month = (5 * day + 2) / 153 := ⟨_, rfl⟩
  simp only [isValid, ofMarch, ← hmonth]
  rcases (by omega : month < 11 ∨ month = 11) with hm | rfl
  · have hm0 : 0 ≤ month := by omega
    interval_cases month
    all_goals simp [daysInMonth]
    all_goals omega
  · -- in February the last day is in doubt
    by_cases hleap : isLeap (year + 1) = true
    · simp [daysInMonth, hleap]
      omega
    · have hday : day ≠ 365 := fun hlast => hleap (leap hlast)
      simp [daysInMonth, hleap]
      omega

/-- The day of the date of a day is that day. -/
theorem toDays_ofDays (days : Int) : (ofDays days).toDays = days := by
  obtain ⟨era, year, day, hdays, hpos, hmax, hfirst, hlast, -, hdate⟩ := ofDays_spec days
  rw [hdate, toDays_ofMarch era hpos hmax hfirst hlast]
  omega

/-- The date of a day exists. -/
theorem isValid_ofDays (days : Int) : (ofDays days).isValid = true := by
  obtain ⟨era, year, day, -, -, -, hfirst, hlast, hleap, hdate⟩ := ofDays_spec days
  rw [hdate]
  exact isValid_ofMarch hfirst hlast hleap

theorem bounds_of_isValid {date : Date} (h : date.isValid = true) :
    1 ≤ date.month ∧ date.month ≤ 12 ∧ 1 ≤ date.day ∧ date.day ≤ 31 := by
  have hlength : daysInMonth date.year date.month ≤ 31 := by
    unfold daysInMonth
    split <;> (try split) <;> omega
  simp only [isValid, Bool.and_eq_true, decide_eq_true_eq] at h
  omega

end EventJournal.Date
