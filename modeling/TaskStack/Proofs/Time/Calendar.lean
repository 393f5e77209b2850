import Mathlib.Tactic.IntervalCases
import Mathlib.Tactic.NormNum
import TaskStack.Time.Instant

/-!
# Days and dates

Days are counted in eras of 400 years that are counted from March. An era has 146097 days, whichever
it is. Where a day stands in its year comes from its era alone (`InYear`), and there are 366 days in
a year at most, the last of them a leap day; the month comes from the day in its year.

* `inYear`: the year in an era, and the day in the year.
* `Date.toDays_ofDays`: the day of a date is the day that it was made of.
* `Date.valid_ofDays`: a date that was made of a day is one of the calendar.
-/

namespace TaskStack.Instant

/-- Where a day of an era stands in its year: an era has 400 years, counted from March. -/
structure InYear (dayOfEra yearOfEra dayOfYear : Int) : Prop where
  day : dayOfEra = 365 * yearOfEra + yearOfEra / 4 - yearOfEra / 100 + dayOfYear
  year_nonneg : 0 ≤ yearOfEra
  year_lt : yearOfEra < 400
  nonneg : 0 ≤ dayOfYear
  le : dayOfYear ≤ 365
  leap : dayOfYear = 365 → (yearOfEra + 1) % 4 = 0 ∧ ((yearOfEra + 1) % 100 ≠ 0 ∨ yearOfEra = 399)

theorem inYear {doe yoe doy : Int} (h0 : 0 ≤ doe) (h1 : doe < 146097)
    (hy : yoe = (doe - doe / 1460 + doe / 36524 - doe / 146096) / 365)
    (hdoy : doy = doe - (365 * yoe + yoe / 4 - yoe / 100)) : InYear doe yoe doy := by
  -- in a century the leap years are evenly spaced, so each is looked at by itself
  have hd : doe / 36524 = 0 ∨ doe / 36524 = 1 ∨ doe / 36524 = 2 ∨ doe / 36524 = 3 ∨
    doe / 36524 = 4 := by omega
  have hr : 0 ≤ yoe ∧ yoe < 400 := by omega
  have hg : yoe / 100 = 0 ∨ yoe / 100 = 1 ∨ yoe / 100 = 2 ∨ yoe / 100 = 3 := by omega
  have hbounds : 0 ≤ doy ∧ doy ≤ 365 := by
    rcases hd with hd | hd | hd | hd | hd <;> rcases hg with hg | hg | hg | hg <;> omega
  refine ⟨by omega, hr.1, hr.2, hbounds.1, hbounds.2, fun hlast => ?_⟩
  have hfour : (yoe + 1) % 4 = 0 := by
    by_contra hnot
    have hm : yoe % 4 = 0 ∨ yoe % 4 = 1 ∨ yoe % 4 = 2 := by omega
    have hday : doe = 365 * (yoe + 1) + yoe / 4 - yoe / 100 := by omega
    have hquarter : doe / 1460 = yoe / 4 := by omega
    have hcentury : yoe / 100 ≤ doe / 36524 := by omega
    have hera : doe / 146096 = 0 := by omega
    omega
  refine ⟨hfour, ?_⟩
  by_contra hnot
  have hday : doe = 365 * (yoe + 1) + yoe / 4 - yoe / 100 := by omega
  rcases hg with hg | hg | hg | hg <;> omega

namespace Date

/-- A date from a year that is counted from March, and a day in it. -/
def ofYear (year : Int) (dayOfYear : Nat) : Date :=
  let shifted := (5 * dayOfYear + 2) / 153
  let day := dayOfYear - (153 * shifted + 2) / 5 + 1
  let month := if shifted < 10 then shifted + 3 else shifted - 9
  ⟨year + (if month ≤ 2 then 1 else 0), month, day⟩

theorem exists_ofYear (days : Int) : ∃ (era yearOfEra : Int) (dayOfYear : Nat),
    InYear (days + 719468 - era * 146097) yearOfEra dayOfYear ∧
      ofDays days = ofYear (yearOfEra + era * 400) dayOfYear := by
  have hera := Int.emod_add_mul_ediv (days + 719468) 146097
  have h0 : 0 ≤ (days + 719468) % 146097 := by omega
  have h1 : (days + 719468) % 146097 < 146097 := by omega
  have hinYear := inYear h0 h1 rfl rfl
  refine ⟨(days + 719468) / 146097, _, _, ?_, rfl⟩
  rw [Int.toNat_of_nonneg hinYear.nonneg]
  have hsame : days + 719468 - (days + 719468) / 146097 * 146097 =
      (days + 719468) % 146097 := by omega
  rw [hsame]
  exact hinYear

section

variable (year : Int) {dayOfYear : Nat}

/-- Months are counted from March as years are. -/
theorem month_ofYear (h : dayOfYear ≤ 365) :
    ((ofYear year dayOfYear).month + 9) % 12 = (5 * dayOfYear + 2) / 153 := by
  simp only [ofYear]
  split <;> omega

theorem month_ofYear_bounds (h : dayOfYear ≤ 365) :
    1 ≤ (ofYear year dayOfYear).month ∧ (ofYear year dayOfYear).month ≤ 12 := by
  simp only [ofYear]
  split <;> omega

theorem year_ofYear : (if (ofYear year dayOfYear).month ≤ 2 then (ofYear year dayOfYear).year - 1
    else (ofYear year dayOfYear).year) = year := by
  simp only [ofYear]
  split_ifs <;> omega

theorem day_ofYear : (ofYear year dayOfYear).day +
    (153 * ((5 * dayOfYear + 2) / 153) + 2) / 5 = dayOfYear + 1 := by
  simp only [ofYear]
  omega

theorem toDays_ofYear {era yearOfEra : Int} (h : dayOfYear ≤ 365) (h0 : 0 ≤ yearOfEra)
    (h1 : yearOfEra < 400) : (ofYear (yearOfEra + era * 400) dayOfYear).toDays =
      era * 146097 + (yearOfEra * 365 + yearOfEra / 4 - yearOfEra / 100 + dayOfYear) - 719468 := by
  have hmonth : (((ofYear (yearOfEra + era * 400) dayOfYear).month : Int) + 9) % 12 =
      (5 * dayOfYear + 2) / 153 := by
    exact_mod_cast month_ofYear (yearOfEra + era * 400) h
  have hera : (yearOfEra + era * 400) / 400 = era := by omega
  have hyear : (yearOfEra + era * 400) % 400 = yearOfEra := by omega
  have hday : ((ofYear (yearOfEra + era * 400) dayOfYear).day : Int) =
      dayOfYear + 1 - (153 * ((5 * dayOfYear + 2) / 153) + 2) / 5 :=
    eq_sub_of_add_eq (by exact_mod_cast day_ofYear (yearOfEra + era * 400))
  simp only [toDays, year_ofYear, hmonth, hera, hyear, hday]
  omega

end

/-- **The day of a date is the day that it was made of.** -/
theorem toDays_ofDays (days : Int) : (ofDays days).toDays = days := by
  obtain ⟨era, yearOfEra, dayOfYear, h, hdate⟩ := exists_ofYear days
  have hle : dayOfYear ≤ 365 := Int.ofNat_le.1 h.le
  have hday := h.day
  rw [hdate, toDays_ofYear hle h.year_nonneg h.year_lt]
  omega

/-- The leap day comes last, so only a leap year has as many days. -/
theorem day_ofYear_le {era yearOfEra : Int} {dayOfYear : Nat} {dayOfEra : Int}
    (h : InYear dayOfEra yearOfEra dayOfYear) :
    (ofYear (yearOfEra + era * 400) dayOfYear).day ≤
      daysInMonth (ofYear (yearOfEra + era * 400) dayOfYear).year
        (ofYear (yearOfEra + era * 400) dayOfYear).month := by
  have hle : dayOfYear ≤ 365 := Int.ofNat_le.1 h.le
  have hleap : dayOfYear = 365 → isLeapYear (yearOfEra + era * 400 + 1) = true := by
    intro hlast
    obtain ⟨hfour, hcentury⟩ := h.leap (by omega)
    simp only [isLeapYear, Bool.and_eq_true, Bool.or_eq_true, decide_eq_true_eq]
    omega
  have hshifted : (5 * dayOfYear + 2) / 153 < 12 := by omega
  simp only [ofYear]
  generalize hs : (5 * dayOfYear + 2) / 153 = shifted at hshifted
  by_cases hfebruary : shifted = 11
  · subst hfebruary
    by_cases hlast : dayOfYear = 365
    · simp [daysInMonth, hleap hlast, hlast]
    · simp only [daysInMonth]
      split_ifs <;> omega
  · interval_cases shifted <;> simp [daysInMonth] <;> omega

theorem daysInMonth_le (y : Int) (m : Nat) : daysInMonth y m ≤ 31 := by
  unfold daysInMonth
  split_ifs <;> decide

/-- The months and days of dates. -/
theorem ofDays_bounds (days : Int) : 1 ≤ (ofDays days).month ∧ (ofDays days).month ≤ 12 ∧
    1 ≤ (ofDays days).day ∧
    (ofDays days).day ≤ daysInMonth (ofDays days).year (ofDays days).month := by
  obtain ⟨era, yearOfEra, dayOfYear, h, hdate⟩ := exists_ofYear days
  have hle : dayOfYear ≤ 365 := Int.ofNat_le.1 h.le
  obtain ⟨hlow, hhigh⟩ := month_ofYear_bounds (yearOfEra + era * 400) hle
  rw [hdate]
  exact ⟨hlow, hhigh, Nat.le_add_left _ _, day_ofYear_le h⟩

/-- **A date of a day is valid,** in the years of the calendar. -/
theorem valid_ofDays {days : Int}
    (h : firstYear ≤ (ofDays days).year ∧ (ofDays days).year ≤ lastYear) :
    (ofDays days).valid = true := by
  obtain ⟨hlow, hhigh, hfirst, hlast⟩ := ofDays_bounds days
  simp [valid, h, hlow, hhigh, hfirst, hlast]

end Date
end TaskStack.Instant
