import CqlClient.Time.Calendar
import Mathlib.Tactic.IntervalCases
import Mathlib.Tactic.SplitIfs

/-!
Days and their dates. Every day has a date that is in the calendar, and the day of this date is the
day that it was made from. A day is counted within its cycle of four hundred years and then within
its year, which starts in March, so that only the last day of a year depends on whether February
has a leap day.
-/

namespace CqlClient.Calendar

theorem isLeapYear_iff {year : Int} :
    isLeapYear year = true ↔ year % 4 = 0 ∧ (year % 100 ≠ 0 ∨ year % 400 = 0) := by
  simp [isLeapYear]

/-! ## Years of a cycle -/

/-- The year of its cycle that a day of the cycle falls in. -/
def yearOfCycle (day : Nat) : Nat := (day - day / 1460 + day / 36524 - day / 146096) / 365

/-- The days of a cycle before a year of it. -/
def daysBefore (year : Nat) : Nat := 365 * year + year / 4 - year / 100

/-- What is left of a day of the cycle in its year. -/
def dayOfYear (day : Nat) : Nat := day - daysBefore (yearOfCycle day)

/-- Years and leap days are told from the century and the four years that a day lies in. The last
day of a cycle is left out: it would be the first one of a fifth century. -/
theorem yearOfCycle_bounds {day : Nat} (h : day < 146096) :
    yearOfCycle day < 400 ∧
      365 * yearOfCycle day + yearOfCycle day / 4 ≤ day + yearOfCycle day / 100 ∧
      day + yearOfCycle day / 100 ≤ 365 * yearOfCycle day + yearOfCycle day / 4 + 365 ∧
      (day + yearOfCycle day / 100 = 365 * yearOfCycle day + yearOfCycle day / 4 + 365 →
        (yearOfCycle day + 1) % 4 = 0 ∧ (yearOfCycle day + 1) % 100 ≠ 0) := by
  have hcentury : 36524 * (day / 36524) ≤ day ∧ day < 36524 * (day / 36524) + 36524 ∧
      day / 36524 ≤ 3 := by omega
  have hfour : 1460 * (day / 1460) ≤ day ∧ day < 1460 * (day / 1460) + 1460 := by omega
  have hyear : 365 * yearOfCycle day + day / 1460 ≤ day + day / 36524 ∧
      day + day / 36524 < 365 * yearOfCycle day + 365 + day / 1460 := by
    rw [yearOfCycle, Nat.div_eq_of_lt h]
    omega
  generalize yearOfCycle day = year at hyear ⊢
  generalize day / 36524 = century at hcentury hyear
  generalize day / 1460 = four at hfour hyear
  have hwithin : 100 * century ≤ year ∧ year < 100 * century + 100 := by omega
  have hsame : year / 100 = century := by omega
  rw [hsame]
  refine ⟨by omega, by omega, by omega, fun hlast => ?_⟩
  -- Only the last of four years has so many days, and the last year of a century does not.
  have hlt : ¬ year ≤ 4 * (year / 4) + 2 := by omega
  omega

/-- A day lies in the year that is found for it, and is the 366th one of it only before a year with
a leap day. -/
theorem yearOfCycle_spec {day : Nat} (h : day < 146097) :
    yearOfCycle day < 400 ∧ daysBefore (yearOfCycle day) + dayOfYear day = day ∧
      (dayOfYear day < 365 ∨
        dayOfYear day = 365 ∧ isLeapYear ((yearOfCycle day : Int) + 1) = true) := by
  rcases Nat.lt_or_eq_of_le (Nat.le_of_lt_succ h) with hday | rfl
  · obtain ⟨hyear, hlow, hhigh, hlast⟩ := yearOfCycle_bounds hday
    rw [isLeapYear_iff, dayOfYear, daysBefore]
    omega
  · decide

/-! ## Months of a year -/

/-- The month, counted from March, of a day of the year. -/
def monthOfYear (dayOfYear : Nat) : Nat := (5 * dayOfYear + 2) / 153

/-- The days of a year before a month of it. -/
def daysBeforeMonth (month : Nat) : Nat := (153 * month + 2) / 5

theorem monthOfYear_spec {dayOfYear : Nat} (h : dayOfYear ≤ 365) :
    daysBeforeMonth (monthOfYear dayOfYear) ≤ dayOfYear ∧
      dayOfYear < daysBeforeMonth (monthOfYear dayOfYear + 1) ∧ monthOfYear dayOfYear ≤ 11 := by
  rw [daysBeforeMonth, daysBeforeMonth, monthOfYear]
  omega

/-- The date of a day of a month, both counted from zero, in a year and months that start in March. -/
def ofMarch (year : Int) (marchMonth day : Nat) : Date :=
  let month := if marchMonth < 10 then marchMonth + 3 else marchMonth - 9
  { year := year + (if month ≤ 2 then 1 else 0)
    month
    day := day + 1 }

section

variable {year : Int} {month day : Nat}

theorem ofMarch_of_lt (h : month < 10) : ofMarch year month day = ⟨year, month + 3, day + 1⟩ := by
  have hlate : ¬ month + 3 ≤ 2 := by omega
  simp only [ofMarch, if_pos h, if_neg hlate, Int.add_zero]

theorem ofMarch_of_le (hle : 10 ≤ month) (h : month ≤ 11) :
    ofMarch year month day = ⟨year + 1, month - 9, day + 1⟩ := by
  have hearly : month - 9 ≤ 2 := by omega
  simp only [ofMarch, if_neg (Nat.not_lt.mpr hle), if_pos hearly]

theorem isValid_mk_iff : (⟨year, month, day⟩ : Date).isValid = true ↔
    1 ≤ month ∧ month ≤ 12 ∧ 1 ≤ day ∧ day ≤ monthDays year month := by
  simp only [Date.isValid, Bool.and_eq_true, decide_eq_true_eq, and_assoc]

theorem monthDays_le (year : Int) (month : Nat) : monthDays year month ≤ 31 := by
  rw [monthDays]
  split_ifs <;> decide

/-- From March to December, a month has the days up to the next one. -/
theorem monthDays_of_lt (year : Int) (h : month < 10) :
    daysBeforeMonth month + monthDays year (month + 3) = daysBeforeMonth (month + 1) := by
  interval_cases month <;> rfl

theorem isValid_ofMarch (hmonth : month ≤ 11)
    (hday : daysBeforeMonth month + day < daysBeforeMonth (month + 1))
    (hleap : daysBeforeMonth month + day < 365 ∨
      daysBeforeMonth month + day = 365 ∧ isLeapYear (year + 1) = true) :
    (ofMarch year month day).isValid = true := by
  rcases Nat.lt_or_ge month 10 with hlt | hge
  · have hdays := monthDays_of_lt year hlt
    rw [ofMarch_of_lt hlt, isValid_mk_iff]
    omega
  rw [ofMarch_of_le hge hmonth, isValid_mk_iff]
  rcases Nat.lt_or_eq_of_le hmonth with hlt | rfl
  · obtain rfl : month = 10 := by omega
    have hdays : daysBeforeMonth 10 + monthDays (year + 1) (10 - 9) =
        daysBeforeMonth (10 + 1) := rfl
    exact ⟨by decide, by decide, by omega, by omega⟩
  · have hdays : daysBeforeMonth 11 + 28 = 365 := by decide
    refine ⟨by decide, by decide, by omega, ?_⟩
    show day + 1 ≤ if isLeapYear (year + 1) = true then 29 else 28
    split
    · omega
    · next hcommon =>
      have hbefore := hleap.resolve_right fun h => hcommon h.2
      omega

theorem dayOfDate_ofMarch (cycle : Int) {year : Nat} (hyear : year < 400) (hmonth : month ≤ 11) :
    dayOfDate (ofMarch (cycle * 400 + year) month day) =
      cycle * cycleDays + (daysBefore year + (daysBeforeMonth month + day) : Nat) - epochShift := by
  rcases Nat.lt_or_ge month 10 with hlt | hge
  · have h1 : ¬ month + 3 ≤ 2 := by omega
    have h2 : 2 < month + 3 := by omega
    rw [ofMarch_of_lt hlt, dayOfDate]
    simp only [if_neg h1, if_pos h2, cycleDays, epochShift, daysBefore, daysBeforeMonth]
    omega
  · have h1 : month - 9 ≤ 2 := by omega
    have h2 : ¬ 2 < month - 9 := by omega
    rw [ofMarch_of_le hge hmonth, dayOfDate]
    simp only [if_pos h1, if_neg h2, cycleDays, epochShift, daysBefore, daysBeforeMonth]
    omega

end

/-! ## Days and dates -/

theorem dateOfDay_eq_ofMarch (day : Int) :
    dateOfDay day =
      let dayOfCycle := ((day + epochShift) % cycleDays).toNat
      let month := monthOfYear (dayOfYear dayOfCycle)
      ofMarch ((day + epochShift) / cycleDays * 400 + yearOfCycle dayOfCycle) month
        (dayOfYear dayOfCycle - daysBeforeMonth month) := rfl

/-- Every day has a date of the calendar, and it is the day of this date. -/
theorem dateOfDay_spec (day : Int) :
    (dateOfDay day).isValid = true ∧ dayOfDate (dateOfDay day) = day := by
  have hcycle : ((day + epochShift) % cycleDays).toNat < 146097 := by
    simp only [cycleDays]
    omega
  obtain ⟨hyear, hdayOfCycle, hleap⟩ := yearOfCycle_spec hcycle
  have hlongest : dayOfYear ((day + epochShift) % cycleDays).toNat ≤ 365 := by omega
  obtain ⟨hlow, hhigh, hmonth⟩ := monthOfYear_spec hlongest
  have hday := Nat.add_sub_of_le hlow
  rw [dateOfDay_eq_ofMarch]
  constructor
  · apply isValid_ofMarch hmonth
    · rwa [hday]
    · rw [hday]
      rw [isLeapYear_iff] at hleap ⊢
      omega
  · rw [dayOfDate_ofMarch _ hyear hmonth, hday, hdayOfCycle]
    simp only [cycleDays, epochShift]
    omega

end CqlClient.Calendar
