/-!
The proleptic Gregorian calendar over days counted from 1970-01-01. Years start in March here, so
that the leap day is the last day of its year, and four hundred years are one cycle.
-/

namespace CqlClient.Calendar

structure Date where
  year : Int
  month : Nat
  day : Nat
  deriving DecidableEq, Repr

/-- The days in a cycle of four hundred years. -/
def cycleDays : Int := 146097

/-- The days from 0000-03-01 to 1970-01-01. -/
def epochShift : Int := 719468

/-- The date of a day. -/
def dateOfDay (day : Int) : Date :=
  let shifted := day + epochShift
  let cycle := shifted / cycleDays
  let dayOfCycle := (shifted % cycleDays).toNat
  let yearOfCycle := (dayOfCycle - dayOfCycle / 1460 + dayOfCycle / 36524 - dayOfCycle / 146096) / 365
  let dayOfYear := dayOfCycle - (365 * yearOfCycle + yearOfCycle / 4 - yearOfCycle / 100)
  let marchMonth := (5 * dayOfYear + 2) / 153
  let month := if marchMonth < 10 then marchMonth + 3 else marchMonth - 9
  { year := cycle * 400 + yearOfCycle + (if month ≤ 2 then 1 else 0)
    month
    day := dayOfYear - (153 * marchMonth + 2) / 5 + 1 }

/-- The day of a date. -/
def dayOfDate (date : Date) : Int :=
  let year := if date.month ≤ 2 then date.year - 1 else date.year
  let cycle := year / 400
  let yearOfCycle := (year % 400).toNat
  let marchMonth := if 2 < date.month then date.month - 3 else date.month + 9
  let dayOfYear := (153 * marchMonth + 2) / 5 + date.day - 1
  let dayOfCycle := yearOfCycle * 365 + yearOfCycle / 4 - yearOfCycle / 100 + dayOfYear
  cycle * cycleDays + dayOfCycle - epochShift

def isLeapYear (year : Int) : Bool :=
  year % 4 == 0 && (year % 100 != 0 || year % 400 == 0)

/-- The days of a month. -/
def monthDays (year : Int) (month : Nat) : Nat :=
  if month = 2 then (if isLeapYear year then 29 else 28)
  else if month = 4 ∨ month = 6 ∨ month = 9 ∨ month = 11 then 30
  else 31

/-- Whether the calendar has this date. -/
def Date.isValid (date : Date) : Bool :=
  1 ≤ date.month && date.month ≤ 12 && 1 ≤ date.day && date.day ≤ monthDays date.year date.month

example : dateOfDay 0 = ⟨1970, 1, 1⟩ ∧ dateOfDay (-1) = ⟨1969, 12, 31⟩ := by decide

example : dayOfDate ⟨2000, 2, 29⟩ = 11016 ∧ dateOfDay 11016 = ⟨2000, 2, 29⟩ := by decide

end CqlClient.Calendar
