/-
# `Toolbar.Calendar.Date` — days of the proleptic Gregorian calendar

Years run from 1 to 9999.  A date carries the proof that its day exists, so every date that is
written reads back, and the two ways to count days — from the first day of the calendar and within
a year — need no case for impossible dates.
-/

namespace Toolbar

namespace Calendar

/-- Every fourth year is a leap year, except the hundredth unless it is the four hundredth. -/
def isLeap (year : Nat) : Bool :=
  year % 4 == 0 && (year % 100 != 0 || year % 400 == 0)

def daysInYear (year : Nat) : Nat :=
  if isLeap year then 366 else 365

def daysInMonth (year month : Nat) : Nat :=
  if month = 2 then (if isLeap year then 29 else 28)
  else if month = 4 ∨ month = 6 ∨ month = 9 ∨ month = 11 then 30 else 31

/-- The days of the calendar before the first day of a year from 1 on. -/
def daysBeforeYear (year : Nat) : Nat :=
  let y := year - 1
  y * 365 + y / 4 - y / 100 + y / 400

/-- The days of a year before the first day of a month from 1 on. -/
def daysBeforeMonth (year : Nat) : Nat → Nat
  | 0 => 0
  | 1 => 0
  | month + 1 => daysBeforeMonth year month + daysInMonth year month

/-- The last year of the calendar. -/
def lastYear : Nat := 9999

/-- A day that exists. -/
def IsDay (year month day : Nat) : Prop :=
  1 ≤ year ∧ year ≤ lastYear ∧ 1 ≤ month ∧ month ≤ 12 ∧ 1 ≤ day ∧ day ≤ daysInMonth year month

instance (year month day : Nat) : Decidable (IsDay year month day) := by
  unfold IsDay
  infer_instance

end Calendar

/-- A day of the calendar. -/
structure Date where
  year : Nat
  month : Nat
  day : Nat
  isDay : Calendar.IsDay year month day
deriving DecidableEq

namespace Date

open Calendar

instance : Inhabited Date := ⟨⟨1, 1, 1, by decide⟩⟩

/-- The date with the given parts, when that day exists. -/
def of? (year month day : Nat) : Option Date :=
  if h : IsDay year month day then some ⟨year, month, day, h⟩ else none

/-- The number of the day within its year, from 1. -/
def yearDay (d : Date) : Nat :=
  daysBeforeMonth d.year d.month + d.day

/-- The number of the day within the calendar, from 1. -/
def ordinal (d : Date) : Nat :=
  daysBeforeYear d.year + d.yearDay

/-- The day of the week, Monday first, from 0. -/
def weekday (d : Date) : Nat :=
  (d.ordinal + 6) % 7

/-- The date of the `n`-th day counted from the first of `month`, within at most `months` months
of its year. -/
def ofMonthDay? (year : Nat) : (months month n : Nat) → Option Date
  | 0, _, _ => none
  | months + 1, month, n =>
      if n ≤ daysInMonth year month then of? year month n
      else ofMonthDay? year months (month + 1) (n - daysInMonth year month)

/-- The date of the `n`-th day of a year; a number outside the year counts into the year before or
the year after. -/
def ofYearDay? (year : Nat) (n : Int) : Option Date :=
  if n < 1 then ofMonthDay? (year - 1) 12 1 (n + daysInYear (year - 1)).toNat
  else if n ≤ daysInYear year then ofMonthDay? year 12 1 n.toNat
  else ofMonthDay? (year + 1) 12 1 (n - daysInYear year).toNat

/-- The date `days` days later, for at most a year of days in either direction. -/
def shift? (d : Date) (days : Int) : Option Date :=
  ofYearDay? d.year (d.yearDay + days)

/-- The first day of the first week of a year: the Monday of the week with the year's first
Thursday, as a day of that year. -/
def firstWeekStart (year : Nat) : Int :=
  -- the weekday of 1 January, Monday 0
  let w : Int := ((daysBeforeYear year + 7) % 7 : Nat)
  if w > 3 then 8 - w else 1 - w

/-- Whether a year has a fifty-third week. -/
def hasLongYear (year : Nat) : Bool :=
  let w := (daysBeforeYear year + 7) % 7
  w == 3 || (w == 2 && isLeap year)

/-- The date of a day of the week, Monday 1, in a week of a year. -/
def ofWeek? (year week weekday : Nat) : Option Date :=
  if 1 ≤ week ∧ (week ≤ 52 ∨ (week = 53 ∧ hasLongYear year)) ∧ 1 ≤ weekday ∧ weekday ≤ 7 then
    ofYearDay? year (firstWeekStart year + ((week - 1) * 7 + (weekday - 1) : Nat))
  else none

end Date

end Toolbar
