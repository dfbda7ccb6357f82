/-!
# Dates and times

Configuration formats have values for days, times of day and moments. A moment is a day
with a time, and with the distance of its clock from universal time where that is known.

## Main definitions

* `Date`, `TimeOfDay` and `Moment`.
* `daysIn` is the length of a month.
* `Date.isValid` tests whether a day exists.
-/

namespace SandboxProfile

/-- A day of the Gregorian calendar. -/
structure Date where
  year : Nat
  month : Nat
  day : Nat
  deriving DecidableEq, Repr

/-- A time of day. -/
structure TimeOfDay where
  hour : Nat
  minute : Nat
  second : Nat
  /-- The millionth parts of a second. -/
  micro : Nat
  deriving DecidableEq, Repr

/-- A day with a time of day. -/
structure Moment where
  date : Date
  time : TimeOfDay
  /-- The minutes by which the clock is ahead of universal time, if that is known. -/
  zone : Option Int
  deriving DecidableEq, Repr

/-- Does the year have a leap day? -/
def isLeapYear (year : Nat) : Bool :=
  year % 4 = 0 && (year % 100 ≠ 0 || year % 400 = 0)

/-- The number of days of a month. -/
def daysIn (year month : Nat) : Nat :=
  if month = 2 then (if isLeapYear year then 29 else 28)
  else if month = 4 ∨ month = 6 ∨ month = 9 ∨ month = 11 then 30
  else 31

/-- Is there such a day? Years run from 1 to 9999. -/
def Date.isValid (d : Date) : Bool :=
  1 ≤ d.year && d.year ≤ 9999 && 1 ≤ d.month && d.month ≤ 12 && 1 ≤ d.day &&
    d.day ≤ daysIn d.year d.month

end SandboxProfile
