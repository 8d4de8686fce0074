/-! # The calendar

    Dates of the Gregorian calendar, extended to all years, and the count of
    days since 1970-01-01.  Years are counted from March, so that the leap
    day is the last day of its year; `ofDayNumber` peels off the 400-year
    cycles, the centuries, the four-year groups and the years in turn. -/

namespace OrderFlow

/-- A day of the calendar. -/
structure Date where
  /-- The year; year 0 comes before year 1. -/
  year : Int
  /-- The month, 1 to 12. -/
  month : Nat
  /-- The day of the month, from 1. -/
  day : Nat
  deriving DecidableEq

namespace Date

/-- Is `y` a leap year? -/
def isLeapYear (y : Int) : Bool :=
  y % 4 == 0 && (y % 100 != 0 || y % 400 == 0)

/-- How many days a month has. -/
def daysInMonth (y : Int) (m : Nat) : Nat :=
  if m = 2 then (if isLeapYear y then 29 else 28)
  else if m = 4 ∨ m = 6 ∨ m = 9 ∨ m = 11 then 30
  else 31

/-- Does the calendar have this day? -/
def isValid (d : Date) : Bool :=
  1 ≤ d.month && d.month ≤ 12 && 1 ≤ d.day && d.day ≤ daysInMonth d.year d.month

/-- Days from 0000-03-01 to 1970-01-01. -/
def epochOffset : Int := 719468

/-- The number of days from 1970-01-01 to `d`. -/
def dayNumber (d : Date) : Int :=
  let year := if d.month ≤ 2 then d.year - 1 else d.year
  let month := (d.month + 9) % 12
  let dayOfYear : Int := ((153 * month + 2) / 5 + d.day - 1 : Nat)
  365 * year + year / 4 - year / 100 + year / 400 + dayOfYear - epochOffset

/-- The date `n` days after 1970-01-01. -/
def ofDayNumber (n : Int) : Date :=
  let z := n + epochOffset
  let cycle := z / 146097
  let ofCycle := (z % 146097).toNat
  let century := min (ofCycle / 36524) 3
  let ofCentury := ofCycle - 36524 * century
  let group := ofCentury / 1461
  let ofGroup := ofCentury % 1461
  let yearOfGroup := min (ofGroup / 365) 3
  let dayOfYear := ofGroup - 365 * yearOfGroup
  let year : Int := 400 * cycle + (100 * century + 4 * group + yearOfGroup : Nat)
  let month := (5 * dayOfYear + 2) / 153
  let day := dayOfYear - (153 * month + 2) / 5 + 1
  if month < 10 then ⟨year, month + 3, day⟩ else ⟨year + 1, month - 9, day⟩

end Date

end OrderFlow
