/-!
# Instants

An instant is a date and a time of day in universal time, down to the
nanosecond. A leap second is kept as second sixty of its minute.
-/

namespace SlotQuery

/-!
# Dates

Dates of the Gregorian calendar, extended in both directions. A date is made
from its three numbers only when the month has that day.
-/

structure Date where
  year : Int
  month : Nat
  day : Nat
deriving DecidableEq, Repr, Inhabited

namespace Date

def isLeapYear (year : Int) : Bool :=
  year % 4 == 0 && (year % 100 != 0 || year % 400 == 0)

def daysInMonth (year : Int) (month : Nat) : Nat :=
  if month = 2 then
    if isLeapYear year then 29 else 28
  else if month = 4 ∨ month = 6 ∨ month = 9 ∨ month = 11 then
    30
  else
    31

/-- Years that an instant may lie in. -/
def yearInRange (year : Int) : Bool :=
  decide (-262143 ≤ year) && decide (year ≤ 262142)

def ofNumbers? (year : Int) (month day : Nat) : Option Date :=
  if yearInRange year && decide (1 ≤ month) && decide (month ≤ 12) && decide (1 ≤ day) &&
      decide (day ≤ daysInMonth year month) then
    some { year := year, month := month, day := day }
  else
    none

def next (date : Date) : Date :=
  if date.day < daysInMonth date.year date.month then
    { date with day := date.day + 1 }
  else if date.month < 12 then
    { date with month := date.month + 1, day := 1 }
  else
    { year := date.year + 1, month := 1, day := 1 }

def previous (date : Date) : Date :=
  if 1 < date.day then
    { date with day := date.day - 1 }
  else if 1 < date.month then
    { date with month := date.month - 1, day := daysInMonth date.year (date.month - 1) }
  else
    { year := date.year - 1, month := 12, day := 31 }

end Date

/-!
# Time of day

Offsets between clocks are whole minutes, so the seconds of a minute are the
same on every clock.
-/

structure Instant where
  date : Date
  minuteOfDay : Nat
  /-- Sixty within a leap second. -/
  second : Nat
  nanosecond : Nat
deriving DecidableEq, Repr, Inhabited

def minutesPerDay : Int := 1440

/-- The same instant by a clock that is `offset` minutes behind, when its year is in range. -/
def Instant.behind? (instant : Instant) (offset : Int) : Option Instant :=
  let shifted := (instant.minuteOfDay : Int) - offset
  let date :=
    if shifted < 0 then
      instant.date.previous
    else if shifted < minutesPerDay then
      instant.date
    else
      instant.date.next
  if Date.yearInRange date.year then
    some { instant with date := date, minuteOfDay := (shifted % minutesPerDay).toNat }
  else
    none

end SlotQuery
