/-!
# Dates and moments

A `Moment` is a date with a time of day, and optionally an offset from universal time in
microseconds; without one it is a local time.  `ofUnix` counts days in the proleptic Gregorian
calendar, in which the year before the first is the year zero, a leap year.
-/

set_option autoImplicit false

namespace CatalogSearch.Calendar

structure Date where
  year : Nat
  month : Nat
  day : Nat
  deriving DecidableEq, Repr

structure Moment where
  date : Date
  hour : Nat
  minute : Nat
  second : Nat
  microsecond : Nat
  offset : Option Int
  deriving DecidableEq, Repr

def isLeap (year : Nat) : Bool := (year % 4 = 0 && year % 100 ≠ 0) || year % 400 = 0

def daysIn (year month : Nat) : Nat :=
  if month = 2 then (if isLeap year then 29 else 28)
  else if month = 4 ∨ month = 6 ∨ month = 9 ∨ month = 11 then 30 else 31

def Date.isValid (d : Date) : Bool :=
  1 ≤ d.month && d.month ≤ 12 && 1 ≤ d.day && d.day ≤ daysIn d.year d.month

def Moment.midnight (d : Date) : Moment := ⟨d, 0, 0, 0, 0, none⟩

/-- The date `days` after the first of January 1970, of the year zero at the earliest.  Years are
counted from March, in eras of four hundred years, so that the leap day is the last day of a year. -/
def Date.ofDays (days : Int) : Date :=
  let shifted := days + 719468
  let era := shifted / 146097
  let dayOfEra := (shifted % 146097).toNat
  let yearOfEra := (dayOfEra - dayOfEra / 1460 + dayOfEra / 36524 - dayOfEra / 146096) / 365
  let dayOfYear := dayOfEra - (365 * yearOfEra + yearOfEra / 4 - yearOfEra / 100)
  let fromMarch := (5 * dayOfYear + 2) / 153
  let month := if fromMarch < 10 then fromMarch + 3 else fromMarch - 9
  let year := yearOfEra + era * 400
  { year := (if month ≤ 2 then year + 1 else year).toNat
    month := month
    day := dayOfYear - (153 * fromMarch + 2) / 5 + 1 }

def Moment.ofUnix (seconds : Int) (microsecond : Nat) : Moment :=
  let inDay := (seconds % 86400).toNat
  { date := Date.ofDays (seconds / 86400)
    hour := inDay / 3600
    minute := inDay / 60 % 60
    second := inDay % 60
    microsecond := microsecond
    offset := some 0 }

end CatalogSearch.Calendar
