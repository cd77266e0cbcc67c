/-!
# Points in time

A point in time counts whole seconds from the start of 1970 in UTC, with
nanoseconds past that second. A leap second is the second before it with
nanoseconds of one billion and more. Dates are proleptic Gregorian.
-/

set_option autoImplicit false

namespace Wiretap

structure Timestamp where
  second : Int
  nano : Nat
  deriving DecidableEq, Repr, Inhabited

structure Date where
  year : Int
  month : Nat
  day : Nat
  deriving DecidableEq, Repr, Inhabited

namespace Date

def isLeap (year : Int) : Bool := year % 4 = 0 && (year % 100 ≠ 0 || year % 400 = 0)

def daysIn (year : Int) (month : Nat) : Nat :=
  if month = 2 then (if isLeap year then 29 else 28)
  else if month = 4 ∨ month = 6 ∨ month = 9 ∨ month = 11 then 30
  else 31

def isValid (d : Date) : Bool :=
  1 ≤ d.month && d.month ≤ 12 && 1 ≤ d.day && d.day ≤ daysIn d.year d.month

def marchDays (year : Int) (monthFromMarch day : Nat) : Int :=
  365 * year + year / 4 - year / 100 + year / 400
    + (153 * monthFromMarch + 2) / 5 + (day - 1 : Nat)

def toDays (d : Date) : Int :=
  if d.month ≤ 2 then marchDays (d.year - 1) (d.month + 9) d.day - 719468
  else marchDays d.year (d.month - 3) d.day - 719468

/-- The date of a day counted from the start of 1970. Years begin in March and eras
last four hundred of them, so the leap day is the last of its year and of its era. -/
def ofDays (days : Int) : Date :=
  let shifted := days + 719468
  let era := shifted / 146097
  let dayOfEra := (shifted % 146097).toNat
  let yearOfEra :=
    (dayOfEra - dayOfEra / 1460 + dayOfEra / 36524 - dayOfEra / 146096) / 365
  let dayOfYear := dayOfEra - (365 * yearOfEra + yearOfEra / 4 - yearOfEra / 100)
  let monthFromMarch := (5 * dayOfYear + 2) / 153
  let day := dayOfYear - (153 * monthFromMarch + 2) / 5 + 1
  let year := (yearOfEra : Int) + era * 400
  if monthFromMarch < 10 then ⟨year, monthFromMarch + 3, day⟩
  else ⟨year + 1, monthFromMarch - 9, day⟩

end Date

namespace Timestamp

def secondsPerDay : Nat := 86400

def billion : Nat := 1000000000

def ofMillis (millis : Int) : Timestamp :=
  ⟨millis / 1000, (millis % 1000).toNat * 1000000⟩

def toMillis (t : Timestamp) : Int := t.second * 1000 + (t.nano / 1000000 : Nat)

def date (t : Timestamp) : Date := Date.ofDays (t.second / secondsPerDay)

def secondOfDay (t : Timestamp) : Nat := (t.second % secondsPerDay).toNat

end Timestamp
end Wiretap
