import Sundial.Text.Layout

/-!
# Dates

A date of the proleptic Gregorian calendar is its day number, so every value is a date and moving
by days is addition. Year, month and day are computed from years that begin on the first of March,
which puts the leap day at a year's end.
-/

set_option autoImplicit false

namespace Sundial

/-- A date; day number one is 1 January of the year one. -/
structure Date where
  dayNumber : Int
  deriving DecidableEq, Repr

namespace Date

/-- Days from 1 March of the year zero to 1 January of the year one, less one. -/
def marchOffset : Int := 305

/-- Days in four hundred years. -/
def daysPerEra : Int := 146097

def isLeapYear (year : Int) : Bool :=
  year % 4 = 0 && (year % 100 ≠ 0 || year % 400 = 0)

def daysInMonth (year : Int) (month : Nat) : Nat :=
  match month with
  | 1 | 3 | 5 | 7 | 8 | 10 | 12 => 31
  | 4 | 6 | 9 | 11 => 30
  | 2 => if isLeapYear year then 29 else 28
  | _ => 0

/-- The date with the given numbers, taken as they are. -/
def ofNumbers (year : Int) (month day : Nat) : Date :=
  let marchYear := if month ≤ 2 then year - 1 else year
  let era := marchYear.fdiv 400
  let yearOfEra := marchYear - era * 400
  let marchMonth : Int := if month ≤ 2 then (month : Int) + 9 else (month : Int) - 3
  let dayOfYear := (153 * marchMonth + 2) / 5 + day - 1
  let dayOfEra := yearOfEra * 365 + yearOfEra / 4 - yearOfEra / 100 + dayOfYear
  ⟨era * daysPerEra + dayOfEra - marchOffset⟩

/-- The years that dates and times may have. -/
def leastYear : Int := -262143
def greatestYear : Int := 262142

/-- The date with the given numbers, if the calendar has it and the year is in range. -/
def ofNumbers? (year : Int) (month day : Nat) : Option Date :=
  if leastYear ≤ year ∧ year ≤ greatestYear ∧ 1 ≤ day ∧ day ≤ daysInMonth year month then
    some (ofNumbers year month day)
  else none

def least : Date := ofNumbers leastYear 1 1
def greatest : Date := ofNumbers greatestYear 12 31

/-- The numbers of a date: year, month and day. -/
def numbers (d : Date) : Int × Nat × Nat :=
  let days := d.dayNumber + marchOffset
  let era := days.fdiv daysPerEra
  let dayOfEra := (days - era * daysPerEra).toNat
  let yearOfEra := (dayOfEra - dayOfEra / 1460 + dayOfEra / 36524 - dayOfEra / 146096) / 365
  let dayOfYear := dayOfEra - (365 * yearOfEra + yearOfEra / 4 - yearOfEra / 100)
  let marchMonth := (5 * dayOfYear + 2) / 153
  let day := dayOfYear - (153 * marchMonth + 2) / 5 + 1
  let month := if marchMonth < 10 then marchMonth + 3 else marchMonth - 9
  let year := (yearOfEra : Int) + era * 400 + (if month ≤ 2 then 1 else 0)
  (year, month, day)

def year (d : Date) : Int := d.numbers.1
def month (d : Date) : Nat := d.numbers.2.1
def day (d : Date) : Nat := d.numbers.2.2

/-- The date `n` days later, if it is in range. -/
def addDays? (d : Date) (n : Nat) : Option Date :=
  let later : Date := ⟨d.dayNumber + n⟩
  if later.dayNumber ≤ greatest.dayNumber then some later else none

/-- A year has at least four digits; one outside of 0 to 9999 has a sign, too. -/
def yearText (year : Int) : String :=
  if 0 ≤ year ∧ year ≤ 9999 then Text.zeroPad 4 year.toNat
  else (if year < 0 then "-" else "+") ++ Text.zeroPad 4 year.natAbs

/-- `YYYY-MM-DD`. -/
def text (d : Date) : String :=
  let (year, month, day) := d.numbers
  s!"{yearText year}-{Text.zeroPad 2 month}-{Text.zeroPad 2 day}"

end Date

end Sundial
