/-! Days of the Gregorian calendar, extended to all years. A day is a number counted from
1899-12-30; years start in March for the arithmetic, so that a leap day ends its year. -/

namespace Spreadsheet.Calendar

/-- A day by its year, month and day of the month. -/
structure Civil where
  year : Int
  month : Nat
  day : Nat
  deriving DecidableEq, Repr

def isLeapYear (year : Int) : Bool :=
  year % 4 == 0 && (year % 100 != 0 || year % 400 == 0)

def monthLength (year : Int) (month : Nat) : Nat :=
  if month == 2 then (if isLeapYear year then 29 else 28)
  else if month == 4 || month == 6 || month == 9 || month == 11 then 30
  else 31

/-- From 0000-03-01 to 1899-12-30. -/
def dayZero : Int := 693899

/-- The first and the last year that can be represented in full. -/
def firstYear : Int := -262143
def lastYear : Int := 262142

/-- The date exists and lies within the representable years. -/
def Civil.isValid (c : Civil) : Bool :=
  firstYear ≤ c.year && c.year ≤ lastYear && 1 ≤ c.month && c.month ≤ 12 &&
    1 ≤ c.day && c.day ≤ monthLength c.year c.month

/-- Days from 1899-12-30 to a date. -/
def Civil.dayNumber (c : Civil) : Int :=
  let year := if c.month ≤ 2 then c.year - 1 else c.year
  let month := (c.month + 9) % 12
  365 * year + year / 4 - year / 100 + year / 400 + ((153 * month + 2) / 5 : Nat) + c.day - 1 -
    dayZero

/-- The date that is `n` days after 1899-12-30. -/
def Civil.ofDayNumber (n : Int) : Civil :=
  let days := n + dayZero
  let era := days / 146097
  let inEra := (days % 146097).toNat
  let yearInEra := (inEra - inEra / 1460 + inEra / 36524 - inEra / 146096) / 365
  let inYear := inEra - (365 * yearInEra + yearInEra / 4 - yearInEra / 100)
  let marchMonth := (5 * inYear + 2) / 153
  let month := if marchMonth < 10 then marchMonth + 3 else marchMonth - 9
  { year := yearInEra + era * 400 + (if month ≤ 2 then 1 else 0)
    month
    day := inYear - (153 * marchMonth + 2) / 5 + 1 }

/-- The day number of a date that exists. -/
def dayNumber? (c : Civil) : Option Int := if c.isValid then some c.dayNumber else none

def firstDay : Int := Civil.dayNumber ⟨firstYear, 1, 1⟩
def lastDay : Int := Civil.dayNumber ⟨lastYear, 12, 31⟩

/-- The day can be represented. -/
def isDay (n : Int) : Bool := firstDay ≤ n && n ≤ lastDay

end Spreadsheet.Calendar
