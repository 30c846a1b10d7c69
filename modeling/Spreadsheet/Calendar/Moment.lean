import Spreadsheet.Calendar.Civil
import Spreadsheet.Number.Magnitude

/-! Points in time, and their serial numbers: days since 1899-12-30 with the time of day as the
fraction, exact to the millisecond. -/

namespace Spreadsheet.Calendar

/-- A day and a time of day. A leap second is the second before it, with a thousand million
nanoseconds or more. -/
structure Moment where
  /-- Days since 1899-12-30. -/
  day : Int
  second : Nat
  nanosecond : Nat
  deriving DecidableEq, Repr

def Moment.midnight (day : Int) : Moment := ⟨day, 0, 0⟩

/-- Whole milliseconds since 1899-12-30, cut towards it. -/
def Moment.milliseconds (m : Moment) : Int :=
  ((m.day * 86400 + m.second) * 1000000000 + m.nanosecond).tdiv 1000000

/-- Days since 1899-12-30, fractional for times. -/
def Moment.serial (m : Moment) : Float := Float.ofInt m.milliseconds / 86400000.0

/-- The moment `n` milliseconds after 1899-12-30, if its day can be represented. -/
def Moment.ofMilliseconds? (n : Int) : Option Moment :=
  let day := n / 86400000
  let inDay := (n % 86400000).toNat
  if isDay day then some ⟨day, inDay / 1000, inDay % 1000 * 1000000⟩ else none

/-- The moment a serial number stands for, to the nearest millisecond. -/
def Moment.ofSerial? (serial : Float) : Option Moment :=
  let milliseconds := serial * 86400000.0
  if milliseconds.isFinite then Moment.ofMilliseconds? (Number.nearestInt milliseconds) else none

/-- `n` in decimal, with zeros in front up to `width` digits. -/
def padded (width n : Nat) : List Char :=
  let digits := Nat.toDigits 10 n
  List.replicate (width - digits.length) '0' ++ digits

/-- A year in four digits; outside 0 to 9999 with a sign and as many digits as it needs. -/
def yearText (year : Int) : List Char :=
  if 0 ≤ year ∧ year ≤ 9999 then padded 4 year.toNat
  else (if year < 0 then '-' else '+') :: padded 4 year.natAbs

/-- `year-month-day`. -/
def dayText (day : Int) : List Char :=
  let c := Civil.ofDayNumber day
  yearText c.year ++ '-' :: padded 2 c.month ++ '-' :: padded 2 c.day

/-- `hour:minute:second`, where a leap second is second 60. -/
def Moment.clockText (m : Moment) : List Char :=
  padded 2 (m.second / 3600) ++ ':' :: padded 2 (m.second / 60 % 60) ++
    ':' :: padded 2 (m.second % 60 + m.nanosecond / 1000000000)

/-- The date, with the time of day unless it is midnight. -/
def Moment.text (m : Moment) : String :=
  String.ofList <|
    if m.second = 0 ∧ m.nanosecond = 0 then dayText m.day
    else dayText m.day ++ ' ' :: m.clockText

end Spreadsheet.Calendar
