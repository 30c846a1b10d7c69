import Spreadsheet.Calendar.Pattern
import Spreadsheet.Number.Numeral

/-! Time stamps: moments as `2024-01-31T12:30:00`, with the fraction of a second where there is
one. Nothing of a moment is lost in its stamp. -/

namespace Spreadsheet.Calendar

/-- The digits of a fraction of a second: three, six or nine, as few as it needs. -/
def fractionText (nanosecond : Nat) : List Char :=
  let n := nanosecond % 1000000000
  let places := if n % 1000000 = 0 then 3 else if n % 1000 = 0 then 6 else 9
  if n = 0 then [] else '.' :: (padded 9 n).take places

def Moment.stamp (m : Moment) : String :=
  String.ofList (dayText m.day ++ 'T' :: m.clockText ++ fractionText m.nanosecond)

/-- Nanoseconds from the digits of a fraction. -/
def fractionValue (digits : List Char) : Nat :=
  Number.digitsValue ((digits ++ List.replicate 9 '0').take 9)

/-- The moment with this stamp. -/
def readStamp? (text : String) : Option Moment := do
  let cs := text.toList
  let whole := cs.takeWhile (· != '.')
  let m ← readMoment? "%Y-%m-%dT%H:%M:%S" (String.ofList whole)
  return { m with nanosecond := m.nanosecond + fractionValue (cs.drop (whole.length + 1)) }

end Spreadsheet.Calendar
