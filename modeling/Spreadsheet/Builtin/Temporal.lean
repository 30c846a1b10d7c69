import Spreadsheet.Evaluation.Basic

/-! Dates: today, now, and a date from its parts. -/

namespace Spreadsheet.Builtin

def today (a : Ambient) (_ : Arguments) : Value := .date (.midnight a.now.day)

def now (a : Ambient) (_ : Arguments) : Value := .date a.now

/-- The last month that a date can be counted from, January 9999. -/
def lastMonth : Int := 9999 * 12

/-- The day `day` of the month that is `month` months after January of the year 0, where days
carry into other months. -/
def dayOfMonth? (month day : Int) : Option Int :=
  let start := Calendar.Civil.dayNumber ⟨month / 12, (month % 12).toNat + 1, 1⟩
  let n := start + (day - 1)
  if Calendar.isDay n then some n else none

/-- Months and days may be out of range and carry over; fractions do not count. -/
def date (args : Arguments) : Value :=
  Value.ofResult id do
    let year ← args.number 0
    let month ← args.number 1
    let day ← args.number 2
    let months := Number.truncated year * 12 + Number.truncated month - 1
    if !months.isFinite || day.isInf then .error .badNumber
    else
      let month := Number.wholePart months
      let day := if day.isNaN then 0 else Number.wholePart day
      if month < 0 || lastMonth < month then .error .badNumber
      else
        match dayOfMonth? month day with
        | some n => return .date (.midnight n)
        | none => .error .badNumber

/-- The number of the first line of a reference along an axis, counted from one. -/
def lineNumber (axis : Axis) (args : Arguments) : Value :=
  Value.ofResult id do
    let r ← args.reference 0
    match r.region? with
    | some region => return .number (Float.ofNat ((region.span axis).first + 1))
    | none => .error .badReference

def row (args : Arguments) : Value := lineNumber .row args

def column (args : Arguments) : Value := lineNumber .column args

end Spreadsheet.Builtin
