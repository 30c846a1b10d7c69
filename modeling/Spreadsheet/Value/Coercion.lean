import Spreadsheet.Value.Basic
import Spreadsheet.Number.Numeral
import Spreadsheet.Text.Blank

/-! Reading a value as a number, a text or a truth value. An error stays the error it is, and a
block stands for its value when it has exactly one. -/

namespace Spreadsheet.Value

/-- An empty cell counts as 0, a logical as 1 or 0, a date as its serial, and a text as the number
it writes. -/
def toNumber : Value → Except ErrorCode Float
  | number x => .ok x
  | logical b => .ok (if b then 1 else 0)
  | empty => .ok 0
  | date m => .ok m.serial
  | text s =>
    match Number.readFinite? (Text.trim s) with
    | some x => .ok x
    | none => .error .badValue
  | error e => .error e
  | array [[v]] => v.toNumber
  | array _ => .error .badValue

def toText : Value → Except ErrorCode String
  | empty => .ok ""
  | text s => .ok s
  | number x => .ok (Number.text x)
  | logical b => .ok (logicalText b)
  | date m => .ok m.text
  | error e => .error e
  | array [[v]] => v.toText
  | array _ => .error .badValue

/-- The truth value that `s` names, in any case of its letters. -/
def readLogical? (s : String) : Option Bool :=
  if Text.sameIgnoringCase s "true" then some true
  else if Text.sameIgnoringCase s "false" then some false
  else none

def toLogical : Value → Except ErrorCode Bool
  | logical b => .ok b
  | number x => .ok (x != 0)
  | empty => .ok false
  | date m => .ok (m.serial != 0)
  | text s =>
    match readLogical? (Text.trim s) with
    | some b => .ok b
    | none => .error .badValue
  | error e => .error e
  | array [[v]] => v.toLogical
  | array _ => .error .badValue

/-- The one value of a block; any other value is its own. -/
def scalar : Value → Except ErrorCode Value
  | array [[v]] => .ok v
  | array _ => .error .badValue
  | v => .ok v

end Spreadsheet.Value
