import Spreadsheet.Calendar.Moment
import Spreadsheet.Number.Text
import Spreadsheet.Text.Case

/-! What a cell can hold or a formula can yield. A block of values is a value too, so a range can
be an operand. -/

namespace Spreadsheet

/-- Why a formula has no ordinary result. -/
inductive ErrorCode where
  | divisionByZero
  | badValue
  | badReference
  | unknownName
  | badNumber
  | notAvailable
  deriving DecidableEq, Repr

namespace ErrorCode

def all : List ErrorCode :=
  [divisionByZero, badValue, badReference, unknownName, badNumber, notAvailable]

def text : ErrorCode → String
  | divisionByZero => "#DIV/0!"
  | badValue => "#VALUE!"
  | badReference => "#REF!"
  | unknownName => "#NAME?"
  | badNumber => "#NUM!"
  | notAvailable => "#N/A"

/-- The error with this text, in any case of its letters. -/
def ofText? (text : String) : Option ErrorCode :=
  all.find? fun e => Text.sameIgnoringCase e.text text

theorem mem_all (e : ErrorCode) : e ∈ all := by cases e <;> decide

end ErrorCode

inductive Value where
  | empty
  | text (s : String)
  | number (x : Float)
  | logical (b : Bool)
  | date (m : Calendar.Moment)
  | error (e : ErrorCode)
  /-- Rows of values, all of one length. -/
  | array (rows : List (List Value))

namespace Value

instance : Inhabited Value := ⟨empty⟩

def isEmpty : Value → Bool
  | empty => true
  | _ => false

def error? : Value → Option ErrorCode
  | error e => some e
  | _ => none

def isError (v : Value) : Bool := v.error?.isSome

/-- The single value, or the values of a block row by row. -/
def items : Value → List Value
  | array rows => rows.flatten
  | v => [v]

mutual
/-- Equal values; a date equals the number that is its serial. -/
def beq : Value → Value → Bool
  | empty, empty => true
  | text a, text b => a == b
  | number a, number b => a == b
  | logical a, logical b => a == b
  | date a, date b => a == b
  | date d, number n => d.serial == n
  | number n, date d => d.serial == n
  | error a, error b => a == b
  | array a, array b => beqRows a b
  | _, _ => false
def beqRows : List (List Value) → List (List Value) → Bool
  | [], [] => true
  | a :: as, b :: bs => beqRow a b && beqRows as bs
  | _, _ => false
def beqRow : List Value → List Value → Bool
  | [], [] => true
  | a :: as, b :: bs => beq a b && beqRow as bs
  | _, _ => false
end

instance : BEq Value := ⟨beq⟩

def logicalText (b : Bool) : String := if b then "TRUE" else "FALSE"

/-- The text between items, which start with `separator` after the first. -/
def joined (separator : String) (items : List String) : String := separator.intercalate items

mutual
/-- The value in words, a block as in a formula. -/
def display : Value → String
  | empty => ""
  | text s => s
  | number x => Number.text x
  | logical b => logicalText b
  | date m => m.text
  | error e => e.text
  | array rows => "\x7b" ++ joined ";" (displayRows rows) ++ "\x7d"
def displayRows : List (List Value) → List String
  | [] => []
  | row :: rest => joined "," (displayRow row) :: displayRows rest
def displayRow : List Value → List String
  | [] => []
  | v :: rest => display v :: displayRow rest
end

mutual
/-- The value as a result is printed: a block as lines of columns. -/
def layout : Value → String
  | array rows => joined "\n" (layoutRows rows)
  | v => v.display
def layoutRows : List (List Value) → List String
  | [] => []
  | row :: rest => joined "\t" (layoutRow row) :: layoutRows rest
def layoutRow : List Value → List String
  | [] => []
  | v :: rest => layout v :: layoutRow rest
end

end Value

end Spreadsheet
