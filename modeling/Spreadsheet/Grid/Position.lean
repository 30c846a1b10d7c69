import Spreadsheet.Grid.Span
import Spreadsheet.Number.Numeral

/-! Places of cells and their names: letters for the column, then the row counted from one. -/

namespace Spreadsheet

/-- What a line is: a row or a column. -/
inductive Axis where
  | row | column
  deriving DecidableEq, Repr

def Axis.other : Axis → Axis
  | .row => .column
  | .column => .row

theorem Axis.other_other (axis : Axis) : axis.other.other = axis := by cases axis <;> rfl

theorem Axis.eq_other_of_ne {a b : Axis} (h : a ≠ b) : a = b.other := by
  cases a <;> cases b <;> first | rfl | contradiction

/-- The column `XFD`, the last one that can be named. -/
def lastColumn : Nat := 16383

structure Position where
  row : Nat
  column : Nat
  deriving DecidableEq, Repr

namespace Position

/-- Row by row, each row from left to right. -/
instance : Ord Position := ⟨compareLex (compareOn (·.row)) (compareOn (·.column))⟩

instance : Std.TransOrd Position :=
  inferInstanceAs (Std.TransCmp (compareLex (compareOn Position.row) (compareOn Position.column)))

instance : Std.LawfulEqOrd Position where
  compare_self {a} := Std.ReflCmp.compare_self
  eq_of_compare {a b} h := by
    obtain ⟨r, c⟩ := a
    obtain ⟨r', c'⟩ := b
    change (compareLex (compareOn row) (compareOn column)) _ _ = .eq at h
    simp only [compareLex, compareOn, Ordering.then_eq_eq, Nat.compare_eq_eq] at h
    simp_all

def index (p : Position) : Axis → Nat
  | .row => p.row
  | .column => p.column

end Position

/-- The letters of column number `n`, counted from one, in front of `acc`. Every step divides `n`
by 26, so `n` steps are more than enough. -/
def lettersOnto : Nat → Nat → List Char → List Char
  | 0, _, acc => acc
  | steps + 1, n, acc =>
    if n = 0 then acc
    else lettersOnto steps ((n - 1) / 26) (Char.ofNat (65 + (n - 1) % 26) :: acc)

/-- The letters of a column: `A` to `Z`, then `AA` and so on. -/
def columnLetters (column : Nat) : List Char := lettersOnto (column + 1) (column + 1) []

/-- The value of column letters counted from one, in either case. -/
def lettersValue (letters : List Char) : Nat :=
  letters.foldl (fun n c => 26 * n + (c.toUpper.toNat - 64)) 0

/-- The column with these letters, up to `XFD`. -/
def readColumn? (letters : List Char) : Option Nat :=
  let value := lettersValue letters
  if letters.isEmpty || !letters.all Char.isAlpha || lastColumn + 1 < value then none
  else some (value - 1)

/-- The row with this number, from 1 to 4294967295. -/
def readRow? (digits : List Char) : Option Nat :=
  let value := Number.digitsValue digits
  if digits.isEmpty || !digits.all Char.isDigit || value = 0 || endless < value then none
  else some (value - 1)

def rowDigits (row : Nat) : List Char := Nat.toDigits 10 (row + 1)

namespace Position

def text (p : Position) : String := String.ofList (columnLetters p.column ++ rowDigits p.row)

/-- Why a text names no cell. -/
inductive ReadError where
  | malformed (text : String)
  | columnOutOfRange (text : String)
  | rowOutOfRange (text : String)
  deriving DecidableEq, Repr

def ReadError.message : ReadError → String
  | .malformed text => "invalid cell reference: " ++ text
  | .columnOutOfRange text => "column out of range: " ++ text
  | .rowOutOfRange text => "row out of range: " ++ text

/-- One to three letters, then digits. -/
def splitName? (cs : List Char) : Option (List Char × List Char) :=
  let letters := cs.takeWhile Char.isAlpha
  let digits := cs.dropWhile Char.isAlpha
  if letters.isEmpty || 3 < letters.length || digits.isEmpty || !digits.all Char.isDigit then none
  else some (letters, digits)

/-- The cell that `text` names. -/
def read (text : String) : Except ReadError Position :=
  match splitName? text.toList with
  | none => .error (.malformed text)
  | some (letters, digits) =>
    match readColumn? letters, readRow? digits with
    | none, _ => .error (.columnOutOfRange text)
    | some _, none => .error (.rowOutOfRange text)
    | some column, some row => .ok ⟨row, column⟩

def read? (text : String) : Option Position := (read text).toOption

end Position

end Spreadsheet
