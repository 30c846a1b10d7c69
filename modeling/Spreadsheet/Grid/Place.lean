import Spreadsheet.Grid.Region

/-! Places that formulas point at: a cell, a whole column or a whole row. Each coordinate may be
fixed with `$`, and a place that fell off the grid stays in its formula as an invalid one. -/

namespace Spreadsheet

/-- A coordinate as written; a fixed one keeps its line when its formula is copied. -/
structure Mark where
  index : Nat
  fixed : Bool
  deriving DecidableEq, Repr

inductive Place where
  | cell (row column : Mark) (valid : Bool)
  | column (column : Mark) (valid : Bool)
  | row (row : Mark) (valid : Bool)
  deriving DecidableEq, Repr

namespace Place

inductive Kind where
  | cell | column | row
  deriving DecidableEq, Repr

def kind : Place → Kind
  | cell .. => .cell
  | column .. => .column
  | row .. => .row

def isValid : Place → Bool
  | cell _ _ valid | column _ valid | row _ valid => valid

def invalidated : Place → Place
  | cell r c _ => cell r c false
  | column c _ => column c false
  | row r _ => row r false

/-- The place of a cell that moves freely. -/
def ofPosition (p : Position) : Place := cell ⟨p.row, false⟩ ⟨p.column, false⟩ true

/-- The coordinate along an axis; a whole line has one only along its own. -/
def mark? : Place → Axis → Option Mark
  | cell r _ _, .row => some r
  | cell _ c _, .column => some c
  | column c _, .column => some c
  | row r _, .row => some r
  | column .., .row | row .., .column => none

/-- The place with another coordinate along an axis that it has one for. -/
def withMark : Place → Axis → Mark → Place
  | cell _ c v, .row, m => cell m c v
  | cell r _ v, .column, m => cell r m v
  | column _ v, .column, m => column m v
  | row _ v, .row, m => row m v
  | p@(column ..), .row, _ | p@(row ..), .column, _ => p

/-- The cells of the place, whether it is valid or not. -/
def cells : Place → Region
  | cell r c _ => .cell ⟨r.index, c.index⟩
  | column c _ => .wholeColumns (.single c.index)
  | row r _ => .wholeRows (.single r.index)

/-- The last line that a place can move to. -/
def limit : Axis → Nat
  | .row => endless - 1
  | .column => lastColumn

/-- The place moved by `offset` lines; a fixed coordinate stays, and one that would leave the grid
makes the place invalid. -/
def movedBy (p : Place) (axis : Axis) (offset : Int) : Place :=
  match p.mark? axis with
  | none => p
  | some m =>
    if offset = 0 ∨ m.fixed then p
    else if m.index + offset < 0 ∨ limit axis < m.index + offset then p.invalidated
    else p.withMark axis ⟨(m.index + offset).toNat, false⟩

/-- The place as seen from a formula that was copied by the given offsets. -/
def shifted (p : Place) (rows columns : Int) : Place :=
  (p.movedBy .row rows).movedBy .column columns

/-- The place once `count` lines are inserted at line `start`. -/
def afterInsert (p : Place) (axis : Axis) (start count : Nat) : Place :=
  match p.mark? axis with
  | some m => if start ≤ m.index ∧ ¬ m.fixed then p.movedBy axis count else p
  | none => p

/-- The place once `count` lines from line `start` are removed; a removed one is invalid even when
it is fixed. -/
def afterRemove (p : Place) (axis : Axis) (start count : Nat) : Place :=
  match p.mark? axis with
  | some m =>
    if start ≤ m.index ∧ m.index ≤ Span.lastRemoved start count then p.invalidated
    else if Span.lastRemoved start count < m.index ∧ ¬ m.fixed then p.movedBy axis (-count)
    else p
  | none => p

def marker (fixed : Bool) : List Char := if fixed then ['$'] else []

def columnText (m : Mark) : List Char := marker m.fixed ++ columnLetters m.index
def rowText (m : Mark) : List Char := marker m.fixed ++ rowDigits m.index

/-- The place as formulas write it, whether it is valid or not. -/
def name : Place → List Char
  | cell r c _ => columnText c ++ rowText r
  | column c _ => columnText c
  | row r _ => rowText r

/-- Whether `$` comes first, and what follows. -/
def readMarker : List Char → Bool × List Char
  | '$' :: rest => (true, rest)
  | cs => (false, cs)

/-- Up to three letters as a column. -/
def readLetters? (letters : List Char) : Option Nat :=
  if 3 < letters.length then none else readColumn? letters

/-- A cell such as `B3`, with `$` allowed before either part. -/
def readCell? (cs : List Char) : Option Place := do
  let (columnFixed, cs) := readMarker cs
  let column ← readLetters? (cs.takeWhile Char.isAlpha)
  let (rowFixed, digits) := readMarker (cs.dropWhile Char.isAlpha)
  let row ← readRow? digits
  return cell ⟨row, rowFixed⟩ ⟨column, columnFixed⟩ true

/-- A column such as `B` or `$B`. -/
def readColumn? (cs : List Char) : Option Place :=
  let (fixed, letters) := readMarker cs
  (readLetters? letters).map fun c => column ⟨c, fixed⟩ true

/-- A row such as `3` or `$3`. -/
def readRow? (cs : List Char) : Option Place :=
  let (fixed, digits) := readMarker cs
  (Spreadsheet.readRow? digits).map fun r => row ⟨r, fixed⟩ true

/-- A place of the given kind. -/
def read? : Kind → List Char → Option Place
  | .cell => readCell?
  | .column => readColumn?
  | .row => readRow?

theorem kind_withMark (p : Place) (axis : Axis) (m : Mark) : (p.withMark axis m).kind = p.kind := by
  cases p <;> cases axis <;> rfl

theorem kind_invalidated (p : Place) : p.invalidated.kind = p.kind := by cases p <;> rfl

theorem isValid_invalidated (p : Place) : p.invalidated.isValid = false := by cases p <;> rfl

theorem kind_movedBy (p : Place) (axis : Axis) (offset : Int) :
    (p.movedBy axis offset).kind = p.kind := by
  unfold movedBy
  split
  · rfl
  · split
    · rfl
    · split
      · exact p.kind_invalidated
      · exact p.kind_withMark ..

end Place

end Spreadsheet
