import Spreadsheet.Grid.Position

/-! Rectangles of cells: the cells in a span of rows and a span of columns. -/

namespace Spreadsheet

structure Region where
  rows : Span
  columns : Span
  deriving DecidableEq, Repr

namespace Region

def top (r : Region) : Nat := r.rows.first
def left (r : Region) : Nat := r.columns.first
def bottom (r : Region) : Nat := r.rows.last
def right (r : Region) : Nat := r.columns.last

/-- By the top edge, then the left, the bottom and the right one. -/
instance : Ord Region :=
  ⟨compareLex (compareLex (compareOn top) (compareOn left))
    (compareLex (compareOn bottom) (compareOn right))⟩

instance : Std.TransOrd Region :=
  inferInstanceAs (Std.TransCmp
    (compareLex (compareLex (compareOn top) (compareOn left))
      (compareLex (compareOn bottom) (compareOn right))))

instance : Std.LawfulEqOrd Region where
  compare_self {a} := Std.ReflCmp.compare_self
  eq_of_compare {a b} h := by
    obtain ⟨⟨_, _, _⟩, ⟨_, _, _⟩⟩ := a
    obtain ⟨⟨_, _, _⟩, ⟨_, _, _⟩⟩ := b
    change (compareLex (compareLex (compareOn top) (compareOn left))
      (compareLex (compareOn bottom) (compareOn right))) _ _ = .eq at h
    simp only [compareLex, compareOn, Ordering.then_eq_eq, Nat.compare_eq_eq, top, left,
      bottom, right] at h
    simp_all

/-- The region between two corners in any order. -/
def corners (top left bottom right : Nat) : Region :=
  ⟨.between top bottom, .between left right⟩

def cell (p : Position) : Region := ⟨.single p.row, .single p.column⟩

/-- Whole rows. -/
def wholeRows (rows : Span) : Region := ⟨rows, .all⟩

/-- Whole columns. -/
def wholeColumns (columns : Span) : Region := ⟨.all, columns⟩

def all : Region := ⟨.all, .all⟩

def span (r : Region) : Axis → Span
  | .row => r.rows
  | .column => r.columns

def withSpan (r : Region) : Axis → Span → Region
  | .row, s => { r with rows := s }
  | .column, s => { r with columns := s }

def height (r : Region) : Nat := r.rows.size
def width (r : Region) : Nat := r.columns.size

/-- The number of cells, counted up to the largest 64-bit number. -/
def area (r : Region) : Nat := min (r.height * r.width) (Nat.pow 2 64 - 1)

/-- Neither edge goes to the end of the grid. -/
def isBounded (r : Region) : Bool := r.bottom != endless && r.right != endless

def isSingleCell (r : Region) : Bool := r.top == r.bottom && r.left == r.right

def topLeft (r : Region) : Position := ⟨r.top, r.left⟩
def bottomRight (r : Region) : Position := ⟨r.bottom, r.right⟩

def contains (r : Region) (p : Position) : Bool :=
  r.rows.contains p.row && r.columns.contains p.column

def covers (r s : Region) : Bool := r.rows.covers s.rows && r.columns.covers s.columns

def overlaps (r s : Region) : Bool := r.rows.overlaps s.rows && r.columns.overlaps s.columns

/-- The cells of both, if any. -/
def meet? (r s : Region) : Option Region :=
  match r.rows.meet? s.rows, r.columns.meet? s.columns with
  | some rows, some columns => some ⟨rows, columns⟩
  | _, _ => none

/-- The least region that covers both. -/
def hull (r s : Region) : Region := ⟨r.rows.hull s.rows, r.columns.hull s.columns⟩

/-- The cells of `r` that are not in `s`, as disjoint regions: those above the shared part, below
it, to its left and to its right. -/
def subtract (r s : Region) : List Region :=
  match r.meet? s with
  | none => [r]
  | some cut =>
    ((r.rows.before? cut.rows).map fun rows => ⟨rows, r.columns⟩).toList ++
    ((r.rows.after? cut.rows).map fun rows => ⟨rows, r.columns⟩).toList ++
    ((r.columns.before? cut.columns).map fun columns => ⟨cut.rows, columns⟩).toList ++
    ((r.columns.after? cut.columns).map fun columns => ⟨cut.rows, columns⟩).toList

/-- The union of regions that share a side or overlap along one, which is again a region. -/
def merged? (r s : Region) : Option Region :=
  if r.columns = s.columns ∧ r.rows.touches s.rows ∨
      r.rows = s.rows ∧ r.columns.touches s.columns then
    some (r.hull s)
  else none

def afterInsert (r : Region) (axis : Axis) (start count : Nat) : Region :=
  r.withSpan axis ((r.span axis).afterInsert start count)

def afterRemove? (r : Region) (axis : Axis) (start count : Nat) : Option Region :=
  ((r.span axis).afterRemove? start count).map (r.withSpan axis)

/-- The region in words: whole columns as `A:B`, whole rows as `1:2`, else its corners. -/
def text (r : Region) : String :=
  let allRows := r.rows = .all
  let allColumns := r.columns = .all
  if allRows ∧ ¬ allColumns then
    String.ofList (columnLetters r.left ++ ':' :: columnLetters r.right)
  else if allColumns ∧ ¬ allRows then
    String.ofList (rowDigits r.top ++ ':' :: rowDigits r.bottom)
  else if r.isSingleCell then r.topLeft.text
  else r.topLeft.text ++ ":" ++ r.bottomRight.text

theorem contains_of_meet? {r s u : Region} (h : r.meet? s = some u) (p : Position) :
    u.contains p = (r.contains p && s.contains p) := by
  unfold meet? at h
  split at h
  · rename_i rows columns hr hc
    cases h
    simp only [contains, Span.mem_meet? hr, Span.mem_meet? hc]
    ac_rfl
  · simp at h

end Region

end Spreadsheet
