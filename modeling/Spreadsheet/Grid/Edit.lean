import Spreadsheet.Grid.Reference

/-! Edits of the grid's shape: whole rows or columns come in or go out, and all that lies behind
them moves. What is stored, what is marked as a region and what a formula refers to each follow
an edit in their own way. -/

namespace Spreadsheet

/-- `count` rows or columns come in at line `start`, or those from line `start` go out. -/
inductive Edit where
  | insert (axis : Axis) (start count : Nat)
  | remove (axis : Axis) (start count : Nat)
  deriving DecidableEq, Repr

namespace Edit

def axis : Edit → Axis
  | insert axis .. | remove axis .. => axis

def start : Edit → Nat
  | insert _ start _ | remove _ start _ => start

def count : Edit → Nat
  | insert _ _ count | remove _ _ count => count

/-- Where something stored at index `i` goes when a gap opens, `none` when it is pushed off the
grid. -/
def opened? (start count i : Nat) : Option Nat :=
  if count = 0 ∨ i < start then some i
  else if i + count < endless then some (i + count)
  else none

/-- Where something stored at index `i` goes when a gap closes, `none` when it lies in the gap. -/
def closed? (start count i : Nat) : Option Nat :=
  if i < start then some i
  else if i < start + count then none
  else some (i - count)

/-- Where something stored on line `i` of the edited axis goes, `none` when it is lost. -/
def index? : Edit → Nat → Option Nat
  | insert _ start count => opened? start count
  | remove _ start count => closed? start count

/-- Where a stored cell goes. -/
def position? (e : Edit) (p : Position) : Option Position :=
  match e.axis with
  | .row => (e.index? p.row).map fun row => ⟨row, p.column⟩
  | .column => (e.index? p.column).map fun column => ⟨p.row, column⟩

/-- What is left of a region. -/
def region? : Edit → Region → Option Region
  | insert axis start count, r => some (r.afterInsert axis start count)
  | remove axis start count, r => r.afterRemove? axis start count

/-- A reference that denotes afterwards what it denoted before. -/
def reference : Edit → Reference → Reference
  | insert axis start count, r => r.afterInsert axis start count
  | remove axis start count, r => r.afterRemove axis start count

theorem closed?_opened? {start count i j : Nat} (h : opened? start count i = some j) :
    closed? start count j = some i := by
  unfold opened? at h
  unfold closed?
  split at h
  · cases h
    rename_i hi
    split
    · rfl
    · rcases hi with rfl | hi
      · simp; omega
      · omega
  · split at h
    · cases h
      rw [if_neg (by omega), if_neg (by omega)]
      congr
      omega
    · simp at h

theorem opened?_inj {start count i i' j : Nat} (h : opened? start count i = some j)
    (h' : opened? start count i' = some j) : i = i' := by
  simpa [closed?_opened? h] using (closed?_opened? h')

end Edit

end Spreadsheet
