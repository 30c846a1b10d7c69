import Spreadsheet.Store.Line

/-! A grid with values in some of its cells, stored line by line. Lines run along the second of
the two axes: with columns as lines, a walk down a column meets neighbours. Which axis it is
changes the order of `toList`, and which lines count as used once an insertion has pushed cells
off the grid; it never changes what a cell holds. -/

namespace Spreadsheet

/-- A cell as the store finds it: its line, and its index there. -/
structure Slot where
  line : Nat
  index : Nat
  deriving DecidableEq, Repr

namespace Slot

/-- Line by line. -/
instance : Ord Slot := ⟨compareLex (compareOn (·.line)) (compareOn (·.index))⟩

instance : Std.TransOrd Slot :=
  inferInstanceAs (Std.TransCmp (compareLex (compareOn Slot.line) (compareOn Slot.index)))

instance : Std.LawfulEqOrd Slot where
  compare_self {a} := Std.ReflCmp.compare_self
  eq_of_compare {a b} h := by
    obtain ⟨l, i⟩ := a
    obtain ⟨l', i'⟩ := b
    change (compareLex (compareOn line) (compareOn index)) _ _ = .eq at h
    simp only [compareLex, compareOn, Ordering.then_eq_eq, Nat.compare_eq_eq] at h
    simp_all

/-- The slot of a cell when lines are the rows or columns that `axis` says. -/
def ofPosition (axis : Axis) (p : Position) : Slot := ⟨p.index axis, p.index axis.other⟩

def position (axis : Axis) (s : Slot) : Position :=
  match axis with
  | .row => ⟨s.line, s.index⟩
  | .column => ⟨s.index, s.line⟩

@[simp] theorem position_ofPosition (axis : Axis) (p : Position) :
    (ofPosition axis p).position axis = p := by cases axis <;> rfl

@[simp] theorem ofPosition_position (axis : Axis) (s : Slot) :
    ofPosition axis (s.position axis) = s := by cases axis <;> rfl

end Slot

/-- The values in the filled cells of a grid. -/
structure Matrix (α : Type) where
  /-- What the lines are. -/
  axis : Axis
  /-- The lines in use. A line comes into use with its first cell, and goes out of use when a cell
  of it is emptied and none is left. An insertion that pushes its last cells off the grid leaves it
  in use. -/
  lines : Line (Line α)
  /-- How many cells are filled, kept up with each change. -/
  size : Nat
  size_eq : size = lines.total Line.size

namespace Matrix

variable {α β : Type}

def empty (axis : Axis) : Matrix α := ⟨axis, .empty, 0, rfl⟩

instance : Inhabited (Matrix α) := ⟨empty .column⟩

def isEmpty (m : Matrix α) : Bool := m.size == 0

/-- The value in a slot. -/
def slot? (m : Matrix α) (s : Slot) : Option α := (m.lines.get? s.line).bind (·.get? s.index)

def get? (m : Matrix α) (p : Position) : Option α := m.slot? (Slot.ofPosition m.axis p)

/-- The line in which `i` is, be it in use or not. -/
def lineAt (m : Matrix α) (i : Nat) : Line α := (m.lines.get? i).getD .empty

theorem size_eq_lineAt (m : Matrix α) (i : Nat) :
    m.size = (m.lineAt i).size + (m.lines.remove i).total Line.size := by
  rw [m.size_eq, Line.total_eq _ _ i, lineAt]
  cases m.lines.get? i <;> rfl

theorem slot?_eq_lineAt (m : Matrix α) (s : Slot) : m.slot? s = (m.lineAt s.line).get? s.index := by
  unfold slot? lineAt
  cases m.lines.get? s.line with
  | none => exact (Line.get?_empty s.index).symm
  | some line => rfl

def set (m : Matrix α) (p : Position) (a : α) : Matrix α :=
  let s := Slot.ofPosition m.axis p
  { axis := m.axis
    lines := m.lines.set s.line ((m.lineAt s.line).set s.index a)
    size := if (m.get? p).isNone then m.size + 1 else m.size
    size_eq := by
      rw [Line.total_set, Line.size_set, ← slot?_eq_lineAt, m.size_eq_lineAt s.line]
      unfold get?
      split
      · exact Nat.add_right_comm ..
      · rfl }

@[simp] theorem axis_set (m : Matrix α) (p : Position) (a : α) : (m.set p a).axis = m.axis :=
  rfl

theorem lines_set (m : Matrix α) (p : Position) (a : α) : (m.set p a).lines =
    m.lines.set (p.index m.axis) ((m.lineAt (p.index m.axis)).set (p.index m.axis.other) a) :=
  rfl

/-- The lines with another one at `i`, which is in use unless it is empty. -/
def withLine (lines : Line (Line α)) (i : Nat) (line : Line α) : Line (Line α) :=
  if line.isEmpty then lines.remove i else lines.set i line

theorem total_withLine (lines : Line (Line α)) (i : Nat) (line : Line α) :
    (withLine lines i line).total Line.size = line.size + (lines.remove i).total Line.size := by
  unfold withLine
  split
  · next h => rw [Line.isEmpty_iff_size.mp h, Nat.zero_add]
  · exact Line.total_set ..

def remove (m : Matrix α) (p : Position) : Matrix α :=
  let s := Slot.ofPosition m.axis p
  { axis := m.axis
    lines := withLine m.lines s.line ((m.lineAt s.line).remove s.index)
    size := if (m.get? p).isSome then m.size - 1 else m.size
    size_eq := by
      rw [total_withLine, Line.size_remove, ← slot?_eq_lineAt, m.size_eq_lineAt s.line]
      unfold get?
      split
      · next h =>
        obtain ⟨a, ha⟩ := Option.isSome_iff_exists.mp h
        have hpos := Line.size_pos_of_get? ((slot?_eq_lineAt m s).symm.trans ha)
        omega
      · rfl }

@[simp] theorem axis_remove (m : Matrix α) (p : Position) : (m.remove p).axis = m.axis :=
  rfl

theorem lines_remove (m : Matrix α) (p : Position) : (m.remove p).lines =
    withLine m.lines (p.index m.axis)
      ((m.lineAt (p.index m.axis)).remove (p.index m.axis.other)) :=
  rfl

/-- Change the value in a cell, if there is one. -/
def modify (m : Matrix α) (p : Position) (f : α → α) : Matrix α :=
  let s := Slot.ofPosition m.axis p
  { axis := m.axis
    lines := m.lines.modify s.line fun line => line.modify s.index f
    size := m.size
    size_eq := by
      rw [Line.total_modify _ _ fun line => Line.size_modify line _ f]
      exact m.size_eq }

@[simp] theorem axis_modify (m : Matrix α) (p : Position) (f : α → α) :
    (m.modify p f).axis = m.axis :=
  rfl

theorem lines_modify (m : Matrix α) (p : Position) (f : α → α) : (m.modify p f).lines =
    m.lines.modify (p.index m.axis) fun line => line.modify (p.index m.axis.other) f :=
  rfl

/-- Change every value. -/
def map (m : Matrix α) (f : α → β) : Matrix β where
  axis := m.axis
  lines := m.lines.map fun line => line.map f
  size := m.size
  size_eq := by
    rw [Line.total_map _ fun line => Line.size_map line f]
    exact m.size_eq

/-- The cells of a line as the grid has them. -/
def cellsOf (axis : Axis) (c : Nat × List (Nat × α)) : List (Position × α) :=
  c.2.map fun d => ((Slot.mk c.1 d.1).position axis, d.2)

/-- The filled cells line by line. -/
def toList (m : Matrix α) : List (Position × α) :=
  m.lines.toList.flatMap fun c => cellsOf m.axis (c.1, c.2.toList)

/-- The filled cells of a region line by line. -/
def linesIn (m : Matrix α) (r : Region) : List (Position × α) :=
  let across := r.span m.axis
  let along := r.span m.axis.other
  (m.lines.range across.first across.last).flatMap fun c =>
    cellsOf m.axis (c.1, c.2.range along.first along.last)

/-- `c` in its place among cells that go row by row. -/
def insertByRow (c : Position × α) : List (Position × α) → List (Position × α)
  | [] => [c]
  | d :: rest => if (compare c.1 d.1).isLE then c :: d :: rest else d :: insertByRow c rest

/-- The filled cells of a region row by row, each row from left to right. -/
def cellsIn (m : Matrix α) (r : Region) : List (Position × α) :=
  match m.axis with
  | .row => m.linesIn r
  | .column => (m.linesIn r).foldr insertByRow []

/-- The part of the grid that is in use: from the first line in use to the last one, and in them
from the least index of a filled cell to the greatest one. -/
def used? (m : Matrix α) : Option Region := do
  let first ← m.lines.first?
  let last ← m.lines.last?
  let least ← (m.lines.toList.filterMap fun c => c.2.first?.map (·.1)).min?
  let greatest ← (m.lines.toList.filterMap fun c => c.2.last?.map (·.1)).max?
  let p := (Slot.mk first.1 least).position m.axis
  let q := (Slot.mk last.1 greatest).position m.axis
  return .corners p.row p.column q.row q.column

/-- The region with endless sides cut at the last used line, `none` when nothing is left. -/
def clipped? (m : Matrix α) (r : Region) : Option Region :=
  if r.isBounded then some r
  else
    match m.used? with
    | none => none
    | some used =>
      let bottom := if r.bottom = endless then used.bottom else r.bottom
      let right := if r.right = endless then used.right else r.right
      if h : r.overlaps used ∧ r.top ≤ bottom ∧ r.left ≤ right then
        some ⟨⟨r.top, bottom, h.2.1⟩, ⟨r.left, right, h.2.2⟩⟩
      else none

/-- The lines of a span in order. -/
def indices (s : Span) : List Nat := (List.range s.size).map (s.first + ·)

/-- All cells of a region as rows of equal length; of an endless one, those up to the last line in
use. -/
def block (m : Matrix α) (r : Region) : List (List (Option α)) :=
  match m.clipped? r with
  | none => []
  | some r =>
    (indices r.rows).map fun row => (indices r.columns).map fun column => m.get? ⟨row, column⟩

theorem le_of_lines_next? {m : Matrix α} {cursor : Nat} {c : Nat × Line α}
    (h : m.lines.next? cursor = some c) : cursor ≤ c.1 := by
  simpa using List.find?_some h

theorem le_of_lines_previous? {m : Matrix α} {cursor : Nat} {c : Nat × Line α}
    (h : m.lines.previous? cursor = some c) : c.1 ≤ cursor := by
  simpa using List.find?_some h

/-- The first line from `cursor` on whose cell at `index` is filled. Lines that are not in use are
passed over, and the walk ends with the last line that has a number. -/
def nextAcross? (m : Matrix α) (index cursor : Nat) : Option (Nat × α) :=
  match _hline : m.lines.next? cursor with
  | none => none
  | some (line, cells) =>
    match cells.get? index with
    | some a => some (line, a)
    | none => if line < endless then m.nextAcross? index (line + 1) else none
termination_by endless - cursor
decreasing_by
  have hle := le_of_lines_next? ‹_›
  dsimp only at hle
  omega

/-- The last line up to `cursor` whose cell at `index` is filled. -/
def previousAcross? (m : Matrix α) (index cursor : Nat) : Option (Nat × α) :=
  match _hline : m.lines.previous? cursor with
  | none => none
  | some (line, cells) =>
    match cells.get? index with
    | some a => some (line, a)
    | none => if 0 < line then m.previousAcross? index (line - 1) else none
termination_by cursor
decreasing_by
  have hle := le_of_lines_previous? ‹_›
  dsimp only at hle
  omega

/-- The first filled cell from `start` on in a row or column: along a line, or from line to line. -/
def next? (m : Matrix α) (axis : Axis) (i start : Nat) : Option (Nat × α) :=
  if axis = m.axis then (m.lines.get? i).bind (·.next? start) else m.nextAcross? i start

/-- The last filled cell up to `start` in a row or column. -/
def previous? (m : Matrix α) (axis : Axis) (i start : Nat) : Option (Nat × α) :=
  if axis = m.axis then (m.lines.get? i).bind (·.previous? start) else m.previousAcross? i start

/-- A line without its cells in a span, `none` if that leaves it empty. -/
def withoutSpan? (line : Line α) (s : Span) : Option (Line α) :=
  let rest := line.filter fun i _ => !s.contains i
  if rest.isEmpty then none else some rest

/-- The lines without the cells of a region. -/
def linesOutside (m : Matrix α) (r : Region) : Line (Line α) :=
  m.lines.filterMap fun i line =>
    if (r.span m.axis).contains i then withoutSpan? line (r.span m.axis.other) else some line

theorem size_withoutSpan (line : Line α) (s : Span) :
    (withoutSpan? line s).elim 0 Line.size + (line.range s.first s.last).length = line.size := by
  rw [← line.size_outside s]
  unfold withoutSpan?
  dsimp only
  split
  · next h => rw [Line.isEmpty_iff_size.mp h]; rfl
  · rfl

/-- What a region takes out is what is listed for it. -/
theorem total_linesOutside (m : Matrix α) (r : Region) :
    (m.linesOutside r).total Line.size + (m.linesIn r).length = m.lines.total Line.size := by
  unfold linesOutside linesIn
  dsimp only
  rw [Line.total_filterMap, Line.range_eq_filter]
  unfold Line.total
  induction m.lines.toList with
  | nil => rfl
  | cons c cs ih =>
    have hc := size_withoutSpan c.2 (r.span m.axis.other)
    rw [List.map_cons, List.foldr_cons, List.map_cons, List.foldr_cons]
    by_cases h : (r.span m.axis).contains c.1 = true
    · rw [if_pos h, List.filter_cons, if_pos h, List.flatMap_cons, List.length_append, cellsOf,
        List.length_map, ← hc, ← ih]
      exact Nat.add_add_add_comm ..
    · rw [if_neg h, List.filter_cons, if_neg h, ← ih]
      exact Nat.add_assoc ..

/-- The grid without the cells of a region. -/
def removeRegion (m : Matrix α) (r : Region) : Matrix α where
  axis := m.axis
  lines := m.linesOutside r
  size := m.size - (m.linesIn r).length
  size_eq := by
    have h := m.total_linesOutside r
    have h' := m.size_eq
    omega

/-- The lines after an edit. What goes off the grid is lost. An edit of whole lines moves them; an
edit across the lines moves the cells of each, and a removal ends the use of those that are empty
then. -/
def editedLines (m : Matrix α) (e : Edit) : Line (Line α) :=
  if e.axis = m.axis then m.lines.edited e
  else
    let lines := m.lines.map fun line => line.edited e
    match e with
    | .insert .. => lines
    | .remove .. => lines.filter fun _ line => !line.isEmpty

/-- The grid after an edit, with its cells counted anew. -/
def edited (m : Matrix α) (e : Edit) : Matrix α :=
  ⟨m.axis, m.editedLines e, (m.editedLines e).total Line.size, rfl⟩

end Matrix

end Spreadsheet
