import Spreadsheet.Sheet.Links

/-! Recalculation: every formula that depends on an edit is computed again, each after all that it
reads. -/

namespace Spreadsheet

/-- What an operation leaves: the sheet, and an answer unless the operation was refused. -/
structure Outcome (α : Type) where
  sheet : Sheet
  answer : Except Refusal α

namespace Outcome

def map {α β : Type} (f : α → β) (o : Outcome α) : Outcome β := ⟨o.sheet, o.answer.map f⟩

end Outcome

namespace Sheet

def markDirty (s : Sheet) (vs : List Vertex) : Sheet :=
  { s with dirty := vs.foldl (·.insert ·) s.dirty }

/-- The edited vertices, with the regions around edited cells. -/
def roots (s : Sheet) : List Vertex :=
  s.dirty.toList.flatMap fun v =>
    match v with
    | .cell p => v :: s.regionsAround p
    | _ => [v]

/-- All that depends on an edit. -/
def affected (s : Sheet) : Std.ExtTreeSet Vertex := s.graph.closure s.roots

/-- All that depends on an edit, each after what it reads; or a cycle. -/
def schedule (s : Sheet) : Except (List Vertex) (List Vertex) := s.graph.sortWithin s.affected

/-- Compute the formula of a cell. -/
def evaluateCell (s : Sheet) (p : Position) : Sheet :=
  { s with cells := s.cells.modify p (·.evaluated (s.sourceFor p)) }

/-- Compute the formulas of the cells among `vs`, one after the other. -/
def evaluateAll (s : Sheet) (vs : List Vertex) : Sheet :=
  (vs.filterMap Vertex.cell?).foldl evaluateCell s

/-- How many of the vertices are cells with formulas. -/
def countFormulas (s : Sheet) (vs : List Vertex) : Nat :=
  (vs.filterMap Vertex.cell?).countP s.isFormula

/-- Compute every formula that depends on an edit, and say how many there were. When they have no
order, the edits go on waiting. -/
def calculate (s : Sheet) : Outcome Nat :=
  if s.dirty.isEmpty then ⟨s, .ok 0⟩
  else
    match s.schedule with
    | .error path => ⟨s, .error (.circular path)⟩
    | .ok order => ⟨{ s with dirty := ∅ }.evaluateAll order, .ok (s.countFormulas order)⟩

/-- Compute every formula. -/
def calculateAll (s : Sheet) : Outcome Nat :=
  (s.markDirty (s.formulas.map fun c => .cell c.1)).calculate

/-- Calculation follows edits at once. -/
def isLive (s : Sheet) : Bool := s.settings.autoCalculate && s.pauseDepth == 0

/-- Finish an edit: recalculate, unless that has to wait. -/
def settle (s : Sheet) : Outcome Unit :=
  if s.isLive then s.calculate.map fun _ => () else ⟨s, .ok ()⟩

/-- Let edits wait until they are resumed as often as they are paused. -/
def pause (s : Sheet) : Sheet := { s with pauseDepth := s.pauseDepth + 1 }

/-- Undo a pause; with the last one undone, recalculate. -/
def resume (s : Sheet) : Outcome Nat :=
  let s := { s with pauseDepth := s.pauseDepth - 1 }
  if s.isLive then s.calculate else ⟨s, .ok 0⟩

def setAutoCalculate (s : Sheet) (on : Bool) : Sheet :=
  { s with settings := { s.settings with autoCalculate := on } }

/-- Use other functions, and compute every formula with them. -/
def setFunctions (s : Sheet) (r : Registry) : Outcome Nat := { s with functions := r }.calculateAll

/-- Let volatile functions see another time and chance from now on. -/
def withAmbient (s : Sheet) (a : Ambient) : Sheet := { s with ambient := a }

end Sheet

end Spreadsheet
