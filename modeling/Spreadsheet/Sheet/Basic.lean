import Std.Data.ExtTreeSet
import Spreadsheet.Dependency.Order
import Spreadsheet.Settings
import Spreadsheet.Sheet.Cell
import Spreadsheet.Sheet.Format
import Spreadsheet.Sheet.Refusal
import Spreadsheet.Store.Matrix
import Spreadsheet.Store.Tagging

/-! Sheets: cells with their formats, defined names, and what is known of who depends on whom.
This module holds the type and the questions that can be asked of it. -/

namespace Spreadsheet

structure Sheet where
  name : String
  settings : Settings
  functions : Registry
  cells : Matrix Cell
  formats : Tagging NumberFormat
  /-- What names stand for; their letters from `a` to `z` are in upper case. -/
  names : Std.ExtTreeMap String Definition
  /-- Who reads whom: what every formula and every name refers to, and the formula cells in every
  region that is a vertex. -/
  graph : Graph Vertex
  /-- What was edited since the last calculation. -/
  dirty : Std.ExtTreeSet Vertex
  /-- How many times calculation was paused and not yet resumed. -/
  pauseDepth : Nat
  /-- The time and chance that volatile functions see. -/
  ambient : Ambient

namespace Sheet

def empty (name : String) (settings : Settings) (functions : Registry) (ambient : Ambient) :
    Sheet :=
  ⟨name, settings, functions, .empty settings.storageAxis, .empty, ∅, .empty, ∅, 0, ambient⟩

def cell? (s : Sheet) (p : Position) : Option Cell := s.cells.get? p

/-- The current value of a cell. -/
def value (s : Sheet) (p : Position) : Value := ((s.cell? p).map (·.value)).getD .empty

def formula? (s : Sheet) (p : Position) : Option Formula := (s.cell? p).bind (·.formula?)

def isFormula (s : Sheet) (p : Position) : Bool := (s.formula? p).isSome

def definition? (s : Sheet) (name : String) : Option Definition := s.names[Text.upperAscii name]?

/-- The filled cells of a region row by row. -/
def cellsIn (s : Sheet) (r : Region) : List (Position × Cell) := s.cells.cellsIn r

/-- The cells that hold formulas, as they are stored. -/
def formulas (s : Sheet) : List (Position × Formula) :=
  s.cells.toList.filterMap fun c => c.2.formula?.map fun f => (c.1, f)

/-- The values of a region that are not empty, row by row. -/
def valuesIn (s : Sheet) (r : Region) : List Value :=
  ((s.cellsIn r).map (·.2.value)).filter fun v => !v.isEmpty

/-- All values of a region as a block. -/
def blockOf (s : Sheet) (r : Region) : List (List Value) :=
  (s.cells.block r).map fun row => row.map fun c => (c.map (·.value)).getD .empty

/-- What formulas read when they are computed with the given chance. -/
def source (s : Sheet) (ambient : Ambient) : Source :=
  ⟨s.value, s.valuesIn, s.blockOf, s.definition?, s.functions.find?, ambient⟩

/-- What the formula of a cell reads. Each cell has a chance of its own. -/
def sourceFor (s : Sheet) (p : Position) : Source :=
  s.source ((s.ambient.branch p.row).branch p.column)

/-- The value that a formula has on the sheet without being stored. -/
def evaluate (s : Sheet) (f : Formula) : Value := f.evaluate (s.source s.ambient)

/-- Edits wait until calculation is resumed. -/
def isPaused (s : Sheet) : Bool := 0 < s.pauseDepth

/-- Edits wait for a calculation. -/
def needsCalculation (s : Sheet) : Bool := !s.dirty.isEmpty

def formatAt (s : Sheet) (p : Position) : NumberFormat := (s.formats.get? p).getD .general

/-- The text that is shown for a cell. -/
def display (s : Sheet) (p : Position) : String := (s.formatAt p).apply (s.value p)

/-- The next filled cell after `p` in its row or column. -/
def next? (s : Sheet) (axis : Axis) (p : Position) : Option Position :=
  let slot := Slot.ofPosition axis p
  (s.cells.next? axis slot.line (slot.index + 1)).map fun c =>
    (Slot.mk slot.line c.1).position axis

/-- The last filled cell before `p` in its row or column. -/
def previous? (s : Sheet) (axis : Axis) (p : Position) : Option Position :=
  let slot := Slot.ofPosition axis p
  if slot.index = 0 then none
  else (s.cells.previous? axis slot.line (slot.index - 1)).map fun c =>
    (Slot.mk slot.line c.1).position axis

/-- The sheet in one line, as counts of what it has. -/
def summary (s : Sheet) : String :=
  "Sheet \x7b name: " ++ Text.escaped s.name ++ ", cells: " ++ toString s.cells.size ++
    ", formats: " ++ toString s.formats.size ++ ", vertices: " ++ toString s.graph.size ++
    ", names: " ++ toString s.names.size ++ " \x7d"

end Sheet

end Spreadsheet
