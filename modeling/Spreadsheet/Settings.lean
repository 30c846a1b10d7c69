import Spreadsheet.Calendar.Pattern
import Spreadsheet.Grid.Position

/-! What can be set for a sheet: how it stores and recalculates, and which dates it reads. -/

namespace Spreadsheet

structure Settings where
  /-- The lines that the cells are stored by. -/
  storageAxis : Axis := .column
  /-- Recalculate after every edit, unless calculation is paused. -/
  autoCalculate : Bool := true
  /-- A range of more cells than this is one vertex of the dependency graph. -/
  maxDependencyCells : Nat := 256
  /-- The forms of a date, tried in turn on what is typed in. -/
  datePatterns : List String := Calendar.defaultPatterns
  deriving DecidableEq, Repr

instance : Inhabited Settings := ⟨{}⟩

end Spreadsheet
