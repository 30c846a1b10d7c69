import Spreadsheet.Formula.Fault
import Spreadsheet.Function.Registry
import Spreadsheet.Sheet.Vertex

/-! Why an operation on a sheet or a workbook is refused. -/

namespace Spreadsheet

inductive Refusal where
  /-- The formula for a cell has a fault. -/
  | invalidFormula (cell : Position) (fault : Diagnostic)
  /-- Something would read itself along this path. -/
  | circular (path : List Vertex)
  | unknownSheet (name : String)
  | duplicateSheet (name : String)
  | invalidName (name : String)
  | registry (f : Registry.Failure)
  deriving DecidableEq, Repr

def Refusal.message : Refusal → String
  | invalidFormula cell fault =>
    "Invalid formula in " ++ cell.text ++ " at position " ++ toString fault.position ++ ": " ++
      fault.message
  | circular path => "Circular reference: " ++ Vertex.pathText path
  | unknownSheet name => "No sheet named '" ++ name ++ "'"
  | duplicateSheet name => "Sheet '" ++ name ++ "' already exists"
  | invalidName name => "Invalid name: " ++ name
  | registry f => f.message

end Spreadsheet
