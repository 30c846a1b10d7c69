import Spreadsheet.Formula.Reading
import Spreadsheet.Grid.Edit

/-! Formulas: a tree together with the faults of the text it was read from. A formula with faults
keeps its tree, follows every edit of the grid, and has no value. -/

namespace Spreadsheet

structure Formula where
  expr : Expr
  diagnostics : List Diagnostic
  deriving BEq

namespace Formula

def ofExpr (e : Expr) : Formula := ⟨e, []⟩

/-- Read a formula; the equals sign may be left out. Places of faults count from the start of
`text`. -/
def ofText (text : String) : Formula :=
  let trimmed := Text.dropBlanks text.toList
  let body := match trimmed with
    | '=' :: rest => rest
    | _ => trimmed
  let body := String.ofList body
  let parsed := Parsed.ofText body
  ⟨parsed.expr, parsed.diagnostics.map (·.movedBy (text.utf8ByteSize - body.utf8ByteSize))⟩

def isValid (f : Formula) : Bool := f.diagnostics.isEmpty

/-- What the formula refers to, from left to right, names included. -/
def references (f : Formula) : List Reference := f.expr.references

/-- Something the formula referred to is gone. -/
def hasInvalidReferences (f : Formula) : Bool := f.references.any fun r => !r.isValid

/-- The formula with its equals sign. -/
def text (f : Formula) : String := "=" ++ f.expr.text

def mapReferences (f : Formula) (g : Reference → Reference) : Formula :=
  { f with expr := f.expr.mapReferences g }

/-- The formula after an edit of the grid: it refers to what it referred to before. -/
def edited (f : Formula) (e : Edit) : Formula := f.mapReferences e.reference

/-- The formula as copied over the given offsets. -/
def shifted (f : Formula) (rows columns : Int) : Formula :=
  f.mapReferences (·.shifted rows columns)

end Formula

end Spreadsheet
