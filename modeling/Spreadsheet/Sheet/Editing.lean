import Spreadsheet.Sheet.Calculation

/-! Edits of a sheet. Every edit changes contents, keeps the graph in step, marks what it touched
and then settles; one that is refused leaves things as they were. -/

namespace Spreadsheet.Sheet

/-- Empty a cell that may hold something, without recalculation. -/
def clearQuietly (s : Sheet) (p : Position) (c : Cell) : Sheet :=
  let s := if c.isFormula then s.unlinkCell p else s.prune [.cell p]
  s.markDirty [.cell p]

/-- Empty a cell. Where it holds nothing, no more than the use of its line can end. -/
def clear (s : Sheet) (p : Position) : Outcome Unit :=
  let cleared := { s with cells := s.cells.remove p }
  match s.cell? p with
  | none => ⟨cleared, .ok ()⟩
  | some c => (cleared.clearQuietly p c).settle

/-- Empty every cell of a region, and say how many there were. -/
def clearRegion (s : Sheet) (r : Region) : Outcome Nat :=
  let gone := s.cells.linesIn r
  let s := { s with cells := s.cells.removeRegion r }
  (gone.foldl (fun s c => s.clearQuietly c.1 c.2) s).settle.map fun _ => gone.length

/-- Put a constant into a cell; an empty one clears it. -/
def setValue (s : Sheet) (p : Position) (v : Value) : Outcome Unit :=
  if v.isEmpty then s.clear p
  else
    let wasFormula := s.isFormula p
    let s := { s with cells := s.cells.set p (.ofValue v) }
    let s := if wasFormula then s.unlinkCell p else s
    (s.markDirty [.cell p]).settle

/-- Put back what a cell held before a formula that is refused. -/
def restoreCell (s : Sheet) (p : Position) : Option Cell → Sheet
  | none => { s with cells := s.cells.remove p }.unlinkCell p
  | some old =>
    let s := { s with cells := s.cells.set p old }
    match old.formula? with
    | some f => s.linkFormula p f
    | none => s.unlinkCell p

/-- Put a formula into a cell, unless it has a fault or would read its own result. -/
def setFormula (s : Sheet) (p : Position) (f : Formula) : Outcome Unit :=
  match f.diagnostics with
  | d :: _ => ⟨s, .error (.invalidFormula p d)⟩
  | [] =>
    let old := s.cell? p
    let linked := { s with cells := s.cells.set p (.ofFormula f) }.linkFormula p f
    match linked.graph.cycleFrom? (.cell p) with
    | some path => ⟨linked.restoreCell p old, .error (.circular path)⟩
    | none => (linked.markDirty [.cell p]).settle

/-- Put contents into a cell, or clear it. -/
def setContents (s : Sheet) (p : Position) : Option Contents → Outcome Unit
  | none => s.clear p
  | some (.value v) => s.setValue p v
  | some (.formula f) => s.setFormula p f

/-- Do what typing `input` into a cell does. -/
def setInput (s : Sheet) (p : Position) (input : String) : Outcome Unit :=
  s.setContents p (Contents.ofInput? s.settings.datePatterns input)

/-- The contents of a cell as they are when copied to another. -/
def copied? (s : Sheet) (source target : Position) : Option Contents :=
  (s.cell? source).map fun c =>
    match c.contents with
    | .formula f => .formula (f.shifted ((target.row : Int) - source.row)
        ((target.column : Int) - source.column))
    | .value v => .value v

/-- Copy a cell; the free coordinates of a formula move along. -/
def copy (s : Sheet) (source target : Position) : Outcome Unit :=
  s.setContents target (s.copied? source target)

/-- A name is a word of letters, digits and underscores that is no cell and no truth value. -/
def isName (name : String) : Bool :=
  Registry.isName name.toList && (Reference.read? name).isNone && (Value.readLogical? name).isNone

/-- Put back the definition before one that is refused. -/
def restoreName (s : Sheet) (name : String) : Option Definition → Sheet
  | none => ({ s with names := s.names.erase name }.link (.name name) []).prune [.name name]
  | some old => { s.linkName name old with names := s.names.insert name old }

/-- Let a name stand for something, unless it would stand for itself. -/
def define (s : Sheet) (name : String) (d : Definition) : Outcome Unit :=
  if !isName name then ⟨s, .error (.invalidName name)⟩
  else
    let key := Text.upperAscii name
    let old := s.names[key]?
    let linked := { s with names := s.names.insert key d }.linkName key d
    match linked.graph.cycleFrom? (.name key) with
    | some path => ⟨linked.restoreName key old, .error (.circular path)⟩
    | none => (linked.markDirty [.name key]).settle

/-- Let a name stand for nothing, and say whether it stood for something. -/
def undefine (s : Sheet) (name : String) : Outcome Bool :=
  let key := Text.upperAscii name
  if s.names.contains key then
    let s := { s with names := s.names.erase key }
    let s := (s.link (.name key) []).prune [.name key]
    (s.markDirty [.name key]).settle.map fun _ => true
  else ⟨s, .ok false⟩

/-- A definition that denotes after an edit what it denoted before. -/
def editedDefinition (e : Edit) : Definition → Definition
  | .reference r => .reference (e.reference r)
  | .value v => .value v

/-- Insert or remove rows or columns. Every formula is computed again. -/
def edit (s : Sheet) (e : Edit) : Outcome Unit :=
  if e.count = 0 then ⟨s, .ok ()⟩
  else
    let s := { s with
      cells := (s.cells.edited e).map fun c => c.mapFormula fun f => f.edited e
      formats := s.formats.edited e
      names := s.names.map fun _ d => editedDefinition e d }
    let s := s.relinked
    (s.markDirty (s.formulas.map fun c => .cell c.1)).settle

/-- Format every cell of a region, filled or not. -/
def setFormat (s : Sheet) (r : Region) (f : NumberFormat) : Sheet :=
  match f with
  | .general => { s with formats := s.formats.clear r }
  | f => { s with formats := s.formats.add r f }

end Spreadsheet.Sheet
