import Spreadsheet.Builtin.Table
import Spreadsheet.Sheet.Editing

/-! Workbooks: sheets of different names that share their settings and functions. -/

namespace Spreadsheet

structure Workbook where
  sheets : List Sheet
  functions : Registry
  /-- The settings of sheets that are added. -/
  settings : Settings
  ambient : Ambient

namespace Workbook

def empty (settings : Settings) (ambient : Ambient) : Workbook :=
  ⟨[], Builtin.registry, settings, ambient⟩

/-- The sheet of a name in any case of its letters from `a` to `z`. -/
def isNamed (name : String) (s : Sheet) : Bool := Text.sameIgnoringCase s.name name

def sheet? (w : Workbook) (name : String) : Option Sheet := w.sheets.find? (isNamed name)

def names (w : Workbook) : List String := w.sheets.map (·.name)

/-- Add an empty sheet behind the others. -/
def add (w : Workbook) (name : String) : Except Refusal Workbook :=
  let name := Text.trim name
  if name.isEmpty then .error (.invalidName name)
  else if (w.sheet? name).isSome then .error (.duplicateSheet name)
  else .ok { w with
    sheets := w.sheets ++ [.empty name w.settings w.functions (w.ambient.branch w.sheets.length)] }

/-- Remove a sheet, and give it. -/
def remove (w : Workbook) (name : String) : Except Refusal (Sheet × Workbook) :=
  match w.sheet? name with
  | none => .error (.unknownSheet name)
  | some s => .ok (s, { w with sheets := w.sheets.eraseP (isNamed name) })

/-- The sheets with the first of a name replaced. -/
def replaceFirst (name : String) (t : Sheet) : List Sheet → List Sheet
  | [] => []
  | s :: rest => if isNamed name s then t :: rest else s :: replaceFirst name t rest

/-- Do something to the sheet of a name. -/
def on {α : Type} (w : Workbook) (name : String) (f : Sheet → Outcome α) :
    Except Refusal α × Workbook :=
  match w.sheet? name with
  | none => (.error (.unknownSheet name), w)
  | some s =>
    let o := f s
    (o.answer, { w with sheets := replaceFirst name o.sheet w.sheets })

/-- Do something to one sheet after the other, up to the first that refuses, and add up the
answers. -/
def each (f : Sheet → Outcome Nat) : List Sheet → Except Refusal Nat × List Sheet
  | [] => (.ok 0, [])
  | s :: rest =>
    let o := f s
    match o.answer with
    | .error e => (.error e, o.sheet :: rest)
    | .ok n =>
      let (answer, rest) := each f rest
      (answer.map (n + ·), o.sheet :: rest)

def onEach (w : Workbook) (f : Sheet → Outcome Nat) : Except Refusal Nat × Workbook :=
  let (answer, sheets) := each f w.sheets
  (answer, { w with sheets })

def pause (w : Workbook) : Workbook := { w with sheets := w.sheets.map (·.pause) }

/-- Resume calculation on every sheet, and say how many formulas were computed. -/
def resume (w : Workbook) : Except Refusal Nat × Workbook := w.onEach (·.resume)

/-- Calculate every sheet, and say how many formulas were computed. -/
def calculate (w : Workbook) : Except Refusal Nat × Workbook := w.onEach (·.calculate)

/-- Let every sheet know a function, and compute all formulas. -/
def register (w : Workbook) (name : String) (f : Function) : Except Refusal Unit × Workbook :=
  match w.functions.register name f with
  | .error e => (.error (.registry e), w)
  | .ok functions =>
    let (answer, w) := { w with functions }.onEach (·.setFunctions functions)
    (answer.map fun _ => (), w)

end Workbook

end Spreadsheet
