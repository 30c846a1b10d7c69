import Spreadsheet.Builtin.Table
import Spreadsheet.CommandLine.Options
import Spreadsheet.Script.Run
import Spreadsheet.Settings.Loading

/-! The program as a function: from its arguments and the files around it to what it prints. -/

namespace Spreadsheet.CommandLine

/-- What the program leaves: the lines of its two outputs, and its exit code. -/
structure Report where
  output : List String := []
  messages : List String := []
  exitCode : Nat := 0
  deriving DecidableEq, Repr

namespace Report

/-- More messages in front. -/
def after (messages : List String) (r : Report) : Report :=
  { r with messages := messages ++ r.messages }

/-- A program that ends with an error. -/
def failed (message : String) : Report :=
  { messages := ["Error: " ++ message], exitCode := 1 }

end Report

/-- What the program finds around it. -/
structure Surroundings where
  files : Files
  /-- Where the user's own settings would be. -/
  ownSettings : Option String
  ambient : Ambient

def debug (text : String) : String := "[DEBUG] " ++ text

def warning (text : String) : String := "[WARN] " ++ text

/-- What is said of a calculation that is about to happen: each call of an unknown function, then
how many formulas there were. -/
def calculationLog (s : Sheet) : List String :=
  if !s.isLive || s.dirty.isEmpty then []
  else
    match s.schedule with
    | .error _ => []
    | .ok order =>
      let formulas := (order.filterMap Vertex.cell?).filterMap s.formula?
      (formulas.flatMap fun f => f.expr.unknownCalls (s.source s.ambient)).map
          (fun name => debug ("unknown function " ++ name)) ++
        [debug ("sheet '" ++ s.name ++ "': recalculated " ++ toString (s.countFormulas order) ++
          " formulas (" ++ toString s.affected.size ++ " vertices affected)")]

/-- What is said of a refused formula. -/
def formulaLog (cell : Position) : Refusal → List String
  | .invalidFormula _ fault => [warning ("rejected formula in " ++ cell.text ++ ": " ++ fault.text)]
  | r@(.circular _) => [warning ("rejected formula in " ++ cell.text ++ ": " ++ r.message)]
  | _ => []

/-- What is said of a refused statement. -/
def statementLog : Statement → Refusal → List String
  | .assign cell _, r => formulaLog cell r
  | .define name _, r@(.circular _) =>
    [warning ("rejected definition of " ++ Text.upperAscii name ++ ": " ++ r.message)]
  | _, _ => []

/-- A step of the program: the log it adds, then what it leaves or why the program ends. -/
structure Progress (α : Type) where
  log : List String
  result : Except String α

/-- End the batch of edits on a sheet. -/
def resumeLogged (s : Sheet) : List String × Outcome Nat :=
  (calculationLog { s with pauseDepth := s.pauseDepth - 1 }, s.resume)

/-- Load a script into a sheet. -/
def loadScript (files : Files) (path : String) (s : Sheet) : Progress Sheet :=
  let failed (message : String) : Except String Sheet :=
    .error ("failed to load " ++ path ++ ": " ++ message)
  match (files path).text with
  | .error fault => ⟨[], failed ("IO error: " ++ fault.message ++ ": " ++ fault.message)⟩
  | .ok text =>
    match ScriptLine.readAll text with
    | .error fault => ⟨[], failed fault.message⟩
    | .ok lines =>
      let counted := debug (path ++ ": " ++ toString lines.length ++ " statements")
      let (s, failure) := s.pause.performAll lines
      let refused := match failure with
        | some f => statementLog f.line.statement f.refusal
        | none => []
      let (calculated, o) := resumeLogged s
      let log := counted :: refused ++ calculated
      let refusedAt (line : Nat) (r : Refusal) : Except String Sheet :=
        failed (Sheet.refusedAt line r ++ ": " ++ r.message)
      match failure, o.answer with
      | some f, _ => ⟨log, refusedAt f.line.number f.refusal⟩
      | none, .error r => ⟨log, refusedAt 0 r⟩
      | none, .ok _ => ⟨log, .ok o.sheet⟩

/-- The cell to the right of all that is in use, in the first row. -/
def freeCell (s : Sheet) : Position :=
  ⟨0, (s.cells.used?.map fun used => min (used.right + 1) endless).getD 0⟩

/-- Evaluate a formula in a free cell of a sheet. -/
def evaluateCommand (s : Sheet) (text : String) : Progress Value :=
  let p := freeCell s
  let failed (r : Refusal) : Except String Value :=
    .error ("cannot evaluate '" ++ text ++ "': " ++ r.message)
  let staged := s.pause.setFormula p (.ofText text)
  match staged.answer with
  | .error r => ⟨formulaLog p r, failed r⟩
  | .ok _ =>
    let (log, o) := resumeLogged staged.sheet
    match o.answer with
    | .error r => ⟨log, failed r⟩
    | .ok _ => ⟨log, .ok (o.sheet.value p)⟩

/-- The filled cells and what they show, row by row. -/
def listing (s : Sheet) : List String :=
  (s.cellsIn .all).map fun c => c.1.text ++ "\t" ++ s.display c.1

/-- What is printed once the sheet is loaded. -/
def answer (o : Options) (s : Sheet) : Report :=
  let shown (log : List String) : List String := if o.verbose then log else []
  match o.command with
  | none => { output := listing s }
  | some text =>
    let p := evaluateCommand s text
    .after (shown p.log) <|
      match p.result with
      | .error message => .failed message
      | .ok v => { output := [v.layout], exitCode := if v.isError then 1 else 0 }

/-- What is said of settings that are not as they should be. A file that is not found is not
logged. -/
def settingsLog (w : Settings.Warning) : List String :=
  match w with
  | .notFound _ => []
  | w => [warning w.message]

/-- Run the program with options that ask for something. -/
def perform (o : Options) (w : Surroundings) (read : Settings.Reader := Settings.ofText?) :
    Report :=
  let shown (log : List String) : List String := if o.verbose then log else []
  let (settings, warnings) := Settings.load w.files o.settings w.ownSettings read
  let s := Sheet.empty "Sheet1" settings Builtin.registry w.ambient
  let said := shown (warnings.flatMap settingsLog) ++ warnings.map fun w => "Warning: " ++ w.message
  .after said <|
    match o.script with
    | none => answer o s
    | some path =>
      let p := loadScript w.files path s
      .after (shown p.log) <|
        match p.result with
        | .error message => .failed message
        | .ok s => answer o s

/-- Run the program. -/
def run (arguments : List String) (w : Surroundings)
    (read : Settings.Reader := Settings.ofText?) : Report :=
  match Options.read arguments with
  | .error m => { messages := m.lines, exitCode := m.exitCode }
  | .ok o => perform o w read

end Spreadsheet.CommandLine
