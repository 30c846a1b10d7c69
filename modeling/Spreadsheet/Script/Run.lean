import Spreadsheet.Script.Statement

/-! Running a script as one batch: calculation waits until the last statement, or until the first
one that is refused. -/

namespace Spreadsheet

/-- A statement that was refused, and why. -/
structure ScriptFailure where
  line : ScriptLine
  refusal : Refusal

namespace Sheet

/-- Do what a statement says. -/
def perform (s : Sheet) : Statement → Outcome Unit
  | .assign cell input => s.setInput cell input
  | .define name definition => s.define name definition
  | .format region format => ⟨s.setFormat region format, .ok ()⟩

/-- Do statements one after the other, up to the first that is refused. -/
def performAll (s : Sheet) : List ScriptLine → Sheet × Option ScriptFailure
  | [] => (s, none)
  | line :: rest =>
    let o := s.perform line.statement
    match o.answer with
    | .ok _ => o.sheet.performAll rest
    | .error refusal => (o.sheet, some ⟨line, refusal⟩)

/-- What a refusal says that belongs to a line of a script. -/
def refusedAt (line : Nat) (r : Refusal) : String :=
  "Error at line " ++ toString line ++ ": " ++ r.message

/-- Run a script; the outcome names the line that was refused. A calculation that is refused has
line 0. -/
def runScript (s : Sheet) (lines : List ScriptLine) : Sheet × Option (Nat × Refusal) :=
  let (s, failure) := s.pause.performAll lines
  let o := s.resume
  match failure, o.answer with
  | some f, _ => (o.sheet, some (f.line.number, f.refusal))
  | none, .error r => (o.sheet, some (0, r))
  | none, .ok _ => (o.sheet, none)

end Sheet

end Spreadsheet
