import Spreadsheet.Evaluation.Basic

/-! Functions on truth values and errors, and the choice between values. -/

namespace Spreadsheet.Builtin

def logicalResult : Except ErrorCode Bool → Value
  | .ok b => .logical b
  | .error e => .error e

/-- The value for the outcome of a condition, `FALSE` where none is given for it. -/
def choose (args : Arguments) : Value :=
  match args.logical 0 with
  | .ok true => args.value 1
  | .ok false =>
    match args.at? 2 with
    | none | some .missing => .logical false
    | some _ => args.value 2
  | .error e => .error e

/-- Whether `test` holds of the truth values, of which there must be one. -/
def ofAll (test : List Bool → Bool) (args : Arguments) : Value :=
  logicalResult do
    let bs ← args.logicals
    if bs.isEmpty then .error .badValue else return test bs

def and (args : Arguments) : Value := ofAll (·.all id) args

def or (args : Arguments) : Value := ofAll (·.any id) args

def not (args : Arguments) : Value := logicalResult ((args.logical 0).map (!·))

/-- The value, or the fallback when it is an error. -/
def ifError (args : Arguments) : Value :=
  match args.at? 0 with
  | some (.error _) => args.value 1
  | _ => args.value 0

def isError (args : Arguments) : Value :=
  match args.at? 0 with
  | some (.error _) => .logical true
  | _ => .logical false

def isNumber (args : Arguments) : Value :=
  match args.at? 0 with
  | some (.value (.number _)) | some (.value (.date _)) => .logical true
  | _ => .logical false

end Spreadsheet.Builtin
