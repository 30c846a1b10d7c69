import Spreadsheet.Evaluation.Source
import Spreadsheet.Value.Coercion

/-! From operands to arguments: each is read as its parameter asks. What cannot be read so becomes
an error argument. -/

namespace Spreadsheet

namespace Argument

def ofResult {α : Type} (make : α → Argument) : Except ErrorCode α → Argument
  | .ok a => make a
  | .error e => .error e

/-- A number must be finite. -/
def ofNumber (v : Value) : Argument :=
  match v.toNumber with
  | .ok x => if x.isFinite then .number x else .error .badNumber
  | .error e => .error e

/-- The numbers and dates among values; the first error or infinite number decides, and all else
is passed over. -/
def numbersOf : List Value → Except ErrorCode (List Float)
  | [] => .ok []
  | .number x :: rest =>
    if x.isFinite then do return x :: (← numbersOf rest) else .error .badNumber
  | .date m :: rest => do return m.serial :: (← numbersOf rest)
  | .error e :: _ => .error e
  | _ :: rest => numbersOf rest

/-- The truth values and numbers among values; the first error decides, and all else is passed
over. -/
def logicalsOf : List Value → Except ErrorCode (List Bool)
  | [] => .ok []
  | .logical b :: rest => do return b :: (← logicalsOf rest)
  | .number x :: rest => do return (x != 0) :: (← logicalsOf rest)
  | .error e :: _ => .error e
  | _ :: rest => logicalsOf rest

def ofNumbers (vs : List Value) : Argument := ofResult .numbers (numbersOf vs)

def ofLogicals (vs : List Value) : Argument := ofResult .logicals (logicalsOf vs)

def ofAny : Value → Argument
  | .error e => .error e
  | v => .value v

def ofBlock : Value → Argument
  | .array rows => .block rows
  | .error e => .error e
  | v => .block [[v]]

/-- Read an operand that is there as its parameter asks. -/
def read (s : Source) (kind : Parameter.Kind) (o : Operand) : Argument :=
  match kind, o with
  | .reference, .reference r => .reference r
  | .reference, .value (.error e) => .error e
  | .reference, _ => .error .badValue
  | .block, o => ofBlock (o.toValue s)
  | .numbers, .reference r =>
    match s.valuesAt r with
    | .ok vs => ofNumbers vs
    | .error e => .error e
  | .numbers, .value (.array rows) => ofNumbers rows.flatten
  | .numbers, o => ofNumber (o.toValue s)
  | .logicals, .reference r =>
    match s.valuesAt r with
    | .ok vs => ofLogicals vs
    | .error e => .error e
  | .logicals, .value (.array rows) => ofLogicals rows.flatten
  | .logicals, o => ofResult .logical (o.toValue s).toLogical
  | .any, o => ofAny (o.toValue s)
  | .number, o =>
    match (o.toValue s).scalar with
    | .ok v => ofNumber v
    | .error e => .error e
  | .text, o => ofResult .text ((o.toValue s).scalar.bind Value.toText)
  | .logical, o => ofResult .logical ((o.toValue s).scalar.bind Value.toLogical)

/-- The argument that parameter `p` makes of an operand. One that is left out counts as empty
where it is required. -/
def ofOperand (s : Source) (p : Parameter) : Operand → Argument
  | .missing => if p.required then read s p.kind (.value .empty) else .missing
  | .reference r => if r.isValid then read s p.kind (.reference r) else .error .badReference
  | o => read s p.kind o

end Argument

/-- Call a function: its parameters read the operands, and an error among them is the result
unless the function accepts errors. -/
def Function.call (f : Function) (s : Source) (a : Ambient) (operands : List Operand) : Value :=
  match Parameter.forArguments? f.parameters operands.length with
  | none => .error .badValue
  | some ps =>
    let args := List.zipWith (Argument.ofOperand s) ps operands
    match if f.acceptsErrors then none else Arguments.firstError? args with
    | some e => .error e
    | none => f.result a args

end Spreadsheet
