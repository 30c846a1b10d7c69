import Spreadsheet.Function.Basic
import Spreadsheet.Formula.Expr

/-! Where a formula gets what it reads: cells, defined names and functions. Names may stand for
other names, up to a fixed number of steps. -/

namespace Spreadsheet

/-- What a name stands for. -/
inductive Definition where
  | value (v : Value)
  | reference (r : Reference)

structure Source where
  value : Position → Value
  /-- The values in a region that are not empty, row by row. -/
  values : Region → List Value
  /-- All values of a region as a block; of an endless one, those up to the last in use. -/
  block : Region → List (List Value)
  definition? : String → Option Definition
  function? : String → Option Function
  ambient : Ambient

/-- A part of a formula when it is computed, with references still unread, so that a function can
decide how to read them. -/
inductive Operand where
  | value (v : Value)
  | reference (r : Reference)
  | missing

namespace Source

/-- How many names may stand for one another in a row. -/
def nameDepth : Nat := 16

/-- The value under a reference, where names may lead on `depth` times. -/
def read (s : Source) : Nat → Reference → Value
  | depth, r =>
    if r.isValid then
      match r with
      | .single (.place (.cell row column _)) => s.value ⟨row.index, column.index⟩
      | .single (.name n) =>
        match depth with
        | 0 => .error .badReference
        | depth + 1 =>
          match s.definition? n with
          | some (.value v) => v
          | some (.reference r) => s.read depth r
          | none => .error .unknownName
      | .union _ => .error .badValue
      | _ =>
        match r.region? with
        | some region => .array (s.block region)
        | none => .error .badReference
    else .error .badReference

/-- The value of a reference: that of its cell, or the block of its region. -/
def valueAt (s : Source) (r : Reference) : Value := s.read nameDepth r

/-- The values under a reference that are not empty. A name may stand for a reference or a value,
but not for another name. -/
def valuesAt (s : Source) (r : Reference) : Except ErrorCode (List Value) :=
  let ofRegions (r : Reference) :=
    if r.isValid then .ok (r.regions.flatMap s.values) else .error .badReference
  match r with
  | .single (.name n) =>
    match s.definition? n with
    | some (.value v) => .ok (v.items.filter fun v => !v.isEmpty)
    | some (.reference (.single (.name _))) => .error .badReference
    | some (.reference r) => ofRegions r
    | none => .error .unknownName
  | r => ofRegions r

end Source

/-- The value of an operand that stands by itself. -/
def Operand.toValue (s : Source) : Operand → Value
  | value v => v
  | reference r => s.valueAt r
  | missing => .empty

end Spreadsheet
