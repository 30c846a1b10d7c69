import Spreadsheet.Evaluation.Conversion
import Spreadsheet.Formula.Basic
import Spreadsheet.Value.Order

/-! The value of a formula. Every part of it is computed, whatever the other parts are, and an
error in an operand is the error of the operation. -/

namespace Spreadsheet

namespace Value

def ofResult {α : Type} (make : α → Value) : Except ErrorCode α → Value
  | .ok a => make a
  | .error e => .error e

/-- A number as a result, which must be finite. -/
def ofNumber (x : Float) : Value := if x.isFinite then .number x else .error .badNumber

end Value

namespace Sign

def apply (g : Sign) (v : Value) : Value :=
  Value.ofResult .number <| v.toNumber.map fun x =>
    match g with
    | plus => x
    | minus => -x

end Sign

namespace BinaryOp

/-- The result of an arithmetic operator, if it is one. -/
def arithmetic? : BinaryOp → Option (Float → Float → Value)
  | add => some fun a b => .ofNumber (a + b)
  | subtract => some fun a b => .ofNumber (a - b)
  | multiply => some fun a b => .ofNumber (a * b)
  | divide => some fun a b => if b == 0 then .error .divisionByZero else .ofNumber (a / b)
  | power => some fun a b => .ofNumber (a.pow b)
  | _ => none

/-- Whether a comparison holds of values in this order. -/
def holds (op : BinaryOp) (o : Ordering) : Bool :=
  match op with
  | equal => o == .eq
  | unequal => o != .eq
  | less => o == .lt
  | atMost => o != .gt
  | greater => o == .gt
  | _ => o != .lt

def apply (op : BinaryOp) (a b : Value) : Value :=
  match op.arithmetic? with
  | some f =>
    match a.toNumber, b.toNumber with
    | .ok x, .ok y => f x y
    | .error e, _ | .ok _, .error e => .error e
  | none =>
    if op = concat then
      Value.ofResult .text do return (← a.toText) ++ (← b.toText)
    else Value.ofResult (fun o => .logical (op.holds o)) (a.compare b)

end BinaryOp

namespace Expr

mutual
/-- The expression as an operand. -/
def operand (s : Source) (a : Ambient) : Expr → Operand
  | literal l => .value l.toValue
  | name n =>
    match s.definition? n with
    | some (.value v) => .value v
    | some (.reference r) => .reference r
    | none => .value (.error .unknownName)
  | reference r => .reference r
  | sign g e => .value (g.apply ((operand s a e).toValue s))
  | binary op left right =>
    .value (op.apply ((operand s (a.branch 0) left).toValue s)
      ((operand s (a.branch 1) right).toValue s))
  | paren e => operand s a e
  | call f args =>
    match s.function? f with
    | some g => .value (g.call s a (operands s a 0 args))
    | none => .value (.error .unknownName)
  | array rows => .value (.array (rows.map fun row => row.map Literal.toValue))
  | missing => .missing
/-- The arguments of a call from the `i`-th on. -/
def operands (s : Source) (a : Ambient) (i : Nat) : List Expr → List Operand
  | [] => []
  | e :: rest => operand s (a.branch i) e :: operands s a (i + 1) rest
end

def evaluate (s : Source) (e : Expr) : Value := (e.operand s s.ambient).toValue s

mutual
/-- The names of the functions that are called but not known, as the computation meets them. The
arguments of such a call are not computed. -/
def unknownCalls (s : Source) : Expr → List String
  | sign _ e | paren e => unknownCalls s e
  | binary _ left right => unknownCalls s left ++ unknownCalls s right
  | call f args => if (s.function? f).isSome then unknownCallsIn s args else [f]
  | _ => []
def unknownCallsIn (s : Source) : List Expr → List String
  | [] => []
  | e :: rest => unknownCalls s e ++ unknownCallsIn s rest
end

end Expr

/-- The value of a formula; one with faults has none. -/
def Formula.evaluate (f : Formula) (s : Source) : Value :=
  if f.isValid then f.expr.evaluate s else .error .badValue

end Spreadsheet
