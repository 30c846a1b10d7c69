import Spreadsheet.Value.Coercion

/-! The order of values. Texts come before logicals and those before numbers, dates among them;
texts compare without regard to case, and an empty cell is the zero of whatever it meets. -/

namespace Spreadsheet.Value

/-- The place of a value's type in the order of types. -/
def rank : Value → Nat
  | number _ | date _ => 3
  | logical _ => 2
  | _ => 1

/-- What an empty cell stands for beside `v`. -/
def zeroLike : Value → Value
  | number _ | date _ => number 0
  | logical _ => logical false
  | _ => text ""

/-- The order of two numbers; one that is not a number equals everything. -/
def compareNumbers (a b : Float) : Ordering :=
  if a < b then .lt else if b < a then .gt else .eq

def compareLogicals : Bool → Bool → Ordering
  | false, true => .lt
  | true, false => .gt
  | _, _ => .eq

/-- The order of two values of one rank. -/
def compareWithin (rank : Nat) (a b : Value) : Except ErrorCode Ordering :=
  if rank = 3 then do return compareNumbers (← a.toNumber) (← b.toNumber)
  else if rank = 2 then do return compareLogicals (← a.toLogical) (← b.toLogical)
  else do
    let x ← a.toText
    let y ← b.toText
    return compareOfLessAndEq (Text.lower x) (Text.lower y)

/-- The order of two values that are no errors and not empty. -/
def compareFilled (a b : Value) : Except ErrorCode Ordering :=
  if a.rank = b.rank then compareWithin a.rank a b else .ok (Ord.compare a.rank b.rank)

/-- The order of two single values. -/
def compareScalars : Value → Value → Except ErrorCode Ordering
  | error e, _ => .error e
  | _, error e => .error e
  | empty, empty => .ok .eq
  | empty, b => compareFilled b.zeroLike b
  | a, empty => compareFilled a a.zeroLike
  | a, b => compareFilled a b

/-- The order of two values; an error in either is the outcome. -/
def compare (a b : Value) : Except ErrorCode Ordering := do
  compareScalars (← a.scalar) (← b.scalar)

def equals (a b : Value) : Except ErrorCode Bool := do return (← a.compare b) == .eq

end Spreadsheet.Value
