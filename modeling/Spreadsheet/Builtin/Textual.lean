import Spreadsheet.Builtin.Numeric
import Spreadsheet.Text.Case

/-! Functions that make or measure texts. -/

namespace Spreadsheet.Builtin

def textResult : Except ErrorCode String → Value
  | .ok s => .text s
  | .error e => .error e

/-- The number of decimal places at argument `i`, two unless it is given. -/
def placesAt (args : Arguments) (i : Nat) : Except ErrorCode Nat := do
  match wholePlaces? (← args.numberOr i 2) with
  | some places => if places < 0 then .error .badValue else return places.toNat
  | none => .error .badValue

def fixed (args : Arguments) : Value :=
  textResult do
    let x ← args.number 0
    return Number.fixedText x (← placesAt args 1)

def money (args : Arguments) : Value :=
  textResult do
    let x ← args.number 0
    let symbol ← args.textOr 1 "$"
    return Number.moneyText x symbol (← placesAt args 2)

def length (args : Arguments) : Value :=
  numberResult ((args.text 0).map fun s => Float.ofNat s.length)

def upper (args : Arguments) : Value := textResult ((args.text 0).map Text.upper)

def lower (args : Arguments) : Value := textResult ((args.text 0).map Text.lower)

/-- The values one after another, blocks row by row. -/
def concat (args : Arguments) : Value :=
  let items := args.flatMap fun
    | .value v => v.items
    | _ => []
  textResult ((items.mapM Value.toText).map String.join)

end Spreadsheet.Builtin
