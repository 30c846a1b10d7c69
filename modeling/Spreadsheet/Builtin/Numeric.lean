import Spreadsheet.Evaluation.Basic

/-! Arithmetic functions: sums and extremes, rounding, roots, powers, and numbers by chance. -/

namespace Spreadsheet.Builtin

/-- A number as the result of a function, which must be finite. -/
def numberResult : Except ErrorCode Float → Value
  | .ok x => .ofNumber x
  | .error e => .error e

/-- The sum from the left; no numbers at all give negative zero. -/
def total (xs : List Float) : Float := xs.foldl (· + ·) (-0.0)

def sum (args : Arguments) : Value := numberResult (args.numbers.map total)

def average (args : Arguments) : Value :=
  numberResult do
    let xs ← args.numbers
    if xs.isEmpty then .error .divisionByZero
    else return total xs / Float.ofNat xs.length

/-- The first extreme of a list under `better`, where anything is better than what is no number. -/
def extreme (better : Float → Float → Bool) : List Float → Float
  | [] => 0
  | x :: rest => rest.foldl (fun best y => if better y best || best.isNaN then y else best) x

def min (args : Arguments) : Value :=
  numberResult (args.numbers.map (extreme fun a b => a < b))

def max (args : Arguments) : Value :=
  numberResult (args.numbers.map (extreme fun a b => b < a))

/-- Numbers and dates among all values, blocks included, counted up to the largest 64-bit
number. -/
def count (args : Arguments) : Value :=
  let counted : Value → Bool
    | .number _ | .date _ => true
    | _ => false
  let counts := args.map fun
    | .value v => v.items.countP counted
    | _ => 0
  .number (Float.ofNat (Min.min (counts.foldr (· + ·) 0) (Nat.pow 2 64 - 1)))

def abs (args : Arguments) : Value := numberResult ((args.number 0).map Float.abs)

/-- The most decimal places that a function deals with. -/
def maxPlaces : Nat := 12

/-- `places` without its fraction, if it is at most `maxPlaces` either way. -/
def wholePlaces? (places : Float) : Option Int :=
  let n := Number.wholePart places
  if places.isFinite ∧ n.natAbs ≤ maxPlaces then some n else none

/-- Negative places round to tens, hundreds and so on. -/
def round (args : Arguments) : Value :=
  numberResult do
    let x ← args.number 0
    match wholePlaces? (← args.numberOr 1 0) with
    | none => .error .badValue
    | some places =>
      let factor := Float.ofNat (Nat.pow 10 places.natAbs)
      return if 0 ≤ places then Number.rounded (x * factor) / factor
        else Number.rounded (x / factor) * factor

def sqrt (args : Arguments) : Value :=
  numberResult do
    let x ← args.number 0
    if x < 0 then .error .badNumber else return x.sqrt

def power (args : Arguments) : Value :=
  numberResult do return (← args.number 0).pow (← args.number 1)

/-- A number from 0 up to but not including 1. -/
def rand (a : Ambient) (_ : Arguments) : Value :=
  .number (Float.ofNat (a.draw % Nat.pow 2 53) / Float.ofNat (Nat.pow 2 53))

/-- A bound for chance, cut to what 64 bits hold. -/
def clampInt (n : Int) : Int := Max.max (-(Int.pow 2 63)) (Min.min n (Int.pow 2 63 - 1))

/-- A whole bound, where an infinite one lies beyond all others. -/
def wholeBound (whole : Float → Int) (x : Float) : Int :=
  if x.isFinite then whole x else if x < 0 then -(Int.pow 2 1100) else Int.pow 2 1100

/-- A whole number between two bounds, both included. -/
def randInt (a : Ambient) (args : Arguments) : Value :=
  numberResult do
    let low ← args.number 0
    let high ← args.number 1
    let first := wholeBound Number.ceilingInt low
    let last := wholeBound Number.floorInt high
    if low.isNaN || high.isNaN || last < first then .error .badNumber
    else
      let first := clampInt first
      let count := (clampInt last - first).toNat + 1
      return Float.ofInt (first + (a.draw % count : Nat))

end Spreadsheet.Builtin
