import Spreadsheet.Number.Magnitude

/-! How numbers are written: always positionally, without an exponent. The shortest form has the
fewest digits that still read back as the same number; the fixed form rounds the exact value. -/

namespace Spreadsheet.Number

/-- The reals that round to one number, as an interval in quarter units, with the number inside. -/
structure Neighbourhood where
  lower : Nat
  value : Nat
  upper : Nat
  /-- The ends belong to it. -/
  closed : Bool

def Neighbourhood.ofNumber (x : Float) : Neighbourhood where
  lower := 4 * units x - 2 * spacingBelow x
  value := 4 * units x
  upper := 4 * units x + 2 * spacing x
  closed := storedFraction x % 2 == 0

/-- Whether `lower ≤ point ≤ upper` with everything but `point` scaled. -/
def Neighbourhood.contains (i : Neighbourhood) (scale point : Nat) : Bool :=
  if i.closed then i.lower * scale ≤ point && point ≤ i.upper * scale
  else i.lower * scale < point && point < i.upper * scale

/-- The multiple of `10 ^ exponent` inside the interval that is nearest to its number, the larger
of two that are equally near. -/
def Neighbourhood.onGrid? (i : Neighbourhood) (exponent : Int) : Option Nat :=
  let scale := Nat.pow 10 (-exponent).toNat
  let step := 4 * unitsPerOne * Nat.pow 10 exponent.toNat
  let value := i.value * scale
  let below := value / step
  let above := below + 1
  match i.contains scale (below * step), i.contains scale (above * step) with
  | true, true => some (if 2 * value < (below + above) * step then below else above)
  | true, false => some below
  | false, true => some above
  | false, false => none

/-- A number in decimal: `digits * 10 ^ exponent`. -/
structure Decimal where
  digits : Nat
  exponent : Int
  deriving DecidableEq

/-- An exponent at which the power of ten exceeds a number of this size. -/
def exponentAbove (size : Nat) : Int :=
  ((Nat.log2 size : Int) - 1073) * 30103 / 100000 + 2

/-- The decimal form of a positive number with the fewest digits that reads back as it: the
coarsest grid with a point in its neighbourhood. Seventeen digits always suffice. -/
def shortest (x : Float) : Decimal :=
  let i := Neighbourhood.ofNumber x
  let start := exponentAbove (units x)
  let tries := (List.range 24).map fun (n : Nat) => start - n
  let hit := tries.findSome? fun e => (i.onGrid? e).map fun d => (⟨d, e⟩ : Decimal)
  hit.getD ⟨0, 0⟩

/-- The digits of `n` with a point before the last `places` of them. -/
def withPoint (n places : Nat) : List Char :=
  let digits := Nat.toDigits 10 n
  if places = 0 then digits
  else
    let padded := List.replicate (places + 1 - digits.length) '0' ++ digits
    padded.take (padded.length - places) ++ '.' :: padded.drop (padded.length - places)

def Decimal.text (d : Decimal) : List Char :=
  withPoint (d.digits * Nat.pow 10 d.exponent.toNat) (-d.exponent).toNat

def signText (x : Float) : List Char := if isNegative x then ['-'] else []

/-- A finite number in its shortest form, `-0` for negative zero. -/
def shortestText (x : Float) : String :=
  String.ofList (signText x ++ (if units x = 0 then ['0'] else (shortest x).text))

/-- Any number, with words for those that are not finite. -/
def exactText (x : Float) : String :=
  if x.isNaN then "NaN"
  else if x.isFinite then shortestText x
  else if x < 0 then "-inf"
  else "inf"

/-- What is shown for a number that is not finite. -/
def notFinite : String := "#NUM!"

/-- A number as formulas and joined texts show it, with one zero. -/
def text (x : Float) : String :=
  if !x.isFinite then notFinite
  else if units x = 0 then "0"
  else shortestText x

/-- The size of `x` with exactly `places` decimal places, a half going to the even digit. -/
def fixedDigits (x : Float) (places : Nat) : List Char :=
  withPoint (roundHalfEven (units x * Nat.pow 10 places) unitsPerOne) places

/-- A number with exactly `places` decimal places; the sign stays even when no digit does. -/
def fixedText (x : Float) (places : Nat) : String :=
  if !x.isFinite then notFinite
  else String.ofList (signText x ++ fixedDigits x places)

/-- An amount of money: the sign, then the symbol, then the size. -/
def moneyText (x : Float) (symbol : String) (places : Nat) : String :=
  if !x.isFinite then notFinite
  else
    let sign := if isNegative x && units x != 0 then "-" else ""
    sign ++ symbol ++ String.ofList (fixedDigits x places)

end Spreadsheet.Number
