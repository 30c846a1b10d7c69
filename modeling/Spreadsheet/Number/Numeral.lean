import Spreadsheet.Number.Magnitude

/-! Reading numerals: an optional sign, digits around at most one point, an optional power of
ten. The value is rounded once, from the exact decimal. -/

namespace Spreadsheet.Number

/-- What a numeral says before any rounding: `digits * 10 ^ exponent`, negated or not. -/
structure Numeral where
  negative : Bool
  digits : Nat
  exponent : Int

/-- The value of a run of digits. -/
def digitsValue (ds : List Char) : Nat :=
  ds.foldl (fun n c => 10 * n + (c.toNat - 48)) 0

/-- An optional sign: whether it is a minus, and what follows. -/
def readSign : List Char → Bool × List Char
  | '-' :: rest => (true, rest)
  | '+' :: rest => (false, rest)
  | cs => (false, cs)

/-- The rest of a numeral after its digits: nothing, or a power of ten. -/
def readPower? : List Char → Option Int
  | [] => some 0
  | c :: rest =>
    if c == 'e' || c == 'E' then
      let (negative, ds) := readSign rest
      if ds.isEmpty || !ds.all Char.isDigit then none
      else some (if negative then -(digitsValue ds : Int) else digitsValue ds)
    else none

def Numeral.read? (cs : List Char) : Option Numeral :=
  let (negative, cs) := readSign cs
  let whole := cs.takeWhile Char.isDigit
  let rest := cs.dropWhile Char.isDigit
  let (fraction, rest) :=
    match rest with
    | '.' :: tail => (tail.takeWhile Char.isDigit, tail.dropWhile Char.isDigit)
    | _ => ([], rest)
  if whole.isEmpty && fraction.isEmpty then none
  else
    (readPower? rest).map fun power =>
      ⟨negative, digitsValue (whole ++ fraction), power - fraction.length⟩

/-- The number nearest to a numeral; beyond the largest it is infinite, and below half of the
smallest it is zero. -/
def Numeral.toFloat (n : Numeral) : Float :=
  let leading := n.exponent + (Nat.toDigits 10 n.digits).length
  let size :=
    if n.digits = 0 || leading < -330 then 0
    else if 330 < leading then Float.ofBits 0x7FF0000000000000
    else Float.ofScientific n.digits (n.exponent < 0) n.exponent.natAbs
  if n.negative then -size else size

/-- The number that `s` writes, infinite when it is too large. -/
def read? (s : String) : Option Float := (Numeral.read? s.toList).map Numeral.toFloat

/-- The number behind a sign and a word in either case: infinity, or what is not a number. -/
def readWord? (s : String) : Option Float :=
  let (negative, rest) := readSign s.toList
  let size : Option Float :=
    match String.ofList (rest.map Char.toLower) with
    | "inf" | "infinity" => some (1 / 0)
    | "nan" => some (0 / 0)
    | _ => none
  size.map fun x => if negative then -x else x

/-- The number a user means by `s`, which must be finite. -/
def readFinite? (s : String) : Option Float := (read? s).filter Float.isFinite

end Spreadsheet.Number
