/-! Numbers seen exactly. Every finite number is a whole multiple of the smallest positive one,
2^-1074, so its size is one natural number and its decimal forms need integer arithmetic only. -/

namespace Spreadsheet.Number

/-- How many units make one. -/
def unitsPerOne : Nat := Nat.pow 2 1074

/-- The sign as stored, which negative zero carries too. -/
def isNegative (x : Float) : Bool := x.toBits.toNat / Nat.pow 2 63 == 1

/-- The stored exponent: 0 for the numbers next to zero, which share the spacing of exponent 1. -/
def storedExponent (x : Float) : Nat := x.toBits.toNat / Nat.pow 2 52 % Nat.pow 2 11

def storedFraction (x : Float) : Nat := x.toBits.toNat % Nat.pow 2 52

/-- The size of a finite number in units. -/
def units (x : Float) : Nat :=
  if storedExponent x = 0 then storedFraction x
  else (Nat.pow 2 52 + storedFraction x) * Nat.pow 2 (storedExponent x - 1)

/-- The distance to the next larger size, in units. -/
def spacing (x : Float) : Nat := Nat.pow 2 (storedExponent x - 1)

/-- The distance to the next smaller size, in units: half of `spacing` at a power of two. -/
def spacingBelow (x : Float) : Nat :=
  if storedFraction x = 0 ∧ 1 < storedExponent x then spacing x / 2 else spacing x

/-- `n / d` to the nearest whole number, a half to the even neighbour. -/
def roundHalfEven (n d : Nat) : Nat :=
  let q := n / d
  let twice := 2 * (n % d)
  if twice < d then q
  else if d < twice then q + 1
  else if q % 2 = 0 then q else q + 1

/-- `n / d` to the nearest whole number, a half away from zero. -/
def roundHalfUp (n d : Nat) : Nat := (2 * n + d) / (2 * d)

/-- The whole number nearest to a finite `x`, a half away from zero. -/
def nearestInt (x : Float) : Int :=
  let size := roundHalfUp (units x) unitsPerOne
  if isNegative x then -(size : Int) else size

/-- The whole part of a finite `x`, without its fraction. -/
def wholePart (x : Float) : Int :=
  let size := units x / unitsPerOne
  if isNegative x then -(size : Int) else size

/-- The largest whole number that is not above a finite `x`. -/
def floorInt (x : Float) : Int :=
  if isNegative x then -(((units x + unitsPerOne - 1) / unitsPerOne : Nat) : Int)
  else (units x / unitsPerOne : Nat)

/-- The smallest whole number that is not below a finite `x`. -/
def ceilingInt (x : Float) : Int :=
  if isNegative x then -((units x / unitsPerOne : Nat) : Int)
  else ((units x + unitsPerOne - 1) / unitsPerOne : Nat)

/-- A number of the sign of `x` with the given whole size. -/
def withSignOf (x : Float) (size : Nat) : Float :=
  if isNegative x then -(Float.ofNat size) else Float.ofNat size

/-- `x` to the nearest whole number, a half away from zero; the sign stays. -/
def rounded (x : Float) : Float :=
  if x.isFinite then withSignOf x (roundHalfUp (units x) unitsPerOne) else x

/-- `x` without its fraction; the sign stays. -/
def truncated (x : Float) : Float :=
  if x.isFinite then withSignOf x (units x / unitsPerOne) else x

end Spreadsheet.Number
