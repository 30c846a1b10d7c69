import Spreadsheet.Function.Argument
import Spreadsheet.Function.Parameter

/-! Functions that formulas can call. Nearly all depend on their arguments only; the others see
the clock and chance through an `Ambient`, so calling one is a plain computation too. -/

namespace Spreadsheet

/-- What volatile functions see: the time, and a seed for chance. -/
structure Ambient where
  now : Calendar.Moment
  seed : UInt64
  deriving DecidableEq

namespace Ambient

/-- Spread the bits of a number over all of it. -/
def scramble (n : UInt64) : UInt64 :=
  let n := (n ^^^ (n >>> 30)) * 0xBF58476D1CE4E5B9
  let n := (n ^^^ (n >>> 27)) * 0x94D049BB133111EB
  n ^^^ (n >>> 31)

/-- The ambient of the `i`-th part of a computation, with chance of its own. -/
def branch (a : Ambient) (i : Nat) : Ambient :=
  { a with seed := scramble (a.seed + 0x9E3779B97F4A7C15 * (UInt64.ofNat i + 1)) }

/-- A number drawn by chance. -/
def draw (a : Ambient) : Nat := (scramble (a.seed + 0x9E3779B97F4A7C15)).toNat

end Ambient

inductive Function.Body where
  | steady (result : Arguments → Value)
  /-- The result changes with time or by chance. -/
  | volatile (result : Ambient → Arguments → Value)

structure Function where
  parameters : List Parameter
  /-- Errors among the arguments reach the body; otherwise the first is the result. -/
  acceptsErrors : Bool := false
  body : Function.Body

namespace Function

def isVolatile (f : Function) : Bool :=
  match f.body with
  | .steady _ => false
  | .volatile _ => true

/-- The result for arguments of the right kinds. -/
def result (f : Function) (a : Ambient) (args : Arguments) : Value :=
  match f.body with
  | .steady g => g args
  | .volatile g => g a args

theorem result_eq_of_steady {f : Function} (h : f.isVolatile = false) (a b : Ambient)
    (args : Arguments) : f.result a args = f.result b args := by
  unfold isVolatile at h
  unfold result
  split <;> simp_all

end Function

end Spreadsheet
