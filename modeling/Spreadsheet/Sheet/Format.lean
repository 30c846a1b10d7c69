import Spreadsheet.Value.Basic

/-! How the numbers of a cell are shown. -/

namespace Spreadsheet

inductive NumberFormat where
  | general
  | fixed (decimals : Nat)
  | money (symbol : String) (decimals : Nat)
  deriving DecidableEq, Repr

/-- The text that is shown for a value. Only numbers depend on the format. -/
def NumberFormat.apply : NumberFormat → Value → String
  | fixed decimals, .number x => Number.fixedText x decimals
  | money symbol decimals, .number x => Number.moneyText x symbol decimals
  | _, v => v.layout

end Spreadsheet
