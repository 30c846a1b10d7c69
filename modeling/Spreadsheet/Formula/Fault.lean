/-! What can be wrong with the text of a formula. Reading goes on after a fault, so one text can
have several, each at a place counted in bytes. -/

namespace Spreadsheet

inductive Fault where
  | strayCharacter (c : Char)
  | malformedNumber (text : String)
  | openString
  | unknownErrorLiteral
  | emptyFormula
  | unexpected (text : String)
  | numberTooLarge (text : String)
  | endOfFormula
  | brokenReference (text : String)
  /-- The end of a range is missing or of another kind than its start. -/
  | badRangeEnd (start : String)
  | openCall (function : String)
  | emptyParentheses
  | openParenthesis
  | unionOfNonReference
  | emptyArray
  | openArray
  | unevenRows
  | signWithoutNumber
  | missingLiteral
  | notLiteral
  deriving DecidableEq, Repr

def Fault.message : Fault → String
  | strayCharacter c => "unexpected character '" ++ c.toString ++ "'"
  | malformedNumber text => "malformed number '" ++ text ++ "'"
  | openString => "unterminated string literal"
  | unknownErrorLiteral => "unknown error literal"
  | emptyFormula => "empty formula"
  | unexpected text => "unexpected '" ++ text ++ "'"
  | numberTooLarge text => "number '" ++ text ++ "' is too large"
  | endOfFormula => "unexpected end of formula"
  | brokenReference text => "invalid reference '" ++ text ++ "'"
  | badRangeEnd start => "expected a range end matching '" ++ start ++ "'"
  | openCall function => "missing ')' in call to " ++ function
  | emptyParentheses => "empty parentheses"
  | openParenthesis => "missing ')'"
  | unionOfNonReference => "only references can be combined in a union"
  | emptyArray => "empty array constant"
  | openArray => "missing '\x7d'"
  | unevenRows => "array rows must have the same length"
  | signWithoutNumber => "expected a number in array constant"
  | missingLiteral => "expected a literal in array constant"
  | notLiteral => "array constants may only contain literals"

/-- A fault and where it is, in bytes from the start of the text. -/
structure Diagnostic where
  position : Nat
  fault : Fault
  deriving DecidableEq, Repr

namespace Diagnostic

def message (d : Diagnostic) : String := d.fault.message

def text (d : Diagnostic) : String := d.message ++ " at position " ++ toString d.position

/-- The diagnostic in a text that has `offset` more bytes in front. -/
def movedBy (d : Diagnostic) (offset : Nat) : Diagnostic := { d with position := d.position + offset }

/-- `d` in front of the first of `ds` that does not come before it. -/
def insert (d : Diagnostic) : List Diagnostic → List Diagnostic
  | [] => [d]
  | e :: rest => if d.position ≤ e.position then d :: e :: rest else e :: insert d rest

/-- By position; those at one place stay in the order they were found. -/
def sort (ds : List Diagnostic) : List Diagnostic := ds.foldr insert []

end Diagnostic

end Spreadsheet
