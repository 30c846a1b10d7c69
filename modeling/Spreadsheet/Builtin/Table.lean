import Spreadsheet.Builtin.Logical
import Spreadsheet.Builtin.Temporal
import Spreadsheet.Builtin.Textual
import Spreadsheet.Function.Registry

/-! The functions that every sheet starts with. -/

namespace Spreadsheet

structure Builtin where
  name : String
  description : String
  function : Function

namespace Builtin

/-- The function in one line. -/
def summary (b : Builtin) : String := "Builtin \x7b name: " ++ Text.escaped b.name ++ " \x7d"

def numberList : List Parameter := [⟨"number", .numbers, true, true⟩]
def logicalList : List Parameter := [⟨"logical", .logicals, true, true⟩]
def valueList : List Parameter := [⟨"value", .any, true, true⟩]
def oneNumber : List Parameter := [⟨"number", .number, true, false⟩]
def oneValue : List Parameter := [⟨"value", .any, true, false⟩]
def oneText : List Parameter := [⟨"text", .text, true, false⟩]
def oneReference : List Parameter := [⟨"reference", .reference, true, false⟩]

/-- A number and how many decimal places it should have. -/
def numberAndPlaces : List Parameter :=
  [⟨"number", .number, true, false⟩, ⟨"decimals", .number, false, false⟩]

/-- A function that errors do not reach. -/
def strict (parameters : List Parameter) (f : Arguments → Value) : Function :=
  ⟨parameters, false, .steady f⟩

/-- A function that sees errors among its arguments. -/
def lenient (parameters : List Parameter) (f : Arguments → Value) : Function :=
  ⟨parameters, true, .steady f⟩

def volatile (parameters : List Parameter) (f : Ambient → Arguments → Value) : Function :=
  ⟨parameters, false, .volatile f⟩

def all : List Builtin := [
  ⟨"SUM", "Sum of numbers and numeric cells in ranges", strict numberList sum⟩,
  ⟨"AVERAGE", "Arithmetic mean of numbers and numeric cells", strict numberList average⟩,
  ⟨"COUNT", "Count of numeric values", lenient valueList count⟩,
  ⟨"MIN", "Smallest number (0 when there are none)", strict numberList min⟩,
  ⟨"MAX", "Largest number (0 when there are none)", strict numberList max⟩,
  ⟨"IF", "Choose a value by condition",
    lenient [⟨"condition", .logical, true, false⟩, ⟨"then", .any, true, false⟩,
      ⟨"otherwise", .any, false, false⟩] choose⟩,
  ⟨"AND", "TRUE when every logical is TRUE", strict logicalList and⟩,
  ⟨"OR", "TRUE when any logical is TRUE", strict logicalList or⟩,
  ⟨"NOT", "Logical negation", strict [⟨"logical", .logical, true, false⟩] not⟩,
  ⟨"IFERROR", "The value, or a fallback when it is an error",
    lenient [⟨"value", .any, true, false⟩, ⟨"fallback", .any, true, false⟩] ifError⟩,
  ⟨"ISERROR", "TRUE when the value is an error", lenient oneValue isError⟩,
  ⟨"ISNUMBER", "TRUE when the value is a number", lenient oneValue isNumber⟩,
  ⟨"ABS", "Absolute value", strict oneNumber abs⟩,
  ⟨"ROUND", "Round to a number of decimal places", strict numberAndPlaces round⟩,
  ⟨"SQRT", "Square root", strict oneNumber sqrt⟩,
  ⟨"POWER", "Base raised to an exponent",
    strict [⟨"base", .number, true, false⟩, ⟨"exponent", .number, true, false⟩] power⟩,
  ⟨"RAND", "Random number in [0, 1)", volatile [] rand⟩,
  ⟨"RANDINT", "Random integer between two bounds (inclusive)",
    volatile [⟨"low", .number, true, false⟩, ⟨"high", .number, true, false⟩] randInt⟩,
  ⟨"FIXED", "Format a number with fixed decimals", strict numberAndPlaces fixed⟩,
  ⟨"MONEY", "Format a number as currency",
    strict [⟨"number", .number, true, false⟩, ⟨"symbol", .text, false, false⟩,
      ⟨"decimals", .number, false, false⟩] money⟩,
  ⟨"LEN", "Number of characters in text", strict oneText length⟩,
  ⟨"UPPER", "Text in upper case", strict oneText upper⟩,
  ⟨"LOWER", "Text in lower case", strict oneText lower⟩,
  ⟨"CONCAT", "Join values (and range contents) as text", strict valueList concat⟩,
  ⟨"TODAY", "Current local date", volatile [] today⟩,
  ⟨"NOW", "Current local date and time", volatile [] now⟩,
  ⟨"DATE", "Date from year, month and day (months and days may overflow)",
    strict [⟨"year", .number, true, false⟩, ⟨"month", .number, true, false⟩,
      ⟨"day", .number, true, false⟩] date⟩,
  ⟨"ROW", "Row number (1-based) of a reference", strict oneReference row⟩,
  ⟨"COLUMN", "Column number (1-based) of a reference", strict oneReference column⟩]

/-- Second names, each with the name it stands for. -/
def aliases : List (String × String) := [("AVG", "AVERAGE"), ("POW", "POWER")]

/-- Try a registration that leaves the registry as it is when it fails. -/
def attempt (r : Registry) (result : Except Registry.Failure Registry) : Registry :=
  match result with
  | .ok r => r
  | .error _ => r

/-- A registry with all built-in functions and their second names. -/
def registry : Registry :=
  let r := all.foldl (fun r b => attempt r (r.register b.name b.function)) Registry.empty
  aliases.foldl (fun r a => attempt r (r.addAlias a.1 a.2)) r

end Builtin

end Spreadsheet
