import Spreadsheet.Value.Coercion
import Spreadsheet.Calendar.Pattern

/-! What a text means when it is typed in: a number, else a date, else a truth value, else just
text. -/

namespace Spreadsheet.Value

/-- The value of `raw` under the given date patterns. Blanks around it do not count, but a text
keeps them. -/
def infer (patterns : List String) (raw : String)
    (dates : Calendar.Reader := .byFields) : Value :=
  let trimmed := Text.trim raw
  if raw.isEmpty then empty
  else if trimmed.isEmpty then text raw
  else
    match Number.readFinite? trimmed with
    | some x => number x
    | none =>
      match Calendar.read? patterns trimmed dates with
      | some m => date m
      | none =>
        match readLogical? trimmed with
        | some b => logical b
        | none => text raw

end Spreadsheet.Value
