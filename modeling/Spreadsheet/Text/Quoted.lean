/-! Text between double quotes, where a quote inside is written twice. -/

namespace Spreadsheet.Text

/-- Each quote written twice. -/
def doubleQuotes : List Char → List Char
  | [] => []
  | c :: rest => if c = '"' then '"' :: '"' :: doubleQuotes rest else c :: doubleQuotes rest

/-- Each pair of neighbouring quotes, taken from the left, read as one. -/
def mergeQuotes : List Char → List Char
  | [] => []
  | '"' :: '"' :: rest => '"' :: mergeQuotes rest
  | c :: rest => c :: mergeQuotes rest

/-- What stands between an opening and a closing quote; text that lacks either is taken whole. -/
def betweenQuotes (cs : List Char) : List Char :=
  match cs with
  | '"' :: rest =>
    match rest.getLast? with
    | some '"' => rest.dropLast
    | _ => cs
  | _ => cs

/-- `text` as a string literal. -/
def quote (text : String) : String :=
  String.ofList ('"' :: doubleQuotes text.toList ++ ['"'])

/-- The text a string literal stands for. -/
def unquote (text : String) : String :=
  String.ofList (mergeQuotes (betweenQuotes text.toList))

theorem mergeQuotes_doubleQuotes (cs : List Char) : mergeQuotes (doubleQuotes cs) = cs := by
  induction cs with
  | nil => rfl
  | cons c rest ih =>
    by_cases h : c = '"'
    · simp [doubleQuotes, h, mergeQuotes, ih]
    · rw [doubleQuotes, if_neg h, mergeQuotes, ih]
      simp_all

theorem unquote_quote (text : String) : unquote (quote text) = text := by
  simp [unquote, quote, betweenQuotes, mergeQuotes_doubleQuotes]

end Spreadsheet.Text
