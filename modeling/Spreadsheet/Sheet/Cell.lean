import Spreadsheet.Evaluation.Basic
import Spreadsheet.Value.Entry

/-! What a cell of a sheet holds, what a user types to put it there, and its latest value. -/

namespace Spreadsheet

inductive Contents where
  | value (v : Value)
  | formula (f : Formula)
  deriving BEq

namespace Contents

/-- A text between double quotes. -/
def quoted? (s : String) : Option String :=
  match s.toList with
  | '"' :: rest => if rest.getLast? == some '"' then some (String.ofList rest.dropLast) else none
  | _ => none

/-- The first character is `c`. -/
def startsWith (c : Char) (s : String) : Bool := s.toList.head? == some c

/-- What `input` puts into a cell: an equals sign starts a formula, quotes make a text of anything,
and blanks alone stand for nothing. -/
def ofInput? (patterns : List String) (input : String)
    (dates : Calendar.Reader := .byFields) : Option Contents :=
  let trimmed := Text.trim input
  if trimmed.isEmpty then none
  else if startsWith '=' trimmed then some (.formula (.ofText trimmed))
  else
    match quoted? trimmed with
    | some s => some (.value (.text s))
    | none => some (.value (Value.infer patterns trimmed dates))

/-- The text is typed in as it is, and not taken for anything else. -/
def isPlain (s : String) (dates : Calendar.Reader := .byFields) : Bool :=
  match Value.infer Calendar.defaultPatterns s dates with
  | .text _ => Text.trim s == s && !s.isEmpty && !startsWith '=' s && !startsWith '"' s
  | _ => false

/-- What to type in to get these contents. -/
def inputText (c : Contents) (dates : Calendar.Reader := .byFields) : String :=
  match c with
  | formula f => f.text
  | value (.text s) => if isPlain s dates then s else "\"" ++ s ++ "\""
  | value v => v.display

def formula? : Contents → Option Formula
  | formula f => some f
  | value _ => none

end Contents

structure Cell where
  contents : Contents
  /-- The constant, or the latest result of the formula. -/
  value : Value

namespace Cell

def ofValue (v : Value) : Cell := ⟨.value v, v⟩

/-- A formula that has not been computed yet. -/
def ofFormula (f : Formula) : Cell := ⟨.formula f, .empty⟩

def ofContents : Contents → Cell
  | .value v => ofValue v
  | .formula f => ofFormula f

def formula? (c : Cell) : Option Formula := c.contents.formula?

def isFormula (c : Cell) : Bool := c.formula?.isSome

/-- The cell with its formula changed, if it has one. -/
def mapFormula (c : Cell) (f : Formula → Formula) : Cell :=
  match c.contents with
  | .formula g => { c with contents := .formula (f g) }
  | .value _ => c

/-- The cell with its formula computed anew, if it has one. -/
def evaluated (c : Cell) (s : Source) : Cell :=
  match c.contents with
  | .formula f => { c with value := f.evaluate s }
  | .value _ => c

end Cell

end Spreadsheet
