import Spreadsheet.Sheet.Editing

/-! Scripts: one statement a line, which fills a cell, defines a name or formats a region. Blank
lines and lines that start with `#` say nothing. -/

namespace Spreadsheet

inductive Statement where
  /-- Type an input into a cell. -/
  | assign (cell : Position) (input : String)
  | define (name : String) (definition : Definition)
  | format (region : Region) (format : NumberFormat)

namespace Statement

/-- Why a line is no statement. -/
inductive Fault where
  | unknownForm (line : String)
  | missingDefinition (name : String)
  | badCell (text : String)
  | badRange (text : String)
  | badDecimals (text : String)
  | missingDecimals
  | unknownFormat (kind : String)
  deriving DecidableEq, Repr

def Fault.message : Fault → String
  | unknownForm line =>
    "expected 'CELL: value', 'name := value' or 'format RANGE KIND', got '" ++ line ++ "'"
  | missingDefinition name => "missing definition for '" ++ name ++ "'"
  | badCell text => "invalid cell reference '" ++ text ++ "'"
  | badRange text => "invalid range '" ++ text ++ "'"
  | badDecimals text => "invalid decimal places '" ++ text ++ "'"
  | missingDecimals => "fixed format needs decimal places"
  | unknownFormat kind => "unknown format '" ++ kind ++ "'"

/-- The pieces of `cs` between the characters that `p` holds of. -/
def pieces (p : Char → Bool) : List Char → List (List Char)
  | [] => [[]]
  | c :: cs =>
    if p c then [] :: pieces p cs
    else
      match pieces p cs with
      | piece :: rest => (c :: piece) :: rest
      | [] => [[c]]

/-- The words between blanks. -/
def words (cs : List Char) : List (List Char) :=
  (pieces Text.isBlank cs).filter fun word => !word.isEmpty

/-- The most decimal places that a script can ask for. -/
def maxDecimals : Nat := 15

/-- A number of decimal places. -/
def readDecimals? (text : List Char) : Option Nat :=
  let digits := match text with
    | '+' :: rest => rest
    | cs => cs
  let n := Number.digitsValue digits
  if digits.isEmpty || !digits.all Char.isDigit || maxDecimals < n then none else some n

/-- The format that a word and perhaps a number of places name. -/
def readFormat (kind : String) (decimals : Option Nat) : Except Fault NumberFormat :=
  match String.ofList (kind.toList.map Char.toLower), decimals with
  | "general", none => .ok .general
  | "fixed", some n => .ok (.fixed n)
  | "money", n => .ok (.money "$" (n.getD 2))
  | "fixed", none => .error .missingDecimals
  | _, _ => .error (.unknownFormat kind)

/-- A letter from `a` to `z` in either case, or one of the two that Unicode takes for another case
of `s` and `k`. -/
def isKindLetter (c : Char) : Bool := c.isAlpha || c == '\u017f' || c == '\u212a'

/-- The words of a statement such as `format A1:B2 fixed 3`: the range, the kind, and perhaps the
number of places. -/
def formatWords? (cs : List Char) : Option (String × String × Option (List Char)) :=
  match words cs with
  | verb :: range :: kind :: rest =>
    if Text.sameIgnoringCase (String.ofList verb) "format" && kind.all isKindLetter &&
        rest.length ≤ 1 then
      some (String.ofList range, String.ofList kind, rest.head?)
    else none
  | _ => none

def readFormatting (range kind : String) (decimals : Option (List Char)) :
    Except Fault Statement := do
  let region ← ((Reference.read? range).bind Reference.region?).elim (.error (.badRange range)) .ok
  let places ← match decimals with
    | none => pure none
    | some text =>
      (readDecimals? text).elim (.error (.badDecimals (String.ofList text))) fun n => .ok (some n)
  return .format region (← readFormat kind places)

def isNameChar (c : Char) : Bool := c.isAlphanum || c == '_'

/-- The name and the rest of a statement such as `rate := 0.5`. -/
def definitionParts? (cs : List Char) : Option (String × String) :=
  let name := cs.takeWhile isNameChar
  match Text.dropBlanks (cs.drop name.length) with
  | ':' :: '=' :: rest =>
    match name with
    | [] => none
    | c :: _ =>
      if c.isDigit then none else some (String.ofList name, Text.trim (String.ofList rest))
  | _ => none

/-- A name stands for the range or else for the value that is written. -/
def readDefinition (name text : String) : Except Fault Statement :=
  if text.isEmpty then .error (.missingDefinition name)
  else
    match Reference.read? text with
    | some r => .ok (.define name (.reference r))
    | none => .ok (.define name (.value (Value.infer Calendar.defaultPatterns text)))

/-- The cell and the rest of a statement such as `A1: 10`. -/
def assignmentParts? (cs : List Char) : Option (String × String) :=
  let letters := cs.takeWhile Char.isAlpha
  let digits := (cs.drop letters.length).takeWhile Char.isDigit
  match Text.dropBlanks (cs.drop (letters.length + digits.length)) with
  | ':' :: rest =>
    if letters.isEmpty || digits.isEmpty then none
    else some (String.ofList (letters ++ digits), Text.trim (String.ofList rest))
  | _ => none

def readAssignment (cell input : String) : Except Fault Statement :=
  match Position.read? cell with
  | some p => .ok (.assign p input)
  | none => .error (.badCell cell)

/-- The statement on a line without blanks around it. A line that can be read in several ways
formats rather than defines, and defines rather than fills a cell. -/
def read (line : String) : Except Fault Statement :=
  match formatWords? line.toList with
  | some (range, kind, decimals) => readFormatting range kind decimals
  | none =>
    match definitionParts? line.toList with
    | some (name, text) => readDefinition name text
    | none =>
      match assignmentParts? line.toList with
      | some (cell, input) => readAssignment cell input
      | none => .error (.unknownForm line)

end Statement

/-- A statement and the number of its line, counted from one. -/
structure ScriptLine where
  number : Nat
  statement : Statement

namespace ScriptLine

/-- The first line of a script that is no statement. -/
structure Fault where
  line : Nat
  cause : Statement.Fault
  deriving DecidableEq, Repr

def Fault.message (f : Fault) : String :=
  "Parse error at line " ++ toString f.line ++ ": " ++ f.cause.message

/-- The statement on line `number`, if the line says anything. -/
def read? (number : Nat) (raw : List Char) : Except Fault (Option ScriptLine) :=
  let line := Text.trim (String.ofList raw)
  if line.isEmpty || line.toList.head? == some '#' then .ok none
  else
    match Statement.read line with
    | .ok s => .ok (some ⟨number, s⟩)
    | .error cause => .error ⟨number, cause⟩

/-- The statements on lines that are numbered from `number` on. -/
def readFrom (number : Nat) : List (List Char) → Except Fault (List ScriptLine)
  | [] => .ok []
  | raw :: rest => do
    let line ← read? number raw
    let lines ← readFrom (number + 1) rest
    return line.toList ++ lines

/-- The statements of a script. -/
def readAll (text : String) : Except Fault (List ScriptLine) :=
  readFrom 1 (Statement.pieces (· == '\n') text.toList)

end ScriptLine

end Spreadsheet
