import Spreadsheet.Settings
import Spreadsheet.Number.Numeral

/-! Documents of settings: lines `key = value` with the spelling of TOML for keys and values.
Every key is one of four and has values of one type, so a document with any other key, type or
section is rejected as a whole. -/

namespace Spreadsheet.Settings

/-- One line of a document. -/
inductive Entry where
  | storageAxis (axis : Axis)
  | autoCalculate (on : Bool)
  | maxDependencyCells (count : Nat)
  | datePatterns (patterns : List String)
  deriving DecidableEq, Repr

namespace Entry

def key : Entry → String
  | storageAxis _ => "storage_axis"
  | autoCalculate _ => "auto_calculate"
  | maxDependencyCells _ => "max_dependency_cells"
  | datePatterns _ => "date_formats"

def apply (s : Settings) : Entry → Settings
  | storageAxis axis => { s with storageAxis := axis }
  | autoCalculate on => { s with autoCalculate := on }
  | maxDependencyCells count => { s with maxDependencyCells := count }
  | datePatterns patterns => { s with datePatterns := patterns }

end Entry

/-! Each reader gives what it read, and the characters after it. -/

namespace Document

def isGap (c : Char) : Bool := c == ' ' || c == '\t'

def dropGaps (cs : List Char) : List Char := cs.dropWhile isGap

/-- Not a control character, tabs apart. -/
def isPlain (c : Char) : Bool := c == '\t' || (32 ≤ c.toNat && c.toNat != 127)

/-- Skip gaps, line ends and comments. -/
def skip (inComment : Bool) : List Char → List Char
  | [] => []
  | '\n' :: cs => skip false cs
  | '\r' :: '\n' :: cs => skip false cs
  | c :: cs =>
    if inComment then if isPlain c then skip true cs else c :: cs
    else if c == '#' then skip true cs
    else if isGap c then skip false cs
    else c :: cs

/-- The next line, when nothing but a comment is left on this one. -/
def nextLine? (cs : List Char) : Option (List Char) :=
  let cs := match dropGaps cs with
    | '#' :: comment => comment.dropWhile isPlain
    | cs => cs
  match cs with
  | [] => some []
  | '\n' :: rest => some rest
  | '\r' :: '\n' :: rest => some rest
  | _ => none

def hexDigit? (c : Char) : Option Nat :=
  if c.isDigit then some (c.toNat - 48)
  else if 'a' ≤ c && c ≤ 'f' then some (c.toNat - 87)
  else if 'A' ≤ c && c ≤ 'F' then some (c.toNat - 55)
  else none

/-- The value of digits in a base, all of them below it. -/
def valueIn? (base : Nat) (digits : List Char) : Option Nat :=
  digits.foldlM (fun n c => do
    let d ← hexDigit? c
    if d < base then some (base * n + d) else none) 0

/-- The character with a code of exactly `count` hexadecimal digits. -/
def readCode (count : Nat) (cs : List Char) : Option (Char × List Char) := do
  let digits := cs.take count
  let code ← valueIn? 16 digits
  if digits.length = count ∧ code.isValidChar then some (Char.ofNat code, cs.drop count) else none

/-- What stands after a backslash. -/
def readEscape : List Char → Option (Char × List Char)
  | 'b' :: cs => some ('\x08', cs)
  | 't' :: cs => some ('\t', cs)
  | 'n' :: cs => some ('\n', cs)
  | 'f' :: cs => some ('\x0c', cs)
  | 'r' :: cs => some ('\r', cs)
  | '"' :: cs => some ('"', cs)
  | '\\' :: cs => some ('\\', cs)
  | 'u' :: cs => readCode 4 cs
  | 'U' :: cs => readCode 8 cs
  | _ => none

/-- How a string is written: its quote, with escapes or without, on one line or on several. -/
structure Quoting where
  quote : Char
  escapes : Bool
  lines : Bool

/-- The end of a string: a quote, or three of them when it has several lines; then up to two more
quotes in front belong to the string. -/
def closing? (q : Quoting) (cs : List Char) : Option (Nat × List Char) :=
  let count := (cs.takeWhile (· == q.quote)).length
  if q.lines then if count < 3 then none else some (min count 5 - 3, cs.drop (min count 5))
  else if count = 0 then none
  else some (0, cs.drop 1)

/-- A backslash at the end of a line joins it to the next text. -/
def joined? (q : Quoting) (cs : List Char) : Option (List Char) :=
  if q.lines && q.escapes then
    match dropGaps cs with
    | '\n' :: rest => some (rest.dropWhile fun c => isGap c || c == '\n' || c == '\r')
    | '\r' :: '\n' :: rest => some (rest.dropWhile fun c => isGap c || c == '\n' || c == '\r')
    | _ => none
  else none

/-- The rest of a string after its opening. Every step takes at least one character. -/
def readRest (q : Quoting) : Nat → List Char → Option (List Char × List Char)
  | 0, _ => none
  | steps + 1, cs =>
    match closing? q cs with
    | some (quotes, rest) => some (List.replicate quotes q.quote, rest)
    | none =>
      match cs with
      | '\\' :: rest =>
        if q.escapes then
          match joined? q rest with
          | some rest => readRest q steps rest
          | none => do
            let (c, rest) ← readEscape rest
            let (s, rest) ← readRest q steps rest
            return (c :: s, rest)
        else do
          let (s, rest) ← readRest q steps rest
          return ('\\' :: s, rest)
      | '\r' :: '\n' :: rest =>
        if q.lines then do
          let (s, rest) ← readRest q steps rest
          return ('\n' :: s, rest)
        else none
      | c :: rest =>
        if isPlain c || (q.lines && c == '\n') then do
          let (s, rest) ← readRest q steps rest
          return (c :: s, rest)
        else none
      | [] => none

/-- The content of a string after its opening. -/
def readBody (q : Quoting) (cs : List Char) : Option (String × List Char) :=
  (readRest q (cs.length + 1) cs).map fun r => (String.ofList r.1, r.2)

/-- A line end right after the opening of a string is no part of it. -/
def dropLineEnd : List Char → List Char
  | '\n' :: cs => cs
  | '\r' :: '\n' :: cs => cs
  | cs => cs

/-- A string on one line. -/
def readLineString : List Char → Option (String × List Char)
  | '"' :: cs => readBody ⟨'"', true, false⟩ cs
  | '\'' :: cs => readBody ⟨'\'', false, false⟩ cs
  | _ => none

def readString : List Char → Option (String × List Char)
  | '"' :: '"' :: '"' :: cs => readBody ⟨'"', true, true⟩ (dropLineEnd cs)
  | '\'' :: '\'' :: '\'' :: cs => readBody ⟨'\'', false, true⟩ (dropLineEnd cs)
  | cs => readLineString cs

/-- Digits with single underscores between them. -/
def digits? (run : List Char) : Option (List Char) :=
  if run.head? == some '_' || run.getLast? == some '_' || run.isEmpty ||
      (run.zip run.tail).contains ('_', '_') then none
  else some (run.filter (· != '_'))

def isNumberChar (c : Char) : Bool := (hexDigit? c).isSome || c == '_'

/-- The largest number that a document can hold. -/
def largest : Nat := Nat.pow 2 63 - 1

/-- Digits of a base, up to the largest number. -/
def readDigits (base : Nat) (cs : List Char) : Option (Nat × List Char) := do
  let run := cs.takeWhile isNumberChar
  let n ← valueIn? base (← digits? run)
  if n ≤ largest then some (n, cs.drop run.length) else none

/-- A decimal number has a digit other than zero in front, unless it is zero. -/
def readDecimal (cs : List Char) : Option (Nat × List Char) :=
  match cs with
  | '0' :: rest => if (rest.takeWhile isNumberChar).isEmpty then some (0, rest) else none
  | cs => readDigits 10 cs

/-- A number from zero on. -/
def readCount : List Char → Option (Nat × List Char)
  | '0' :: 'x' :: cs => readDigits 16 cs
  | '0' :: 'o' :: cs => readDigits 8 cs
  | '0' :: 'b' :: cs => readDigits 2 cs
  | '+' :: cs => readDecimal cs
  | '-' :: cs => (readDecimal cs).filter fun r => r.1 = 0
  | cs => readDecimal cs

def readLogical : List Char → Option (Bool × List Char)
  | 't' :: 'r' :: 'u' :: 'e' :: cs => some (true, cs)
  | 'f' :: 'a' :: 'l' :: 's' :: 'e' :: cs => some (false, cs)
  | _ => none

/-- The rest of a list of strings after a bracket or a comma. -/
def readItems : Nat → List Char → Option (List String × List Char)
  | 0, _ => none
  | steps + 1, cs =>
    match skip false cs with
    | ']' :: rest => some ([], rest)
    | cs => do
      let (item, rest) ← readString cs
      match skip false rest with
      | ']' :: rest => return ([item], rest)
      | ',' :: rest =>
        let (items, rest) ← readItems steps rest
        return (item :: items, rest)
      | _ => none

def readList : List Char → Option (List String × List Char)
  | '[' :: cs => readItems (cs.length + 1) cs
  | _ => none

def axis? : String → Option Axis
  | "row" => some .row
  | "column" => some .column
  | _ => none

/-- The value of a key. -/
def readEntry (key : String) (cs : List Char) : Option (Entry × List Char) :=
  match key with
  | "storage_axis" => do
    let (name, rest) ← readString cs
    return (.storageAxis (← axis? name), rest)
  | "auto_calculate" => (readLogical cs).map fun r => (.autoCalculate r.1, r.2)
  | "max_dependency_cells" => (readCount cs).map fun r => (.maxDependencyCells r.1, r.2)
  | "date_formats" => (readList cs).map fun r => (.datePatterns r.1, r.2)
  | _ => none

def isKeyChar (c : Char) : Bool := c.isAlphanum || c == '_' || c == '-'

/-- A key is a word or a string. -/
def readKey (cs : List Char) : Option (String × List Char) :=
  match cs.takeWhile isKeyChar with
  | [] => readLineString cs
  | word => some (String.ofList word, cs.drop word.length)

/-- The lines of a document; blank ones and comments are skipped. -/
def readEntries : Nat → List Char → Option (List Entry)
  | 0, _ => none
  | steps + 1, cs =>
    match skip false cs with
    | [] => some []
    | cs => do
      let (key, rest) ← readKey cs
      match dropGaps rest with
      | '=' :: rest =>
        let (entry, rest) ← readEntry key (dropGaps rest)
        let entries ← readEntries steps (← nextLine? rest)
        return entry :: entries
      | _ => none

/-- The text without a byte order mark. -/
def dropMark : List Char → List Char
  | '\uFEFF' :: cs => cs
  | cs => cs

end Document

/-- The settings that a document describes. No key may come twice, and what is not mentioned
keeps its default. -/
def ofText? (text : String) : Option Settings := do
  let cs := Document.dropMark text.toList
  let entries ← Document.readEntries (cs.length + 1) cs
  if (entries.map Entry.key).Nodup then return entries.foldl Entry.apply {} else none

end Spreadsheet.Settings
