import Spreadsheet.Calendar.Moment
import Spreadsheet.Text.Blank

/-! Reading dates by pattern. A pattern is written with `%Y`, `%m`, `%d`, `%H`, `%M` and `%S` for
the fields, blanks that match any blanks, and other characters that match themselves. -/

namespace Spreadsheet.Calendar

inductive Field where
  | year | month | day | hour | minute | second
  deriving DecidableEq, Repr

inductive PatternItem where
  | field (f : Field)
  | blanks
  | literal (c : Char)
  /-- A directive that no text satisfies. -/
  | unknown
  deriving DecidableEq, Repr

def Field.ofLetter? : Char → Option Field
  | 'Y' => some .year
  | 'm' => some .month
  | 'd' => some .day
  | 'H' => some .hour
  | 'M' => some .minute
  | 'S' => some .second
  | _ => none

/-- The items of a written pattern. -/
def patternItems : List Char → List PatternItem
  | [] => []
  | '%' :: c :: rest =>
    (if c == '%' then .literal '%'
     else match Field.ofLetter? c with
       | some f => .field f
       | none => .unknown) :: patternItems rest
  | '%' :: [] => [.unknown]
  | c :: rest => (if Text.isBlank c then .blanks else .literal c) :: patternItems rest

/-- The values read so far. -/
abbrev Fields := List (Field × Int)

/-- The values that a field can have; second 60 is a leap second. -/
def Field.admits (f : Field) (value : Int) : Bool :=
  match f with
  | .year => true
  | .month => 1 ≤ value && value ≤ 12
  | .day => 1 ≤ value && value ≤ 31
  | .hour => 0 ≤ value && value ≤ 23
  | .minute => 0 ≤ value && value ≤ 59
  | .second => 0 ≤ value && value ≤ 60

/-- A field read twice must have one value. -/
def Fields.put? (fields : Fields) (f : Field) (value : Int) : Option Fields :=
  if f.admits value then
    match fields.lookup f with
    | none => some ((f, value) :: fields)
    | some old => if old = value then some fields else none
  else none

/-- Digits from the start of `cs`, at least one and at most `width`, with what follows. -/
def readDigits? (width : Option Nat) (cs : List Char) : Option (Int × List Char) :=
  let run := cs.takeWhile Char.isDigit
  let digits := (width.map fun w => run.take w).getD run
  if digits.isEmpty then none
  else some (digits.foldl (fun n c => 10 * n + (c.toNat - 48 : Nat)) 0, cs.drop digits.length)

/-- The value of field `f` at the start of `cs`, after blanks. A year has up to four digits, or
any number of them after a sign; every other field has one or two. -/
def readField? (f : Field) (cs : List Char) : Option (Int × List Char) :=
  let cs := Text.dropBlanks cs
  if f = .year then
    match cs with
    | '-' :: rest => (readDigits? none rest).map fun (n, rest) => (-n, rest)
    | '+' :: rest => readDigits? none rest
    | _ => readDigits? (some 4) cs
  else readDigits? (some 2) cs

/-- The fields of `cs` when the items match all of it. -/
def matchItems? : List PatternItem → List Char → Fields → Option Fields
  | [], [], fields => some fields
  | [], _ :: _, _ => none
  | .blanks :: items, cs, fields => matchItems? items (Text.dropBlanks cs) fields
  | .literal c :: items, cs, fields =>
    match cs with
    | d :: rest => if d = c then matchItems? items rest fields else none
    | [] => none
  | .field f :: items, cs, fields => do
    let (value, rest) ← readField? f cs
    matchItems? items rest (← fields.put? f value)
  | .unknown :: _, _, _ => none

/-- The day that the fields name, when year, month and day are there and form a date. -/
def Fields.day? (fields : Fields) : Option Int := do
  let year ← fields.lookup .year
  let month ← fields.lookup .month
  let day ← fields.lookup .day
  dayNumber? ⟨year, month.toNat, day.toNat⟩

/-- The time of day that the fields name, as second and nanosecond. -/
def Fields.clock? (fields : Fields) : Option (Nat × Nat) := do
  let hour ← fields.lookup .hour
  let minute ← fields.lookup .minute
  let second ← fields.lookup .second
  let start := (hour * 3600 + minute * 60).toNat
  return if second = 60 then (start + 59, 1000000000) else (start + second.toNat, 0)

/-- The fields of a text under a written pattern. -/
def readFields? (pattern text : String) : Option Fields :=
  matchItems? (patternItems pattern.toList) text.toList []

def readMoment? (pattern text : String) : Option Moment := do
  let fields ← readFields? pattern text
  let day ← fields.day?
  let (second, nanosecond) ← fields.clock?
  return ⟨day, second, nanosecond⟩

def readDay? (pattern text : String) : Option Int := do
  let fields ← readFields? pattern text
  fields.day?

/-- How texts are read under written patterns: with a time of day, or as days. -/
structure Reader where
  moment? (pattern text : String) : Option Moment
  day? (pattern text : String) : Option Int

/-- The fields of a pattern decide. -/
def Reader.byFields : Reader := ⟨readMoment?, readDay?⟩

/-- A date and time in either of the two written forms, whatever the settings. -/
def momentPatterns : List String := ["%Y-%m-%d %H:%M:%S", "%Y-%m-%dT%H:%M:%S"]

/-- The patterns for dates unless the settings give others. -/
def defaultPatterns : List String := ["%Y-%m-%d", "%Y/%m/%d", "%d/%m/%Y"]

/-- The date that `text` writes under the first pattern it satisfies. -/
def read? (patterns : List String) (text : String) (dates : Reader := .byFields) :
    Option Moment :=
  (momentPatterns.findSome? fun p => dates.moment? p text).or
    ((patterns.findSome? fun p => dates.day? p text).map Moment.midnight)

end Spreadsheet.Calendar
