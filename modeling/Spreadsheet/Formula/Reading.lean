import Spreadsheet.Formula.Expr
import Spreadsheet.Formula.Token

/-! From tokens to a tree. Each kind of phrase has its reader, built on the reader for whole
expressions one nesting level down; a text of `n` tokens nests at most `n` deep. Readers never
fail: they note faults and go on with what they have. -/

namespace Spreadsheet

/-- The tokens still to read, and the faults found so far, the latest first. -/
structure Cursor where
  tokens : List Token
  faults : List Diagnostic

abbrev Reader := StateM Cursor

namespace Reader

/-- The next token, which stays there. -/
def peek : Reader Token := fun c => (c.tokens.headD ⟨.finish, "", 0⟩, c)

/-- Pass over the next token, but never over the end. -/
def advance : Reader Token := fun c =>
  match c.tokens with
  | [] => (⟨.finish, "", 0⟩, c)
  | t :: rest => (t, if t.kind == .finish then c else { c with tokens := rest })

def report (t : Token) (fault : Fault) : Reader Unit := fun c =>
  ((), { c with faults := ⟨t.start, fault⟩ :: c.faults })

/-- How many tokens are left. -/
def remaining : Reader Nat := fun c => (c.tokens.length, c)

/-- Pass over the mark `mark`, or note the fault that it is missing. -/
def expect (mark : String) (fault : Fault) : Reader Unit := do
  let t ← peek
  if t.isPunctuation mark then discard advance else report t fault

/-- The value of a number token. -/
def numberValue (t : Token) : Reader Float := do
  let x := (Number.read? t.text).getD 0
  if !x.isFinite then report t (.numberTooLarge t.text)
  return x

def logicalWord? (s : String) : Option Bool :=
  if Text.sameIgnoringCase s "true" then some true
  else if Text.sameIgnoringCase s "false" then some false
  else none

/-- The rest of a range whose start was just read, from its colon on. -/
def rangeEnd (start : Place) : Reader Expr := do
  discard advance
  let t ← peek
  let readable := t.kind == .identifier || (start.kind == .row && t.kind == .number)
  match if readable then Place.read? start.kind t.text.toList else none with
  | some last =>
    discard advance
    return .reference (.single (.between start last))
  | none =>
    report t (.badRangeEnd (String.ofList start.name))
    return .reference (.ofPlace start)

/-- The place that `text` starts a range with, `cell` apart. -/
def lineStart? (text : String) : Option Place :=
  (Place.readColumn? text.toList).or (Place.readRow? text.toList)

/-- The arguments of a call after its opening parenthesis; `steps` bounds their number. -/
def arguments (expression : Reader Expr) (function : String) : Nat → Reader (List Expr)
  | 0 => return []
  | steps + 1 => do
    let t ← peek
    let argument ←
      if t.isPunctuation "," || t.isPunctuation ")" then pure Expr.missing else expression
    let t ← peek
    if t.isPunctuation "," then
      discard advance
      return argument :: (← arguments expression function steps)
    else
      if t.isPunctuation ")" then discard advance else report t (.openCall function)
      return [argument]

/-- A call of `function`, from its opening parenthesis on. -/
def call (expression : Reader Expr) (function : String) : Reader Expr := do
  discard advance
  if (← peek).isPunctuation ")" then
    discard advance
    return .call function []
  else return .call function (← arguments expression function (← remaining))

/-- What starts with a word: a call, a truth value, a reference or a name. -/
def word (expression : Reader Expr) : Reader Expr := do
  let t ← advance
  let next ← peek
  if next.isPunctuation "(" then call expression t.text
  else if let some b := logicalWord? t.text then return .literal (.logical b)
  else
    let inRange := next.isOperator ":"
    match Place.readCell? t.text.toList with
    | some cell => if inRange then rangeEnd cell else return .reference (.ofPlace cell)
    | none =>
      match if inRange then lineStart? t.text else none with
      | some line => rangeEnd line
      | none =>
        if t.text.toList.contains '$' then report t (.brokenReference t.text)
        return .name t.text

/-- The further parts of a union, each after its comma; `steps` bounds their number. -/
def unionParts (expression : Reader Expr) : Nat → Reader (List Reference)
  | 0 => return []
  | steps + 1 => do
    if (← peek).isPunctuation "," then
      discard advance
      let t ← peek
      match ← expression with
      | .reference r => return r :: (← unionParts expression steps)
      | _ =>
        report t .unionOfNonReference
        unionParts expression steps
    else return []

/-- What stands in parentheses: an expression, or a union of references. -/
def parenthesized (expression : Reader Expr) : Reader Expr := do
  let start ← advance
  if (← peek).isPunctuation ")" then
    report start .emptyParentheses
    discard advance
    return .missing
  else
    let inner ← expression
    match inner, (← peek).isPunctuation "," with
    | .reference first, true =>
      let parts ← unionParts expression (← remaining)
      expect ")" .openParenthesis
      return .reference (.union (first :: parts))
    | _, _ =>
      expect ")" .openParenthesis
      return .paren inner

/-- One item of an array constant; a number may have a sign. -/
def arrayItem : Reader (Option Literal) := do
  let t ← peek
  let negative := t.isOperator "-"
  if negative || t.isOperator "+" then
    discard advance
    let n ← peek
    if n.kind == .number then
      discard advance
      let x ← numberValue n
      return some (.number (if negative then -x else x))
    else
      report n .signWithoutNumber
      return none
  else
    match t.kind, logicalWord? t.text with
    | .number, _ =>
      discard advance
      return some (.number (← numberValue t))
    | .string, _ =>
      discard advance
      return some (.text (Text.unquote t.text))
    | .error, _ =>
      discard advance
      return (ErrorCode.ofText? t.text).map .error
    | .identifier, some b =>
      discard advance
      return some (.logical b)
    | .punctuation, _ | .finish, _ =>
      report t .missingLiteral
      return none
    | _, _ =>
      report t .notLiteral
      discard advance
      return none

/-- The rows of an array constant from an item on, the first of them with `row` in front, in
reverse; `steps` bounds the number of items. -/
def arrayRows (row : List Literal) : Nat → Reader (List (List Literal))
  | 0 => return [row.reverse]
  | steps + 1 => do
    let row := (← arrayItem).toList ++ row
    let t ← peek
    if t.isPunctuation "," then
      discard advance
      arrayRows row steps
    else if t.isPunctuation ";" then
      discard advance
      return row.reverse :: (← arrayRows [] steps)
    else
      if t.isPunctuation "\x7d" then discard advance else report t .openArray
      return [row.reverse]

/-- Every row is as long as the first. -/
def isRectangular (rows : List (List Literal)) : Bool :=
  rows.all fun row => row.length == (rows.headD []).length

def array : Reader Expr := do
  let start ← advance
  if (← peek).isPunctuation "\x7d" then
    report start .emptyArray
    discard advance
    return .array []
  else
    let rows ← arrayRows [] (← remaining)
    if !isRectangular rows then report start .unevenRows
    return .array rows

/-- An operand without signs. -/
def primary (expression : Reader Expr) : Reader Expr := do
  let t ← peek
  match t.kind with
  | .number =>
    discard advance
    let line := if (← peek).isOperator ":" then Place.readRow? t.text.toList else none
    match line with
    | some row => rangeEnd row
    | none => return .literal (.number (← numberValue t))
  | .string =>
    discard advance
    return .literal (.text (Text.unquote t.text))
  | .error =>
    discard advance
    return .literal (.error ((ErrorCode.ofText? t.text).getD .badValue))
  | .identifier => word expression
  | .finish =>
    report t .endOfFormula
    return .missing
  | .bad _ =>
    discard advance
    return .missing
  | .operator | .punctuation =>
    if t.isPunctuation "(" then parenthesized expression
    else if t.isPunctuation "\x7b" then array
    else
      report t (.unexpected t.text)
      discard advance
      return .missing

/-- The sign that a token is. -/
def sign? (t : Token) : Option Sign :=
  if t.isOperator "-" then some .minus
  else if t.isOperator "+" then some .plus
  else none

/-- An operand with the signs in front of it; `steps` bounds their number. -/
def signed (operand : Reader Expr) : Nat → Reader Expr
  | 0 => operand
  | steps + 1 => do
    match sign? (← peek) with
    | some s =>
      discard advance
      return .sign s (← signed operand steps)
    | none => operand

/-- The operator of one level that a token is. -/
def operator? (level : List BinaryOp) (t : Token) : Option BinaryOp :=
  if t.kind == .operator then (BinaryOp.ofSymbol? t.text).filter level.contains else none

/-- Operands joined from the left by operators of one level; `steps` bounds their number. -/
def chain (level : List BinaryOp) (operand : Reader Expr) : Nat → Expr → Reader Expr
  | 0, left => return left
  | steps + 1, left => do
    match operator? level (← peek) with
    | some op =>
      discard advance
      let right ← operand
      chain level operand steps (.binary op left right)
    | none => return left

/-- An expression of the given levels, loosest first, over `operand`. -/
def climb (operand : Reader Expr) : List (List BinaryOp) → Reader Expr
  | [] => operand
  | level :: tighter => do
    let left ← climb operand tighter
    chain level (climb operand tighter) (← remaining) left

/-- An expression that nests at most `depth` deep. -/
def expression : Nat → Reader Expr
  | 0 => return .missing
  | depth + 1 =>
    climb (do signed (primary (expression depth)) (← remaining)) BinaryOp.levels

/-- A whole formula: an expression and nothing after it. -/
def formula : Reader Expr := do
  let first ← peek
  let e ←
    if first.kind == .finish then do
      report first .emptyFormula
      pure Expr.missing
    else expression (← remaining)
  let last ← peek
  if last.kind != .finish then report last (.unexpected last.text)
  return e

end Reader

/-- The tree of a text and all that is wrong with it. -/
structure Parsed where
  expr : Expr
  diagnostics : List Diagnostic

namespace Parsed

/-- The text has no fault. -/
def isValid (p : Parsed) : Bool := p.diagnostics.isEmpty

/-- Read a formula without its leading equals sign. -/
def ofText (text : String) : Parsed :=
  let tokens := Token.lex text
  let (e, c) := Reader.formula.run ⟨tokens, []⟩
  ⟨e, Diagnostic.sort (tokens.filterMap Token.diagnostic? ++ c.faults.reverse)⟩

end Parsed

end Spreadsheet
