import Spreadsheet.Formula.Fault
import Spreadsheet.Number.Numeral
import Spreadsheet.Text.Blank
import Spreadsheet.Text.Letter
import Spreadsheet.Value.Basic

/-! The words of a formula. Every character that is not blank belongs to exactly one token, and
what makes no word becomes a bad token that knows its fault. -/

namespace Spreadsheet

inductive Token.Kind where
  | number | string | identifier | error | operator | punctuation
  /-- The end of the formula. -/
  | finish
  | bad (fault : Fault)
  deriving DecidableEq, Repr

structure Token where
  kind : Token.Kind
  /-- The characters of the token; a string has its quotes. -/
  text : String
  /-- Where it starts, in bytes. -/
  start : Nat
  deriving DecidableEq, Repr

namespace Token

def isNumberChar (c : Char) : Bool := c.isDigit || c == '.'

def startsIdentifier (c : Char) : Bool := Text.isLetter c || c == '_' || c == '$'

def isIdentifierChar (c : Char) : Bool := Text.isLetterOrNumeric c || c == '_' || c == '$'

/-- How many characters of `cs` the string runs on for, its closing quote included; a quote
written twice does not close it. -/
def stringEnd? : List Char → Option Nat
  | [] => none
  | '"' :: '"' :: rest => (stringEnd? rest).map (· + 2)
  | '"' :: _ => some 1
  | _ :: rest => (stringEnd? rest).map (· + 1)

/-- The error literal that `cs` starts with. -/
def errorLiteral? (cs : List Char) : Option ErrorCode :=
  ErrorCode.all.find? fun e =>
    (cs.take e.text.length).map Char.toUpper == e.text.toList.map Char.toUpper

/-- What kind of token starts with `c`, and how many characters of `rest` belong to it. -/
def scan (c : Char) (rest : List Char) : Kind × Nat :=
  if isNumberChar c then
    let more := rest.takeWhile isNumberChar
    let text := c :: more
    if (Number.Numeral.read? text).isSome then (.number, more.length)
    else (.bad (.malformedNumber (String.ofList text)), more.length)
  else if c == '"' then
    match stringEnd? rest with
    | some n => (.string, n)
    | none => (.bad .openString, rest.length)
  else if c == '#' then
    match errorLiteral? (c :: rest) with
    | some e => (.error, e.text.length - 1)
    | none => (.bad .unknownErrorLiteral, 0)
  else if startsIdentifier c then (.identifier, (rest.takeWhile isIdentifierChar).length)
  else if c == '<' then
    (.operator, if rest.head? == some '=' || rest.head? == some '>' then 1 else 0)
  else if c == '>' then (.operator, if rest.head? == some '=' then 1 else 0)
  else if "+-*/^&=:".toList.contains c then (.operator, 0)
  else if "(),;\x7b\x7d".toList.contains c then (.punctuation, 0)
  else (.bad (.strayCharacter c), 0)

/-- The tokens of `cs`, which starts at byte `offset`. The first `taken` characters already belong
to a token. -/
def lexFrom (offset taken : Nat) : List Char → List Token
  | [] => [⟨.finish, "", offset⟩]
  | c :: rest =>
    match taken with
    | n + 1 => lexFrom (offset + c.utf8Size) n rest
    | 0 =>
      if Text.isBlank c then lexFrom (offset + c.utf8Size) 0 rest
      else
        let (kind, more) := scan c rest
        ⟨kind, String.ofList (c :: rest.take more), offset⟩ :: lexFrom (offset + c.utf8Size) more rest

/-- The tokens of a formula, with the token for its end as the last one. -/
def lex (text : String) : List Token := lexFrom 0 0 text.toList

/-- What is wrong with a token by itself. -/
def diagnostic? (t : Token) : Option Diagnostic :=
  match t.kind with
  | .bad fault => some ⟨t.start, fault⟩
  | _ => none

def isOperator (t : Token) (symbol : String) : Bool := t.kind == .operator && t.text == symbol

def isPunctuation (t : Token) (mark : String) : Bool := t.kind == .punctuation && t.text == mark

end Token

end Spreadsheet
