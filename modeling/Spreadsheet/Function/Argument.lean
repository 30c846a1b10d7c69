import Spreadsheet.Grid.Reference
import Spreadsheet.Value.Basic

/-! Arguments as a function sees them, each already of the kind its parameter asks for. -/

namespace Spreadsheet

inductive Argument where
  | number (x : Float)
  | text (s : String)
  | logical (b : Bool)
  | value (v : Value)
  | numbers (xs : List Float)
  | logicals (bs : List Bool)
  | reference (r : Reference)
  | block (rows : List (List Value))
  /-- An optional argument that was left out. -/
  | missing
  | error (e : ErrorCode)

instance : Inhabited Argument := ⟨.missing⟩

def Argument.error? : Argument → Option ErrorCode
  | .error e => some e
  | _ => none

/-- One for each argument of a call. -/
abbrev Arguments := List Argument

namespace Arguments

def at? (args : Arguments) (i : Nat) : Option Argument := args[i]?

/-- The leftmost argument that is an error decides. -/
def firstError? (args : Arguments) : Option ErrorCode := args.findSome? Argument.error?

def number (args : Arguments) (i : Nat) : Except ErrorCode Float :=
  match args.at? i with
  | some (.number x) => .ok x
  | some (.error e) => .error e
  | _ => .error .badValue

/-- The number at `i`, or `default` when it was left out. -/
def numberOr (args : Arguments) (i : Nat) (default : Float) : Except ErrorCode Float :=
  match args.at? i with
  | none | some .missing => .ok default
  | _ => args.number i

def text (args : Arguments) (i : Nat) : Except ErrorCode String :=
  match args.at? i with
  | some (.text s) => .ok s
  | some (.error e) => .error e
  | _ => .error .badValue

/-- The text at `i`, or `default` when it was left out. -/
def textOr (args : Arguments) (i : Nat) (default : String) : Except ErrorCode String :=
  match args.at? i with
  | none | some .missing => .ok default
  | _ => args.text i

def logical (args : Arguments) (i : Nat) : Except ErrorCode Bool :=
  match args.at? i with
  | some (.logical b) => .ok b
  | some (.error e) => .error e
  | _ => .error .badValue

def reference (args : Arguments) (i : Nat) : Except ErrorCode Reference :=
  match args.at? i with
  | some (.reference r) => .ok r
  | some (.error e) => .error e
  | _ => .error .badValue

/-- The single value at `i`, empty when there is none. -/
def value (args : Arguments) (i : Nat) : Value :=
  match args.at? i with
  | some (.value v) => v
  | some (.number x) => .number x
  | some (.text s) => .text s
  | some (.logical b) => .logical b
  | some (.block rows) => .array rows
  | some (.error e) => .error e
  | _ => .empty

/-- All numbers of the arguments, which must hold nothing else. -/
def numbers : Arguments → Except ErrorCode (List Float)
  | [] => .ok []
  | .numbers xs :: rest => do return xs ++ (← numbers rest)
  | .number x :: rest => do return x :: (← numbers rest)
  | .missing :: rest => numbers rest
  | .error e :: _ => .error e
  | _ :: _ => .error .badValue

/-- All truth values of the arguments, which must hold nothing else. -/
def logicals : Arguments → Except ErrorCode (List Bool)
  | [] => .ok []
  | .logicals bs :: rest => do return bs ++ (← logicals rest)
  | .logical b :: rest => do return b :: (← logicals rest)
  | .missing :: rest => logicals rest
  | .error e :: _ => .error e
  | _ :: _ => .error .badValue

/-- The numbers from argument `start` on. -/
def numbersFrom (args : Arguments) (start : Nat) : Except ErrorCode (List Float) :=
  numbers (args.drop start)

/-- The truth values from argument `start` on. -/
def logicalsFrom (args : Arguments) (start : Nat) : Except ErrorCode (List Bool) :=
  logicals (args.drop start)

end Arguments

end Spreadsheet
