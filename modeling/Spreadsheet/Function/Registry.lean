import Std.Data.ExtTreeMap
import Spreadsheet.Function.Basic
import Spreadsheet.Text.Escaped

/-! The functions that a sheet knows, by name in any case of its letters. -/

namespace Spreadsheet

/-- Functions by the upper-case form of their names. -/
structure Registry where
  functions : Std.ExtTreeMap String Function

namespace Registry

/-- Why a function cannot be registered. -/
inductive Failure where
  | badParameters (function : String) (e : Parameter.ListError)
  | badName (name : String)
  | unknown (name : String)
  deriving DecidableEq, Repr

def Failure.message : Failure → String
  | badParameters f (.repeatingNotLast p) =>
    "function " ++ f ++ ": only the last parameter may repeat ('" ++ p ++ "' does)"
  | badParameters f (.requiredAfterOptional p) =>
    "function " ++ f ++ ": required parameter '" ++ p ++ "' follows an optional one"
  | badName name => "invalid function name '" ++ name ++ "'"
  | unknown name => "unknown function '" ++ name ++ "'"

def empty : Registry := ⟨∅⟩

instance : Inhabited Registry := ⟨empty⟩

/-- A letter or underscore, then letters, digits and underscores. -/
def isName : List Char → Bool
  | [] => false
  | c :: rest =>
    (Text.isLetter c || c == '_') && (c :: rest).all fun d => Text.isLetterOrNumeric d || d == '_'

def find? (r : Registry) (name : String) : Option Function := r.functions[Text.upper name]?

def contains (r : Registry) (name : String) : Bool := (r.find? name).isSome

/-- Add a function under a name, in place of the one that had it. -/
def register (r : Registry) (name : String) (f : Function) : Except Failure Registry :=
  if !isName name.toList then .error (.badName name)
  else
    match Parameter.listError? false f.parameters with
    | some e => .error (.badParameters name e)
    | none => .ok ⟨r.functions.insert (Text.upper name) f⟩

/-- Let a second name call the function that `target` calls now. -/
def addAlias (r : Registry) (name target : String) : Except Failure Registry :=
  match r.find? target with
  | some f => r.register name f
  | none => .error (.unknown target)

/-- The names in order, each in upper case. -/
def names (r : Registry) : List String := r.functions.keys

/-- The registry in one line. -/
def summary (r : Registry) : String :=
  "FunctionRegistry \x7b functions: " ++ Text.escapedList r.names ++ " \x7d"

end Registry

end Spreadsheet
