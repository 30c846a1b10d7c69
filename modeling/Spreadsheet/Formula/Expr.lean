import Spreadsheet.Grid.Reference
import Spreadsheet.Text.Quoted
import Spreadsheet.Value.Basic

/-! Formulas as trees, and their text. Parentheses are kept in the tree, so printing needs no
rule for where to put them. -/

namespace Spreadsheet

inductive Sign where
  | plus | minus
  deriving DecidableEq, Repr

inductive BinaryOp where
  | add | subtract | multiply | divide | power | concat
  | equal | unequal | less | atMost | greater | atLeast
  deriving DecidableEq, Repr

namespace BinaryOp

def all : List BinaryOp :=
  [add, subtract, multiply, divide, power, concat, equal, unequal, less, atMost, greater, atLeast]

def symbol : BinaryOp → String
  | add => "+"
  | subtract => "-"
  | multiply => "*"
  | divide => "/"
  | power => "^"
  | concat => "&"
  | equal => "="
  | unequal => "<>"
  | less => "<"
  | atMost => "<="
  | greater => ">"
  | atLeast => ">="

def ofSymbol? (s : String) : Option BinaryOp := all.find? (·.symbol == s)

/-- The operators by how tightly they bind, loosest first. -/
def levels : List (List BinaryOp) :=
  [[equal, unequal, less, atMost, greater, atLeast], [concat], [add, subtract],
    [multiply, divide], [power]]

theorem ofSymbol?_symbol (op : BinaryOp) : ofSymbol? op.symbol = some op := by
  cases op <;> decide

end BinaryOp

def Sign.symbol : Sign → Char
  | plus => '+'
  | minus => '-'

inductive Literal where
  | number (x : Float)
  | text (s : String)
  | logical (b : Bool)
  | error (e : ErrorCode)
  deriving BEq

namespace Literal

def toValue : Literal → Value
  | number x => .number x
  | text s => .text s
  | logical b => .logical b
  | error e => .error e

def print : Literal → List Char
  | number x => (Number.text x).toList
  | text s => (Text.quote s).toList
  | logical b => (Value.logicalText b).toList
  | error e => e.text.toList

end Literal

inductive Expr where
  | literal (l : Literal)
  /-- A word that stands for a defined name. -/
  | name (n : String)
  | reference (r : Reference)
  | sign (s : Sign) (operand : Expr)
  | binary (op : BinaryOp) (left right : Expr)
  | paren (inner : Expr)
  | call (function : String) (arguments : List Expr)
  | array (rows : List (List Literal))
  /-- An argument left out, or what could not be read. -/
  | missing

namespace Expr

instance : Inhabited Expr := ⟨missing⟩

mutual
/-- The same tree, where numbers are the same when they are equal. -/
def beq : Expr → Expr → Bool
  | literal a, literal b => a == b
  | name a, name b => a == b
  | reference a, reference b => a == b
  | sign s a, sign t b => s == t && beq a b
  | binary p a c, binary q b d => p == q && beq a b && beq c d
  | paren a, paren b => beq a b
  | call f a, call g b => f == g && beqAll a b
  | array a, array b => a == b
  | missing, missing => true
  | _, _ => false
def beqAll : List Expr → List Expr → Bool
  | [], [] => true
  | a :: as, b :: bs => beq a b && beqAll as bs
  | _, _ => false
end

instance : BEq Expr := ⟨beq⟩

/-- Items with a separating character between them. -/
def separated (separator : Char) : List (List Char) → List Char
  | [] => []
  | [item] => item
  | item :: rest => item ++ separator :: separated separator rest

mutual
/-- The characters of the formula, without the leading equals sign. -/
def print : Expr → List Char
  | literal l => l.print
  | name n => n.toList
  | reference r => r.text.toList
  | sign s e => s.symbol :: print e
  | binary op left right => print left ++ op.symbol.toList ++ print right
  | paren e => '(' :: print e ++ [')']
  | call f args => f.toList ++ '(' :: separated ',' (printAll args) ++ [')']
  | array rows =>
    '\x7b' :: separated ';' (rows.map fun row => separated ',' (row.map Literal.print)) ++ ['\x7d']
  | missing => []
def printAll : List Expr → List (List Char)
  | [] => []
  | e :: rest => print e :: printAll rest
end

def text (e : Expr) : String := String.ofList e.print

mutual
/-- The tree with `f` applied to every reference. -/
def mapReferences (f : Reference → Reference) : Expr → Expr
  | reference r => reference (f r)
  | sign s e => sign s (mapReferences f e)
  | binary op left right => binary op (mapReferences f left) (mapReferences f right)
  | paren e => paren (mapReferences f e)
  | call g args => call g (mapReferencesAll f args)
  | e@(literal _) | e@(name _) | e@(array _) | e@missing => e
def mapReferencesAll (f : Reference → Reference) : List Expr → List Expr
  | [] => []
  | e :: rest => mapReferences f e :: mapReferencesAll f rest
end

mutual
/-- What the formula refers to, from left to right, names included. -/
def references : Expr → List Reference
  | reference r => [r]
  | name n => [.ofName n]
  | sign _ e | paren e => references e
  | binary _ left right => references left ++ references right
  | call _ args => referencesAll args
  | literal _ | array _ | missing => []
def referencesAll : List Expr → List Reference
  | [] => []
  | e :: rest => references e ++ referencesAll rest
end

end Expr

end Spreadsheet
