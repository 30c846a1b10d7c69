import Spreadsheet.Grid.Place
import Spreadsheet.Text.Blank

/-! References: what a formula reads. A reference is a place, a range between two places of one
kind, a defined name, or a union of references. Edits of the grid give a new reference of the
same shape; a reference any part of which is gone is left as it is and shows as `#REF!`. -/

namespace Spreadsheet

/-- One thing that a reference points at. -/
inductive Target where
  | place (p : Place)
  /-- Two places of one kind, first and last along each axis. -/
  | range (first last : Place)
  | name (n : String)
  deriving DecidableEq, Repr

inductive Reference where
  | single (t : Target)
  | union (parts : List Reference)
  deriving Repr

namespace Reference

mutual
def decEq : (a b : Reference) → Decidable (a = b)
  | single s, single t => if h : s = t then isTrue (by rw [h]) else isFalse (by simpa using h)
  | union a, union b =>
    match decEqAll a b with
    | isTrue h => isTrue (by rw [h])
    | isFalse h => isFalse (by simpa using h)
  | single _, union _ => isFalse nofun
  | union _, single _ => isFalse nofun
def decEqAll : (a b : List Reference) → Decidable (a = b)
  | [], [] => isTrue rfl
  | r :: a, s :: b =>
    match decEq r s, decEqAll a b with
    | isTrue h, isTrue h' => isTrue (by rw [h, h'])
    | isFalse h, _ => isFalse fun e => h (List.cons.inj e).1
    | _, isFalse h => isFalse fun e => h (List.cons.inj e).2
  | [], _ :: _ => isFalse nofun
  | _ :: _, [] => isFalse nofun
end

instance : DecidableEq Reference := decEq

end Reference

/-- What an invalid reference shows. -/
def invalidText : String := "#REF!"

namespace Target

/-- The coordinates of two places along an axis, exchanged when they are out of order. -/
def sortedAlong (axis : Axis) (ends : Place × Place) : Place × Place :=
  match ends.1.mark? axis, ends.2.mark? axis with
  | some m, some n =>
    if n.index < m.index then (ends.1.withMark axis n, ends.2.withMark axis m) else ends
  | _, _ => ends

/-- The range between two places given in either order. -/
def between (a b : Place) : Target :=
  let ends := sortedAlong .column (sortedAlong .row (a, b))
  range ends.1 ends.2

/-- The range between two places, which must be of one kind. -/
def between? (a b : Place) : Option Target :=
  if a.kind = b.kind then some (between a b) else none

def isValid : Target → Bool
  | place p => p.isValid
  | range a b => a.isValid && b.isValid
  | name _ => true

def invalidated : Target → Target
  | place p => place p.invalidated
  | range a b => range a.invalidated b.invalidated
  | name n => name n

/-- The cells a valid target denotes; a name denotes none by itself. -/
def region? (t : Target) : Option Region :=
  if t.isValid then
    match t with
    | place p => some p.cells
    | range a b => some (a.cells.hull b.cells)
    | name _ => none
  else none

def text (t : Target) : String :=
  if t.isValid then
    match t with
    | place p => String.ofList p.name
    | range a b => String.ofList (a.name ++ ':' :: b.name)
    | name n => n
  else invalidText

/-- The target as seen from a formula that was copied by the given offsets. -/
def shifted (rows columns : Int) : Target → Target
  | place p => place (p.shifted rows columns)
  | range a b => between (a.shifted rows columns) (b.shifted rows columns)
  | name n => name n

/-- A range whose free ends move to the ends of `s`. -/
def stretched (a b : Place) (axis : Axis) (m n : Mark) (s : Span) : Target :=
  between (if m.fixed then a else a.withMark axis ⟨s.first, false⟩)
    (if n.fixed then b else b.withMark axis ⟨s.last, false⟩)

/-- The target once `count` lines are inserted at line `start`. -/
def afterInsert (axis : Axis) (start count : Nat) : Target → Target
  | place p => place (p.afterInsert axis start count)
  | t@(range a b) =>
    match a.mark? axis, b.mark? axis with
    | some m, some n =>
      stretched a b axis m n ((Span.between m.index n.index).afterInsert start count)
    | _, _ => t
  | name n => name n

/-- The target once `count` lines from line `start` are removed. -/
def afterRemove (axis : Axis) (start count : Nat) : Target → Target
  | place p => place (p.afterRemove axis start count)
  | t@(range a b) =>
    match a.mark? axis, b.mark? axis with
    | some m, some n =>
      match (Span.between m.index n.index).afterRemove? start count with
      | some s => stretched a b axis m n s
      | none => t.invalidated
    | _, _ => t
  | name n => name n

end Target

namespace Reference

def ofPlace (p : Place) : Reference := single (.place p)

/-- The freely moving reference to a cell. -/
def ofPosition (p : Position) : Reference := ofPlace (.ofPosition p)

/-- The freely moving range between two cells in either order. -/
def ofCorners (a b : Position) : Reference :=
  single (.between (.ofPosition a) (.ofPosition b))

def ofName (n : String) : Reference := single (.name n)

mutual
/-- What the reference points at, from left to right. -/
def targets : Reference → List Target
  | single t => [t]
  | union parts => targetsOf parts
def targetsOf : List Reference → List Target
  | [] => []
  | r :: rest => targets r ++ targetsOf rest
end

mutual
/-- The reference with `f` applied to all it points at. -/
def map (f : Target → Target) : Reference → Reference
  | single t => single (f t)
  | union parts => union (mapAll f parts)
def mapAll (f : Target → Target) : List Reference → List Reference
  | [] => []
  | r :: rest => map f r :: mapAll f rest
end

/-- Nothing that the reference points at is gone. -/
def isValid (r : Reference) : Bool := r.targets.all Target.isValid

mutual
/-- The least region around all that a valid reference denotes; `none` with a name in it. -/
def hull? : Reference → Option Region
  | single t => t.region?
  | union [] => none
  | union (r :: rest) => do hullOf? (← hull? r) rest
def hullOf? (start : Region) : List Reference → Option Region
  | [] => some start
  | r :: rest => do hullOf? (start.hull (← hull? r)) rest
end

/-- The one region that stands for the reference, unless part of it is gone or a name. -/
def region? (r : Reference) : Option Region := if r.isValid then r.hull? else none

/-- Every region that the reference covers. -/
def regions (r : Reference) : List Region := r.targets.filterMap Target.region?

mutual
def validText : Reference → String
  | single t => t.text
  | union parts => "(" ++ ",".intercalate (validTexts parts) ++ ")"
def validTexts : List Reference → List String
  | [] => []
  | r :: rest => validText r :: validTexts rest
end

def text (r : Reference) : String := if r.isValid then r.validText else invalidText

/-- The reference as seen from a formula that was copied by the given offsets. -/
def shifted (r : Reference) (rows columns : Int) : Reference := r.map (.shifted rows columns)

/-- The reference once `count` lines are inserted at line `start`. -/
def afterInsert (r : Reference) (axis : Axis) (start count : Nat) : Reference :=
  if count = 0 || !r.isValid then r else r.map (.afterInsert axis start count)

/-- The reference once `count` lines from line `start` are removed. -/
def afterRemove (r : Reference) (axis : Axis) (start count : Nat) : Reference :=
  if count = 0 || !r.isValid then r else r.map (.afterRemove axis start count)

/-- The range between two texts that both name places of one kind. -/
def readRange? (left right : List Char) : Option Target :=
  [Place.Kind.cell, .column, .row].findSome? fun kind => do
    let a ← Place.read? kind left
    let b ← Place.read? kind right
    return .between a b

/-- The cell or range that `text` names; the blanks around it do not matter. -/
def read? (text : String) : Option Reference :=
  let cs := (Text.trim text).toList
  match cs.dropWhile (· != ':') with
  | _ :: right => (readRange? (cs.takeWhile (· != ':')) right).map single
  | [] => (Place.readCell? cs).map ofPlace

end Reference

end Spreadsheet
