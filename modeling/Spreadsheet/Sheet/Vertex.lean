import Spreadsheet.Grid.Region

/-! What can be read or depend on something in a sheet: a cell, a defined name, or a range that is
too large to stand for its cells. -/

namespace Spreadsheet

inductive Vertex where
  | cell (p : Position)
  | region (r : Region)
  /-- A defined name in upper case. -/
  | name (n : String)
  deriving DecidableEq, Repr

namespace Vertex

def rank : Vertex → Nat
  | cell _ => 0
  | region _ => 1
  | name _ => 2

def cell? : Vertex → Option Position
  | cell p => some p
  | _ => none

def region? : Vertex → Option Region
  | region r => some r
  | _ => none

def name? : Vertex → Option String
  | name n => some n
  | _ => none

/-- Cells first, then regions, then names. -/
instance : Ord Vertex :=
  ⟨compareLex (compareOn rank)
    (compareLex (compareOn cell?) (compareLex (compareOn region?) (compareOn name?)))⟩

instance : Std.TransOrd Vertex :=
  inferInstanceAs (Std.TransCmp (compareLex (compareOn rank)
    (compareLex (compareOn cell?) (compareLex (compareOn region?) (compareOn name?)))))

instance : Std.LawfulEqOrd Vertex where
  compare_self {a} := Std.ReflCmp.compare_self
  eq_of_compare {a b} h := by
    change (compareLex (compareOn rank)
      (compareLex (compareOn cell?) (compareLex (compareOn region?) (compareOn name?)))) _ _ = .eq
      at h
    simp only [compareLex, compareOn, Ordering.then_eq_eq, Std.compare_eq_iff_eq] at h
    cases a <;> cases b <;> simp_all [rank, cell?, region?, name?]

def text : Vertex → String
  | cell p => p.text
  | region r => r.text
  | name n => n

/-- The vertices of a path in words. -/
def pathText (path : List Vertex) : String := " -> ".intercalate (path.map text)

end Vertex

end Spreadsheet
