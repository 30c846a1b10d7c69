import Std.Data.ExtTreeMap
import Std.Data.ExtTreeSet

/-! Who reads whom. An edge leads from a precedent to a dependent that reads it; both directions
are stored, so that neither needs a search. -/

namespace Spreadsheet

structure Graph (V : Type) [Ord V] where
  /-- What each vertex reads. -/
  precedents : Std.ExtTreeMap V (Std.ExtTreeSet V)
  /-- What reads each vertex. -/
  dependents : Std.ExtTreeMap V (Std.ExtTreeSet V)

namespace Graph

variable {V : Type} [Ord V]

def empty : Graph V := ⟨∅, ∅⟩

instance : Inhabited (Graph V) := ⟨empty⟩

def size (g : Graph V) : Nat := g.precedents.size

def isEmpty (g : Graph V) : Bool := g.precedents.isEmpty

section
variable [Std.TransOrd V]

def contains (g : Graph V) (v : V) : Bool := g.precedents.contains v

/-- All vertices in order. -/
def vertices (g : Graph V) : List V := g.precedents.keys

/-- What `v` reads, in order. -/
def precedentsOf (g : Graph V) (v : V) : List V := (g.precedents.getD v ∅).toList

/-- What reads `v`, in order. -/
def dependentsOf (g : Graph V) (v : V) : List V := (g.dependents.getD v ∅).toList

def addVertex (g : Graph V) (v : V) : Graph V :=
  ⟨g.precedents.insertIfNew v ∅, g.dependents.insertIfNew v ∅⟩

/-- Let `dependent` read `precedent`. -/
def addEdge (g : Graph V) (precedent dependent : V) : Graph V :=
  let g := (g.addVertex precedent).addVertex dependent
  ⟨g.precedents.modify dependent (·.insert precedent),
    g.dependents.modify precedent (·.insert dependent)⟩

/-- Let `dependent` read all of `precedents`. -/
def addEdges (g : Graph V) (precedents : List V) (dependent : V) : Graph V :=
  precedents.foldl (fun g p => g.addEdge p dependent) (g.addVertex dependent)

def removeEdge (g : Graph V) (precedent dependent : V) : Graph V :=
  ⟨g.precedents.modify dependent (·.erase precedent),
    g.dependents.modify precedent (·.erase dependent)⟩

/-- Let `dependent` read nothing. -/
def removePrecedents (g : Graph V) (dependent : V) : Graph V :=
  ⟨g.precedents.modify dependent fun _ => ∅,
    (g.precedentsOf dependent).foldl (fun m p => m.modify p (·.erase dependent)) g.dependents⟩

/-- Remove a vertex and every edge at it. -/
def removeVertex (g : Graph V) (v : V) : Graph V :=
  let g := g.removePrecedents v
  ⟨(g.dependentsOf v).foldl (fun m d => m.modify d (·.erase v)) (g.precedents.erase v),
    g.dependents.erase v⟩

end

end Graph

end Spreadsheet
