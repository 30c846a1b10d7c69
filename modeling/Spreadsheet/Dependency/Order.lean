import Spreadsheet.Dependency.Graph
import Spreadsheet.Text.Escaped

/-! Walks over a graph: all that depends on some vertices, an order in which every vertex comes
after what it reads, and cycles, which have no such order. A walk that goes deeper meets a vertex
it has not met before, so the number of vertices bounds its depth. -/

namespace Spreadsheet.Graph

variable {V : Type} [Ord V] [Std.TransOrd V]

/-- `seen` with `v` and all that depends on it, to the given depth. -/
def spread (g : Graph V) : Nat → Std.ExtTreeSet V → V → Std.ExtTreeSet V
  | 0, seen, _ => seen
  | depth + 1, seen, v =>
    if seen.contains v then seen
    else (g.dependentsOf v).foldl (g.spread depth) (seen.insert v)

/-- The vertices in `roots` and all that depends on them, directly or through others. -/
def closure (g : Graph V) (roots : List V) : Std.ExtTreeSet V :=
  roots.foldl (g.spread (g.size + 1)) ∅

variable [DecidableEq V]

/-- Look for a way from `v` back to `start`, against the edges. The vertices on the way so far are
in `path`, the latest first; the outcome is a whole cycle as an exception, or the vertices met. -/
def seek (g : Graph V) (start : V) :
    Nat → List V → Std.ExtTreeSet V → V → Except (List V) (Std.ExtTreeSet V)
  | 0, _, seen, _ => .ok seen
  | depth + 1, path, seen, v =>
    (g.precedentsOf v).foldlM
      (fun seen next =>
        if next = start then .error (next :: path).reverse
        else if seen.contains next then .ok seen
        else g.seek start depth (next :: path) (seen.insert next) next)
      seen

/-- A cycle from `start` through what it reads back to `start`, if there is one. -/
def cycleFrom? (g : Graph V) (start : V) : Option (List V) :=
  match g.seek start (g.size + 1) [start] ∅ start with
  | .ok _ => none
  | .error cycle => some cycle

/-- Vertices already in order, the latest first. -/
structure Placed (V : Type) [Ord V] where
  order : List V
  members : Std.ExtTreeSet V

namespace Placed

def empty : Placed V := ⟨[], ∅⟩

def add (p : Placed V) (v : V) : Placed V := ⟨v :: p.order, p.members.insert v⟩

end Placed

/-- The cycle that ends where `v` is met again on `path`, which has the latest vertex first. -/
def cycleAt (path : List V) (v : V) : List V :=
  v :: (path.takeWhile (· ≠ v)).reverse ++ [v]

/-- What is said of a cycle among named vertices. -/
def cycleMessage (cycle : List String) : String :=
  "circular dependency: " ++ Text.escapedList cycle

/-- Place `v` after all it reads within `member`. The vertices on the way to it are in `path`; one
that is met again closes a cycle. -/
def place (g : Graph V) (member : V → Bool) :
    Nat → List V → Placed V → V → Except (List V) (Placed V)
  | 0, _, placed, _ => .ok placed
  | depth + 1, path, placed, v =>
    if placed.members.contains v then .ok placed
    else if v ∈ path then .error (cycleAt path v)
    else do
      let before := (g.precedentsOf v).filter member
      let placed ← before.foldlM (g.place member depth (v :: path)) placed
      return placed.add v

/-- Some vertices in order, each after all it reads within `member`; or a cycle that prevents
it. -/
def orderOf (g : Graph V) (member : V → Bool) (roots : List V) : Except (List V) (List V) := do
  let placed ← roots.foldlM (g.place member (g.size + 2) []) .empty
  return placed.order.reverse

/-- All vertices, each after all it reads. -/
def sort (g : Graph V) : Except (List V) (List V) := g.orderOf (fun _ => true) g.vertices

/-- The vertices of a set, each after all in the set that it reads. -/
def sortWithin (g : Graph V) (s : Std.ExtTreeSet V) : Except (List V) (List V) :=
  g.orderOf s.contains s.toList

end Spreadsheet.Graph
