import Spreadsheet.Grid.Edit

/-! Tags on rectangles of cells. No two tagged regions share a cell: a new one is cut out of those
it covers, and regions of one tag are joined again where they form a larger rectangle. -/

namespace Spreadsheet

structure Tagging (α : Type) where
  entries : List (Region × α)

namespace Tagging

variable {α : Type}

def empty : Tagging α := ⟨[]⟩

instance : Inhabited (Tagging α) := ⟨empty⟩

def size (t : Tagging α) : Nat := t.entries.length

def isEmpty (t : Tagging α) : Bool := t.entries.isEmpty

/-- The tag of a cell. -/
def get? (t : Tagging α) (p : Position) : Option α :=
  (t.entries.find? fun e => e.1.contains p).map (·.2)

/-- The tagged parts of a region. -/
def within (t : Tagging α) (r : Region) : List (Region × α) :=
  t.entries.filterMap fun e => (e.1.meet? r).map fun cut => (cut, e.2)

/-- The entries without the cells of `r`. -/
def carve (entries : List (Region × α)) (r : Region) : List (Region × α) :=
  entries.flatMap fun e => (e.1.subtract r).map fun piece => (piece, e.2)

section
variable [DecidableEq α]

/-- The place of the first entry that joins with `e`, and the region of both. -/
def partner? (e : Region × α) : List (Region × α) → Option (Nat × Region)
  | [] => none
  | f :: rest =>
    match if e.2 = f.2 then e.1.merged? f.1 else none with
    | some r => some (0, r)
    | none => (partner? e rest).map fun found => (found.1 + 1, found.2)

/-- The entries without the one at `i`; the last takes its place. -/
def dropAt (entries : List (Region × α)) (i : Nat) : List (Region × α) :=
  match entries.getLast? with
  | some e => (entries.set i e).dropLast
  | none => []

/-- The entries with the first two that form a rectangle joined, unless no two do. -/
def joinFirst? : List (Region × α) → Option (List (Region × α))
  | [] => none
  | e :: rest =>
    match partner? e rest with
    | some (i, r) => some ((r, e.2) :: dropAt rest i)
    | none => (joinFirst? rest).map (e :: ·)

/-- Join entries until no two form a rectangle. Each step makes them one fewer. -/
def joinAll : Nat → List (Region × α) → List (Region × α)
  | 0, entries => entries
  | steps + 1, entries =>
    match joinFirst? entries with
    | some fewer => joinAll steps fewer
    | none => entries

def ofEntries (entries : List (Region × α)) : Tagging α := ⟨joinAll entries.length entries⟩

/-- Tag every cell of a region anew. -/
def add (t : Tagging α) (r : Region) (tag : α) : Tagging α :=
  ofEntries (carve t.entries r ++ [(r, tag)])

/-- Take the tag off every cell of a region. -/
def clear (t : Tagging α) (r : Region) : Tagging α := ofEntries (carve t.entries r)

/-- The tags after an edit of the grid. -/
def edited (t : Tagging α) (e : Edit) : Tagging α :=
  ofEntries (t.entries.filterMap fun f => (e.region? f.1).map fun r => (r, f.2))

end

end Tagging

end Spreadsheet
