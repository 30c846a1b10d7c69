import Spreadsheet.Sheet.Basic

/-! Keeping the dependency graph in step with the formulas and names. A range of few cells is read
as its cells; a larger or endless one is a vertex of its own, which reads the formula cells in
it. -/

namespace Spreadsheet.Sheet

/-- What a region is read as. -/
def verticesOf (s : Sheet) (r : Region) : List Vertex :=
  if r.isSingleCell then [.cell r.topLeft]
  else if r.isBounded ∧ r.area ≤ s.settings.maxDependencyCells then
    (Matrix.indices r.rows).flatMap fun row =>
      (Matrix.indices r.columns).map fun column => .cell ⟨row, column⟩
  else [.region r]

/-- What a reference is read as. -/
def verticesRead (s : Sheet) : Reference → List Vertex
  | .single (.name n) => [.name (Text.upperAscii n)]
  | r => r.regions.flatMap s.verticesOf

/-- All that references read, in order. -/
def precedents (s : Sheet) (rs : List Reference) : List Vertex :=
  (Std.ExtTreeSet.ofList (rs.flatMap s.verticesRead)).toList

/-- What a definition refers to. -/
def referencesOf : Definition → List Reference
  | .reference r => [r]
  | .value _ => []

/-- The region vertices around a cell. -/
def regionsAround (s : Sheet) (p : Position) : List Vertex :=
  s.graph.vertices.filter fun v => (v.region?.map fun r => r.contains p).getD false

/-- Something keeps a vertex that nobody reads: a formula, or a definition. -/
def holds (s : Sheet) : Vertex → Bool
  | .cell p => s.isFormula p
  | .region _ => false
  | .name n => s.names.contains n

/-- Drop a vertex that nobody reads and nothing keeps. -/
def pruneOne (s : Sheet) (v : Vertex) : Sheet :=
  if s.graph.contains v && (s.graph.dependentsOf v).isEmpty && !s.holds v then
    { s with graph := s.graph.removeVertex v }
  else s

def prune (s : Sheet) (vs : List Vertex) : Sheet := vs.foldl pruneOne s

/-- Let a new region vertex read the formula cells in it. -/
def linkMembers (s : Sheet) (v : Vertex) : Sheet :=
  match v with
  | .region r =>
    if s.graph.contains v then s
    else
      let members := (s.cellsIn r).filter (·.2.isFormula)
      { s with graph := members.foldl (fun g c => g.addEdge (.cell c.1) v) s.graph }
  | _ => s

/-- Let `v` read `precedents` and nothing else. -/
def link (s : Sheet) (v : Vertex) (precedents : List Vertex) : Sheet :=
  let old := s.graph.precedentsOf v
  let s := { s with graph := s.graph.removePrecedents v }
  let s := precedents.foldl linkMembers s
  { s with graph := s.graph.addEdges precedents v }.prune old

/-- Let a formula cell read what its formula refers to, and the regions around it read the
cell. -/
def linkFormula (s : Sheet) (p : Position) (f : Formula) : Sheet :=
  let s := s.link (.cell p) (s.precedents f.references)
  { s with graph := (s.regionsAround p).foldl (fun g r => g.addEdge (.cell p) r) s.graph }

/-- Let a name read what its definition refers to. -/
def linkName (s : Sheet) (name : String) (d : Definition) : Sheet :=
  s.link (.name name) (s.precedents (referencesOf d))

/-- Forget what the formula that was in a cell read. -/
def unlinkCell (s : Sheet) (p : Position) : Sheet :=
  let v := Vertex.cell p
  let old := s.graph.precedentsOf v
  let g := s.graph.removePrecedents v
  let regions := (g.dependentsOf v).filter fun r => r.region?.isSome
  { s with graph := regions.foldl (fun g r => g.removeEdge v r) g }.prune (old ++ regions ++ [v])

/-- Make the graph anew from the names and formulas. -/
def relinked (s : Sheet) : Sheet :=
  let s := { s with graph := .empty }
  let s := s.names.toList.foldl (fun s d => s.linkName d.1 d.2) s
  s.formulas.foldl (fun s c => s.linkFormula c.1 c.2) s

end Spreadsheet.Sheet
