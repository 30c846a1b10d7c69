import Mathlib.Data.Set.Insert
import Spreadsheet.Proofs.Dependency.Edges

/-! A graph stores every edge twice, once at either end, and every change has to be made in both
maps. What the two say together is a set of vertices and a set of edges, and each change does to
these what its name says, also where a vertex is not there or an edge leads back to where it comes
from. So a history of changes can be followed on the sets alone. -/

namespace Spreadsheet.Graph

/-- The vertices of a graph and its edges, each from what is read to what reads it. -/
@[ext]
structure Diagram (V : Type) where
  vertices : Set V
  edges : Set (V × V)

namespace Diagram

variable {V : Type}

def empty : Diagram V := ⟨∅, ∅⟩

def apply (d : Diagram V) : Update V → Diagram V
  | .addVertex v => ⟨insert v d.vertices, d.edges⟩
  | .addEdge precedent dependent =>
    ⟨insert precedent (insert dependent d.vertices), insert (precedent, dependent) d.edges⟩
  | .addEdges precedents dependent =>
    ⟨{v | v ∈ precedents} ∪ insert dependent d.vertices,
      {e | e.1 ∈ precedents ∧ e.2 = dependent} ∪ d.edges⟩
  | .removeEdge precedent dependent => ⟨d.vertices, d.edges \ {(precedent, dependent)}⟩
  | .removePrecedents dependent => ⟨d.vertices, {e ∈ d.edges | e.2 ≠ dependent}⟩
  | .removeVertex v => ⟨d.vertices \ {v}, {e ∈ d.edges | e.1 ≠ v ∧ e.2 ≠ v}⟩

/-- The diagram that some changes lead to. -/
def after (d : Diagram V) (us : List (Update V)) : Diagram V := us.foldl apply d

end Diagram

variable {V : Type} [Ord V] [Std.TransOrd V] {g : Graph V}

/-- What the map of precedents says. -/
def diagram (g : Graph V) : Diagram V :=
  ⟨{v | v ∈ g.precedents}, {e | e.1 ∈ g.precedents.getD e.2 ∅}⟩

theorem mem_vertices_diagram {v : V} : v ∈ g.diagram.vertices ↔ g.contains v = true :=
  contains_iff.symm

theorem diagram_empty : (empty : Graph V).diagram = .empty := by
  ext x
  · exact iff_of_false (by simp [mem_vertices_diagram, contains_empty]) (Set.notMem_empty x)
  · exact iff_of_false (not_edge_empty _ _) (Set.notMem_empty x)

variable [Std.LawfulEqOrd V]

theorem diagram_apply (h : g.Mirrored) (u : Update V) : (g.apply u).diagram = g.diagram.apply u := by
  cases u with
  | addVertex x =>
    ext v
    · exact mem_vertices_diagram.trans contains_addVertex
    · exact edge_addVertex
  | addEdge p x =>
    ext v
    · exact mem_vertices_diagram.trans contains_addEdge
    · have hpair : v = (p, x) ↔ v.1 = p ∧ v.2 = x := Prod.ext_iff
      exact edge_addEdge.trans (or_congr hpair.symm Iff.rfl)
  | addEdges ps x =>
    ext v
    · exact mem_vertices_diagram.trans (contains_addEdges h)
    · exact edge_addEdges h
  | removeEdge p x =>
    ext v
    · exact mem_vertices_diagram.trans contains_removeEdge
    · have hpair : v = (p, x) ↔ v.1 = p ∧ v.2 = x := Prod.ext_iff
      exact edge_removeEdge.trans (and_comm.trans (and_congr Iff.rfl (not_congr hpair.symm)))
  | removePrecedents x =>
    ext v
    · exact mem_vertices_diagram.trans contains_removePrecedents
    · exact edge_removePrecedents.trans and_comm
  | removeVertex x =>
    ext v
    · exact mem_vertices_diagram.trans (contains_removeVertex.trans and_comm)
    · refine (edge_removeVertex h).trans ?_
      rw [← and_assoc]
      exact and_comm

theorem diagram_after (h : g.Mirrored) (us : List (Update V)) :
    (g.after us).diagram = g.diagram.after us := by
  induction us generalizing g with
  | nil => rfl
  | cons u us ih =>
    rw [after, Diagram.after, List.foldl_cons, List.foldl_cons, ← diagram_apply h]
    exact ih (h.apply u)

/-- However a graph is built, its two maps have the same keys and the same edges, the ends of every
edge are keys, and it has the vertices and edges that the changes have left. What goes with a vertex
is it and the edges at it, and what goes with its precedents the edges into it. -/
theorem adjacency_mirrored (us : List (Update V)) :
    let g := empty.after us
    (∀ v, v ∈ g.precedents ↔ v ∈ g.dependents) ∧
    (∀ v w, v ∈ g.precedents.getD w ∅ ↔ w ∈ g.dependents.getD v ∅) ∧
    (∀ v w, v ∈ g.precedents.getD w ∅ → v ∈ g.precedents ∧ w ∈ g.precedents) ∧
    g.diagram = Diagram.empty.after us ∧
    (∀ x, (g.removeVertex x).diagram =
      ⟨g.diagram.vertices \ {x}, {e ∈ g.diagram.edges | e.1 ≠ x ∧ e.2 ≠ x}⟩) ∧
    ∀ x, (g.removePrecedents x).diagram =
      ⟨g.diagram.vertices, {e ∈ g.diagram.edges | e.2 ≠ x}⟩ := by
  intro g
  have hg : g.Mirrored := mirrored_empty.after us
  refine ⟨hg.keys, fun v w => (hg.edges v w).symm, fun v w hedge => ?_, ?_, fun x => ?_, fun x => ?_⟩
  · exact ⟨contains_iff.mp (hg.source_mem hedge), contains_iff.mp (Edge.target_mem hedge)⟩
  · exact (diagram_after mirrored_empty us).trans (congrArg (·.after us) diagram_empty)
  · exact diagram_apply hg (.removeVertex x)
  · exact diagram_apply hg (.removePrecedents x)

/-- A vertex that reads itself goes with its edges; what is not there is removed without a trace. -/
theorem adjacency_mirrored_with_self_loop :
    let us : List (Update Nat) := [.addEdges [1, 2, 1] 1, .addEdge 1 3, .removeEdge 7 9,
      .removePrecedents 8, .removeVertex 2, .removeVertex 2]
    let g := empty.after us
    g.diagram = ⟨{1, 3}, {(1, 1), (1, 3)}⟩ ∧ (1 ∈ g.dependents.getD 1 ∅) ∧
      (g.removeVertex 1).diagram = ⟨{3}, ∅⟩ ∧
      (g.removePrecedents 1).diagram = ⟨{1, 3}, {(1, 3)}⟩ := by
  intro us g
  obtain ⟨-, hmirror, -, hdiagram, hremove, hforget⟩ := adjacency_mirrored us
  have hleft : g.diagram = ⟨{1, 3}, {(1, 1), (1, 3)}⟩ := by
    rw [hdiagram]
    ext e <;> simp only [us, Diagram.after, Diagram.apply, Diagram.empty, List.foldl_cons,
      List.foldl_nil, List.mem_cons, List.not_mem_nil, Set.mem_union, Set.mem_insert_iff,
      Set.mem_sdiff, Set.mem_ofPred_eq, Set.mem_singleton_iff, Set.mem_empty_iff_false, or_false,
      Prod.ext_iff] <;> omega
  refine ⟨hleft, (hmirror 1 1).mp ?_, ?_, ?_⟩
  · have hloop : (1, 1) ∈ g.diagram.edges := hleft ▸ Set.mem_insert ..
    exact hloop
  · rw [hremove, hleft]
    ext e <;> simp only [Set.mem_insert_iff, Set.mem_sdiff, Set.mem_ofPred_eq,
      Set.mem_singleton_iff, Set.mem_empty_iff_false, iff_false, Prod.ext_iff] <;> omega
  · rw [hforget, hleft]
    ext e
    · exact Iff.rfl
    · simp only [Set.mem_insert_iff, Set.mem_ofPred_eq, Set.mem_singleton_iff, Prod.ext_iff]
      omega

end Spreadsheet.Graph
