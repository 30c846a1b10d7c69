import Mathlib.Logic.Relation
import Mathlib.Tactic.Common
import Spreadsheet.Dependency.Graph

/-! The edges of a dependency graph. Its two maps store every edge twice; as long as they mirror
each other, an operation is described by what it does to the edges and to the vertices, and nobody
has to look at the maps again. -/

namespace Spreadsheet.Graph

variable {V : Type} [Ord V] [Std.TransOrd V]

/-- `w` reads `v`. -/
def Edge (g : Graph V) (v w : V) : Prop := v ∈ g.precedents.getD w ∅

instance (g : Graph V) (v w : V) : Decidable (g.Edge v w) :=
  inferInstanceAs (Decidable (v ∈ g.precedents.getD w ∅))

/-- Both maps know the same vertices and the same edges, and edges join vertices only. -/
structure Mirrored (g : Graph V) : Prop where
  keys : ∀ v, v ∈ g.precedents ↔ v ∈ g.dependents
  edges : ∀ v w, w ∈ g.dependents.getD v ∅ ↔ g.Edge v w

theorem mem_of_mem_getD {m : Std.ExtTreeMap V (Std.ExtTreeSet V)} {v w : V}
    (h : w ∈ m.getD v ∅) : v ∈ m := by
  by_contra hv
  rw [Std.ExtTreeMap.getD_eq_fallback hv] at h
  exact Std.ExtTreeSet.not_mem_empty h

theorem contains_iff {g : Graph V} {v : V} : g.contains v = true ↔ v ∈ g.precedents :=
  Std.ExtTreeMap.contains_iff_mem

theorem Edge.target_mem {g : Graph V} {v w : V} (h : g.Edge v w) : g.contains w = true :=
  contains_iff.mpr (mem_of_mem_getD h)

theorem Mirrored.source_mem {g : Graph V} (hg : g.Mirrored) {v w : V} (h : g.Edge v w) :
    g.contains v = true :=
  contains_iff.mpr ((hg.keys v).mpr (mem_of_mem_getD ((hg.edges v w).mpr h)))

theorem mem_foldl_modify {f : Std.ExtTreeSet V → Std.ExtTreeSet V} (ps : List V) (v : V) :
    ∀ m : Std.ExtTreeMap V (Std.ExtTreeSet V),
      (v ∈ ps.foldl (fun m p => m.modify p f) m ↔ v ∈ m) := by
  induction ps with
  | nil => simp
  | cons p ps ih =>
    intro m
    rw [List.foldl_cons, ih, Std.ExtTreeMap.mem_modify]

theorem mem_getD_modify_self {m : Std.ExtTreeMap V (Std.ExtTreeSet V)} {u w : V}
    {f : Std.ExtTreeSet V → Std.ExtTreeSet V} :
    w ∈ (m.modify u f).getD u ∅ ↔ u ∈ m ∧ w ∈ f (m.getD u ∅) := by
  rw [Std.ExtTreeMap.getD_modify_self]
  by_cases hu : u ∈ m
  · simp [hu, Std.ExtTreeMap.getD_eq_getD_getElem?]
  · simp [hu]

theorem not_edge_empty (v w : V) : ¬ (empty : Graph V).Edge v w := by
  simp [Edge, empty]

theorem contains_empty (v : V) : (empty : Graph V).contains v = false := by
  simp [contains, empty]

theorem mirrored_empty : (empty : Graph V).Mirrored where
  keys v := by simp [empty]
  edges v w := by simp [Edge, empty]

variable [Std.LawfulEqOrd V]

theorem mem_precedentsOf {g : Graph V} {v w : V} : v ∈ g.precedentsOf w ↔ g.Edge v w :=
  Std.ExtTreeSet.mem_toList

theorem Mirrored.mem_dependentsOf {g : Graph V} (h : g.Mirrored) {v w : V} :
    w ∈ g.dependentsOf v ↔ g.Edge v w :=
  Std.ExtTreeSet.mem_toList.trans (h.edges v w)

theorem mem_vertices {g : Graph V} {v : V} : v ∈ g.vertices ↔ g.contains v = true :=
  Std.ExtTreeMap.mem_keys.trans contains_iff.symm

theorem isEmpty_dependentsOf {g : Graph V} (hg : g.Mirrored) {v : V} :
    (g.dependentsOf v).isEmpty = true ↔ ∀ w, ¬ g.Edge v w := by
  rw [List.isEmpty_iff, List.eq_nil_iff_forall_not_mem]
  simp only [hg.mem_dependentsOf]

/-- Where a vertex is met for the first time, nothing is known of it yet. -/
theorem mem_getD_insertIfNew {m : Std.ExtTreeMap V (Std.ExtTreeSet V)} {u v w : V} :
    w ∈ (m.insertIfNew u ∅).getD v ∅ ↔ w ∈ m.getD v ∅ := by
  rw [Std.ExtTreeMap.getD_insertIfNew]
  split
  · rename_i h
    have huv : u = v := Std.compare_eq_iff_eq.mp h.1
    rw [Std.ExtTreeMap.getD_eq_fallback (huv ▸ h.2)]
  · exact Iff.rfl

theorem mem_getD_modify_of_ne {m : Std.ExtTreeMap V (Std.ExtTreeSet V)} {u v w : V}
    {f : Std.ExtTreeSet V → Std.ExtTreeSet V} (h : u ≠ v) :
    w ∈ (m.modify u f).getD v ∅ ↔ w ∈ m.getD v ∅ := by
  rw [Std.ExtTreeMap.getD_modify, if_neg (by rwa [Std.compare_eq_iff_eq])]

/-- Taking `d` out of the sets of some vertices. -/
theorem mem_getD_foldl_erase (ps : List V) (d v w : V) :
    ∀ m : Std.ExtTreeMap V (Std.ExtTreeSet V),
      (w ∈ (ps.foldl (fun m p => m.modify p (·.erase d)) m).getD v ∅ ↔
        w ∈ m.getD v ∅ ∧ ¬ (v ∈ ps ∧ w = d)) := by
  induction ps with
  | nil => simp
  | cons p ps ih =>
    intro m
    rw [List.foldl_cons, ih]
    by_cases hp : p = v
    · subst hp
      rw [mem_getD_modify_self, Std.ExtTreeSet.mem_erase, ne_eq, Std.compare_eq_iff_eq]
      constructor
      · intro h
        obtain ⟨⟨_, hd, hw⟩, _⟩ := h
        exact ⟨hw, fun e => hd e.2.symm⟩
      · intro h
        obtain ⟨hw, hd⟩ := h
        have hne : w ≠ d := fun e => hd ⟨List.mem_cons_self, e⟩
        exact ⟨⟨mem_of_mem_getD hw, hne.symm, hw⟩, fun e => hne e.2⟩
    · rw [mem_getD_modify_of_ne hp, List.mem_cons]
      simp [Ne.symm hp]

/-! ## Operations -/

variable {g : Graph V} {u v w x : V}

theorem edge_addVertex : (g.addVertex x).Edge v w ↔ g.Edge v w := mem_getD_insertIfNew

theorem contains_addVertex : (g.addVertex x).contains v = true ↔ v = x ∨ g.contains v = true := by
  rw [contains_iff, contains_iff, addVertex, Std.ExtTreeMap.mem_insertIfNew,
    Std.compare_eq_iff_eq, eq_comm]

theorem Mirrored.addVertex (h : g.Mirrored) : (g.addVertex x).Mirrored where
  keys v := by simp [Graph.addVertex, h.keys v]
  edges v w := by
    rw [edge_addVertex, ← h.edges]
    exact mem_getD_insertIfNew

/-- An edge is stored where it is added, as its ends are vertices by then. -/
theorem mem_getD_modify_insert {m : Std.ExtTreeMap V (Std.ExtTreeSet V)} (hu : u ∈ m) :
    w ∈ (m.modify u (·.insert x)).getD v ∅ ↔ (v = u ∧ w = x) ∨ w ∈ m.getD v ∅ := by
  by_cases huv : u = v
  · subst huv
    rw [mem_getD_modify_self, Std.ExtTreeSet.mem_insert, Std.compare_eq_iff_eq]
    simp only [hu, true_and, eq_comm]
  · rw [mem_getD_modify_of_ne huv]
    simp [Ne.symm huv]

theorem edge_addEdge : (g.addEdge u x).Edge v w ↔ (v = u ∧ w = x) ∨ g.Edge v w := by
  have hx : x ∈ ((g.addVertex u).addVertex x).precedents :=
    contains_iff.mp (contains_addVertex.mpr (Or.inl rfl))
  refine (mem_getD_modify_insert hx).trans ?_
  rw [and_comm]
  exact or_congr Iff.rfl (edge_addVertex.trans edge_addVertex)

theorem contains_addEdge :
    (g.addEdge u x).contains v = true ↔ v = u ∨ v = x ∨ g.contains v = true := by
  rw [contains_iff]
  refine Std.ExtTreeMap.mem_modify.trans ?_
  rw [← contains_iff, contains_addVertex, contains_addVertex, or_left_comm]

theorem Mirrored.addEdge (h : g.Mirrored) : (g.addEdge u x).Mirrored where
  keys v := by
    have hg := (h.addVertex (x := u)).addVertex (x := x)
    exact Std.ExtTreeMap.mem_modify.trans ((hg.keys v).trans Std.ExtTreeMap.mem_modify.symm)
  edges v w := by
    have hg := (h.addVertex (x := u)).addVertex (x := x)
    have hu : u ∈ ((g.addVertex u).addVertex x).dependents :=
      (hg.keys u).mp (contains_iff.mp (contains_addVertex.mpr
        (Or.inr (contains_addVertex.mpr (Or.inl rfl)))))
    rw [edge_addEdge]
    refine (mem_getD_modify_insert hu).trans (or_congr Iff.rfl ?_)
    exact (hg.edges v w).trans (edge_addVertex.trans edge_addVertex)

/-- What adding edges one after the other from a list does. -/
theorem foldl_addEdge_spec {α : Type} (f t : α → V) (l : List α) :
    ∀ g : Graph V, g.Mirrored →
      (l.foldl (fun g a => g.addEdge (f a) (t a)) g).Mirrored ∧
      (∀ v w, (l.foldl (fun g a => g.addEdge (f a) (t a)) g).Edge v w ↔
        (∃ a ∈ l, v = f a ∧ w = t a) ∨ g.Edge v w) ∧
      (∀ v, (l.foldl (fun g a => g.addEdge (f a) (t a)) g).contains v = true ↔
        (∃ a ∈ l, v = f a ∨ v = t a) ∨ g.contains v = true) := by
  induction l with
  | nil => intro g hg; simp [hg]
  | cons a l ih =>
    intro g hg
    obtain ⟨hm, he, hc⟩ := ih (g.addEdge (f a) (t a)) hg.addEdge
    refine ⟨hm, fun v w => ?_, fun v => ?_⟩
    · rw [List.foldl_cons, he, edge_addEdge]
      simp only [List.mem_cons, exists_eq_or_imp]
      exact or_left_comm.trans or_assoc.symm
    · rw [List.foldl_cons, hc, contains_addEdge]
      simp only [List.mem_cons, exists_eq_or_imp]
      simp only [or_assoc, or_left_comm]

theorem edge_addEdges (hg : g.Mirrored) {ps : List V} :
    (g.addEdges ps x).Edge v w ↔ (v ∈ ps ∧ w = x) ∨ g.Edge v w := by
  have h := (foldl_addEdge_spec id (fun _ => x) ps (g.addVertex x) hg.addVertex).2.1 v w
  refine h.trans (or_congr ?_ edge_addVertex)
  simp only [id_eq]
  constructor
  · intro he
    obtain ⟨a, ha, rfl, hw⟩ := he
    exact ⟨ha, hw⟩
  · intro he
    obtain ⟨hv, hw⟩ := he
    exact ⟨v, hv, rfl, hw⟩

theorem contains_addEdges (hg : g.Mirrored) {ps : List V} :
    (g.addEdges ps x).contains v = true ↔ v ∈ ps ∨ v = x ∨ g.contains v = true := by
  have h := (foldl_addEdge_spec id (fun _ => x) ps (g.addVertex x) hg.addVertex).2.2 v
  refine h.trans ?_
  rw [contains_addVertex]
  constructor
  · rintro (⟨a, ha, rfl | rfl⟩ | h)
    · exact Or.inl ha
    · exact Or.inr (Or.inl rfl)
    · exact Or.inr h
  · rintro (hv | h)
    · exact Or.inl ⟨v, hv, Or.inl rfl⟩
    · exact Or.inr h

theorem Mirrored.addEdges (hg : g.Mirrored) {ps : List V} : (g.addEdges ps x).Mirrored :=
  (foldl_addEdge_spec id (fun _ => x) ps (g.addVertex x) hg.addVertex).1

theorem mem_getD_modify_erase {m : Std.ExtTreeMap V (Std.ExtTreeSet V)} :
    w ∈ (m.modify u (·.erase x)).getD v ∅ ↔ ¬ (v = u ∧ w = x) ∧ w ∈ m.getD v ∅ := by
  have h := mem_getD_foldl_erase [u] x v w m
  rw [List.mem_singleton, and_comm] at h
  exact h

theorem edge_removeEdge : (g.removeEdge u x).Edge v w ↔ ¬ (v = u ∧ w = x) ∧ g.Edge v w := by
  refine mem_getD_modify_erase.trans ?_
  rw [and_comm (a := w = x)]
  exact Iff.rfl

omit [Std.LawfulEqOrd V] in
theorem contains_removeEdge : (g.removeEdge u x).contains v = true ↔ g.contains v = true := by
  rw [contains_iff, contains_iff]
  exact Std.ExtTreeMap.mem_modify

theorem Mirrored.removeEdge (h : g.Mirrored) : (g.removeEdge u x).Mirrored where
  keys v := Std.ExtTreeMap.mem_modify.trans ((h.keys v).trans Std.ExtTreeMap.mem_modify.symm)
  edges v w := by
    rw [edge_removeEdge, ← h.edges]
    exact mem_getD_modify_erase

/-- What removing the edges from one vertex to those in a list does. -/
theorem foldl_removeEdge_spec (u : V) (l : List V) :
    ∀ g : Graph V, g.Mirrored →
      (l.foldl (fun g a => g.removeEdge u a) g).Mirrored ∧
      (∀ v w, (l.foldl (fun g a => g.removeEdge u a) g).Edge v w ↔
        ¬ (v = u ∧ w ∈ l) ∧ g.Edge v w) ∧
      ∀ v, (l.foldl (fun g a => g.removeEdge u a) g).contains v = true ↔ g.contains v = true := by
  induction l with
  | nil => intro g hg; simp [hg]
  | cons a l ih =>
    intro g hg
    obtain ⟨hm, he, hc⟩ := ih (g.removeEdge u a) hg.removeEdge
    refine ⟨hm, fun v w => ?_, fun v => ?_⟩
    · rw [List.foldl_cons, he, edge_removeEdge, List.mem_cons, ← and_assoc]
      refine and_congr_left' ?_
      rw [and_or_left, not_or, and_comm]
    · rw [List.foldl_cons, hc, contains_removeEdge]

theorem edge_removePrecedents : (g.removePrecedents x).Edge v w ↔ w ≠ x ∧ g.Edge v w := by
  by_cases hw : x = w
  · subst hw
    refine mem_getD_modify_self.trans ?_
    simp
  · refine (mem_getD_modify_of_ne hw).trans ?_
    simp [Ne.symm hw, Edge]

omit [Std.LawfulEqOrd V] in
theorem contains_removePrecedents :
    (g.removePrecedents x).contains v = true ↔ g.contains v = true := by
  rw [contains_iff, contains_iff]
  exact Std.ExtTreeMap.mem_modify

theorem Mirrored.removePrecedents (h : g.Mirrored) : (g.removePrecedents x).Mirrored where
  keys v := Std.ExtTreeMap.mem_modify.trans ((h.keys v).trans (mem_foldl_modify _ v _).symm)
  edges v w := by
    rw [edge_removePrecedents]
    refine (mem_getD_foldl_erase _ x v w g.dependents).trans ?_
    rw [h.edges, mem_precedentsOf]
    constructor
    · intro hsome
      obtain ⟨he, hn⟩ := hsome
      exact ⟨fun e => hn ⟨e ▸ he, e⟩, he⟩
    · intro hsome
      obtain ⟨hx, he⟩ := hsome
      exact ⟨he, fun e => hx e.2⟩

theorem edge_removeVertex (h : g.Mirrored) :
    (g.removeVertex x).Edge v w ↔ v ≠ x ∧ w ≠ x ∧ g.Edge v w := by
  have hp := h.removePrecedents (x := x)
  refine (mem_getD_foldl_erase _ x w v _).trans ?_
  rw [hp.mem_dependentsOf]
  by_cases hw : x = w
  · subst hw
    rw [Std.ExtTreeMap.getD_erase_self]
    simp
  · rw [Std.ExtTreeMap.getD_erase, if_neg (by rwa [Std.compare_eq_iff_eq])]
    have he : (g.removePrecedents x).Edge v w ↔ g.Edge v w := by
      rw [edge_removePrecedents]
      simp [Ne.symm hw]
    change (g.removePrecedents x).Edge v w ∧ _ ↔ _
    rw [he]
    constructor
    · intro hsome
      obtain ⟨hvw, hn⟩ := hsome
      refine ⟨fun e => hn ⟨?_, e⟩, Ne.symm hw, hvw⟩
      exact edge_removePrecedents.mpr ⟨Ne.symm hw, e ▸ hvw⟩
    · intro hsome
      obtain ⟨hv, _, hvw⟩ := hsome
      exact ⟨hvw, fun e => hv e.2⟩

theorem contains_removeVertex :
    (g.removeVertex x).contains v = true ↔ v ≠ x ∧ g.contains v = true := by
  rw [contains_iff]
  refine (mem_foldl_modify _ v _).trans ?_
  rw [Std.ExtTreeMap.mem_erase, ne_eq, Std.compare_eq_iff_eq, ← contains_iff,
    contains_removePrecedents, eq_comm]

theorem Mirrored.removeVertex (h : g.Mirrored) : (g.removeVertex x).Mirrored where
  keys v := by
    have hp := h.removePrecedents (x := x)
    refine (mem_foldl_modify _ v _).trans ?_
    rw [Std.ExtTreeMap.mem_erase, hp.keys]
    exact Std.ExtTreeMap.mem_erase.symm
  edges v w := by
    have hp := h.removePrecedents (x := x)
    rw [edge_removeVertex h]
    change w ∈ Std.ExtTreeMap.getD ((g.removePrecedents x).dependents.erase x) v ∅ ↔ _
    by_cases hv : x = v
    · subst hv
      rw [Std.ExtTreeMap.getD_erase_self]
      simp
    · rw [Std.ExtTreeMap.getD_erase, if_neg (by rwa [Std.compare_eq_iff_eq]), hp.edges,
        edge_removePrecedents]
      simp [Ne.symm hv]

/-! ## Equality -/

theorem map_ext {m m' : Std.ExtTreeMap V (Std.ExtTreeSet V)} (hk : ∀ v, v ∈ m ↔ v ∈ m')
    (hm : ∀ v w, w ∈ m.getD v ∅ ↔ w ∈ m'.getD v ∅) : m = m' := by
  apply Std.ExtTreeMap.ext_getElem?
  intro v
  by_cases hv : v ∈ m
  · have hsome : m[v]? = some (m.getD v ∅) := Std.ExtTreeMap.getElem?_eq_some_getD hv
    have hsome' : m'[v]? = some (m'.getD v ∅) :=
      Std.ExtTreeMap.getElem?_eq_some_getD ((hk v).mp hv)
    rw [hsome, hsome']
    exact congrArg some (Std.ExtTreeSet.ext_mem fun {w} => hm v w)
  · have hv' : v ∉ m' := fun h => hv ((hk v).mpr h)
    rw [Std.ExtTreeMap.getElem?_eq_none hv, Std.ExtTreeMap.getElem?_eq_none hv']

/-- A graph is its vertices and edges. -/
theorem Mirrored.ext {g g' : Graph V} (h : g.Mirrored) (h' : g'.Mirrored)
    (hv : ∀ v, g.contains v = true ↔ g'.contains v = true)
    (he : ∀ v w, g.Edge v w ↔ g'.Edge v w) : g = g' := by
  have hkeys (v : V) : v ∈ g.precedents ↔ v ∈ g'.precedents := by
    rw [← contains_iff, ← contains_iff, hv]
  have hprecedents : g.precedents = g'.precedents := map_ext hkeys fun v w => he w v
  have hdependents : g.dependents = g'.dependents := by
    refine map_ext (fun v => ?_) fun v w => ?_
    · rw [← h.keys, ← h'.keys, hkeys]
    · rw [h.edges, h'.edges, he]
  cases g
  cases g'
  simp_all

/-! ## Graphs as they are built -/

/-- A change of a graph. -/
inductive Update (V : Type) where
  | addVertex (v : V)
  | addEdge (precedent dependent : V)
  | addEdges (precedents : List V) (dependent : V)
  | removeEdge (precedent dependent : V)
  | removePrecedents (dependent : V)
  | removeVertex (v : V)

def apply (g : Graph V) : Update V → Graph V
  | .addVertex v => g.addVertex v
  | .addEdge precedent dependent => g.addEdge precedent dependent
  | .addEdges precedents dependent => g.addEdges precedents dependent
  | .removeEdge precedent dependent => g.removeEdge precedent dependent
  | .removePrecedents dependent => g.removePrecedents dependent
  | .removeVertex v => g.removeVertex v

/-- The graph that some changes lead to. -/
def after (g : Graph V) (us : List (Update V)) : Graph V := us.foldl apply g

theorem Mirrored.apply (h : g.Mirrored) (u : Update V) : (g.apply u).Mirrored := by
  cases u with
  | addVertex v => exact h.addVertex
  | addEdge precedent dependent => exact h.addEdge
  | addEdges precedents dependent => exact h.addEdges
  | removeEdge precedent dependent => exact h.removeEdge
  | removePrecedents dependent => exact h.removePrecedents
  | removeVertex v => exact h.removeVertex

theorem Mirrored.after (h : g.Mirrored) (us : List (Update V)) : (g.after us).Mirrored := by
  induction us generalizing g with
  | nil => exact h
  | cons u us ih => exact ih (h.apply u)

end Spreadsheet.Graph
