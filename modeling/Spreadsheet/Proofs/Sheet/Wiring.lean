import Spreadsheet.Proofs.Dependency.Edges
import Spreadsheet.Proofs.Sheet.Reading

/-! Keeping the graph in step. While an edit is under way the graph may be wrong about the vertices
that the edit is about, and about nothing else; linking or unlinking each of them puts it right.
Vertices that nobody reads may stay behind, but they read nothing. -/

namespace Spreadsheet

/-- The graph has an edge for all that each vertex is to read, and each region vertex in it has the
members among its cells; except perhaps that edges to a vertex in `X` or from a cell in `Y` are
still those of before. -/
structure Graph.Wired (g : Graph Vertex) (wants : Vertex → List Vertex) (isMember : Position → Bool)
    (X : Vertex → Prop) (Y : Position → Prop) : Prop where
  mirrored : g.Mirrored
  reads : ∀ v, v.region? = none → ¬ X v → ∀ u, g.Edge u v ↔ u ∈ wants v
  members : ∀ r, g.contains (.region r) = true → ∀ p, ¬ Y p →
    (g.Edge (.cell p) (.region r) ↔ r.contains p = true ∧ isMember p = true)
  within : ∀ r u, g.Edge u (.region r) → ∃ p, u = .cell p ∧ r.contains p = true

theorem Vertex.region_ne {v : Vertex} (hv : v.region? = none) (r : Region) : region r ≠ v := by
  rintro rfl
  contradiction

namespace Graph.Wired

variable {g : Graph Vertex} {w w' : Vertex → List Vertex} {m m' : Position → Bool}
  {X X' : Vertex → Prop} {Y Y' : Position → Prop}

/-- The graph may serve for other contents once all that is different is left open. -/
theorem mono (h : g.Wired w m X Y)
    (hw : ∀ v, ¬ X' v → ¬ X v ∧ w' v = w v) (hm : ∀ p, ¬ Y' p → ¬ Y p ∧ m' p = m p) :
    g.Wired w' m' X' Y' where
  mirrored := h.mirrored
  reads v hv hX u := by
    obtain ⟨hX, he⟩ := hw v hX
    rw [he]
    exact h.reads v hv hX u
  members r hr p hY := by
    obtain ⟨hY, he⟩ := hm p hY
    rw [he]
    exact h.members r hr p hY
  within := h.within

/-- What a vertex reads may be forgotten while it is open. -/
theorem removePrecedents (h : g.Wired w m X Y) {v : Vertex} (hX : X v) (hv : v.region? = none) :
    (g.removePrecedents v).Wired w m X Y where
  mirrored := h.mirrored.removePrecedents
  reads u hu hXu a := by
    rw [Graph.edge_removePrecedents, ← h.reads u hu hXu]
    exact and_iff_right fun e => hXu (e ▸ hX)
  members r hr p hY := by
    rw [Graph.edge_removePrecedents, ← h.members r (Graph.contains_removePrecedents.mp hr) p hY]
    exact and_iff_right (Vertex.region_ne hv r)
  within r u hu := h.within r u (Graph.edge_removePrecedents.mp hu).2

/-- A vertex may read more while it is open, where regions have their members. -/
theorem addEdges (h : g.Wired w m X Y) {v : Vertex} {ps : List Vertex}
    (hX : X v) (hv : v.region? = none)
    (hps : ∀ r, .region r ∈ ps →
      g.contains (.region r) = true ∨ ∀ p, r.contains p = true → m p = false) :
    (g.addEdges ps v).Wired w m X Y := by
  have hedge (a b : Vertex) : (g.addEdges ps v).Edge a b ↔ (a ∈ ps ∧ b = v) ∨ g.Edge a b :=
    Graph.edge_addEdges h.mirrored
  refine ⟨h.mirrored.addEdges, fun u hu hXu a => ?_, fun r hr p hY => ?_, fun r u hu => ?_⟩
  · rw [hedge, ← h.reads u hu hXu]
    exact or_iff_right fun ha => hXu (ha.2 ▸ hX)
  · rw [hedge, or_iff_right fun ha => Vertex.region_ne hv r ha.2]
    rcases (Graph.contains_addEdges h.mirrored).mp hr with hr | hr | hr
    · rcases hps r hr with hr | hr
      · exact h.members r hr p hY
      · refine ⟨fun he => (h.members r he.target_mem p hY).mp he, fun hp => ?_⟩
        rw [hr p hp.1] at hp
        exact absurd hp.2 Bool.false_ne_true
    · exact absurd hr (Vertex.region_ne hv r)
    · exact h.members r hr p hY
  · rcases (hedge u _).mp hu with hu | hu
    · exact absurd hu.2 (Vertex.region_ne hv r)
    · exact h.within r u hu

/-- A region that comes to be a vertex has its members. -/
theorem addMembers (h : g.Wired w m X Y) {β : Type} {f : β → Position}
    {l : List β} {r : Region} (hr : ¬ g.contains (.region r) = true)
    (hl : ∀ p, (∃ c ∈ l, f c = p) ↔ r.contains p = true ∧ m p = true) :
    (l.foldl (fun g c => g.addEdge (.cell (f c)) (.region r)) g).Wired w m X Y := by
  obtain ⟨hm, he, hcon⟩ := Graph.foldl_addEdge_spec (fun c => .cell (f c))
    (fun _ => Vertex.region r) l g h.mirrored
  -- before, the region was no vertex and had no edges
  have hnone (a : Vertex) : ¬ g.Edge a (.region r) := fun ha => hr ha.target_mem
  have hmem (p : Position) :
      (∃ c ∈ l, Vertex.cell p = .cell (f c) ∧ Vertex.region r = .region r) ↔
        r.contains p = true ∧ m p = true := by
    rw [← hl]
    simp only [Vertex.cell.injEq, and_true, eq_comm]
  refine ⟨hm, fun u hu hX a => ?_, fun r' hr' p hY => ?_, fun r' u hu => ?_⟩
  · rw [he, ← h.reads u hu hX]
    refine or_iff_right fun hsome => ?_
    obtain ⟨_, _, _, rfl⟩ := hsome
    contradiction
  · rw [he]
    by_cases hrr : r' = r
    · subst hrr
      rw [hmem]
      exact or_iff_left (hnone _)
    · rw [← h.members r' ?_ p hY]
      · refine or_iff_right fun hsome => ?_
        obtain ⟨_, _, _, e⟩ := hsome
        exact hrr (Vertex.region.inj e)
      · refine ((hcon _).mp hr').resolve_left fun hsome => ?_
        obtain ⟨_, _, e | e⟩ := hsome
        · contradiction
        · exact hrr (Vertex.region.inj e)
  · rcases (he _ _).mp hu with ⟨c, hc', rfl, e⟩ | hu
    · cases e
      exact ⟨f c, rfl, ((hl _).mp ⟨c, hc', rfl⟩).1⟩
    · exact h.within r' u hu

/-- A vertex that reads what it is to read is no longer open. -/
theorem close (h : g.Wired w m X Y) {v : Vertex} (hv : ∀ u, g.Edge u v ↔ u ∈ w v) :
    g.Wired w m (fun u => X u ∧ u ≠ v) Y where
  mirrored := h.mirrored
  reads u hu hX a := by
    by_cases huv : u = v
    · subst huv
      exact hv a
    · exact h.reads u hu (fun hx => hX ⟨hx, huv⟩) a
  members := h.members
  within := h.within

/-- A cell that becomes a member of the regions around it is no longer open. -/
theorem join (h : g.Wired w m X Y) {p : Position} (hp : m p = true) {vs : List Vertex}
    (hvs : ∀ v, v ∈ vs ↔ ∃ r, v = .region r ∧ g.contains v = true ∧ r.contains p = true) :
    (vs.foldl (fun g r => g.addEdge (.cell p) r) g).Wired w m X fun q => Y q ∧ q ≠ p := by
  obtain ⟨hm, he, hc⟩ := Graph.foldl_addEdge_spec (fun _ : Vertex => .cell p) id vs g h.mirrored
  simp only [id_eq] at hm he hc
  refine ⟨hm, fun v hv hX a => ?_, fun r hr q hY => ?_, fun r u hu => ?_⟩
  · rw [he, ← h.reads v hv hX]
    refine or_iff_right fun hnew => ?_
    obtain ⟨r, hr, -, rfl⟩ := hnew
    obtain ⟨r, rfl, -⟩ := (hvs _).mp hr
    contradiction
  · have hr' : g.contains (.region r) = true := by
      rcases (hc _).mp hr with ⟨v, hv, e | e⟩ | hr
      · contradiction
      · exact e ▸ ((hvs v).mp hv).choose_spec.2.1
      · exact hr
    rw [he]
    by_cases hq : q = p
    · subst hq
      rw [hp]
      constructor
      · intro hold
        rcases hold with ⟨v, hv, -, rfl⟩ | hold
        · obtain ⟨r', e, -, hr'⟩ := (hvs _).mp hv
          cases e
          exact ⟨hr', rfl⟩
        · obtain ⟨q', e, hq'⟩ := h.within r _ hold
          cases e
          exact ⟨hq', rfl⟩
      · intro hin
        exact Or.inl ⟨.region r, (hvs _).mpr ⟨r, rfl, hr', hin.1⟩, rfl, rfl⟩
    · rw [← h.members r hr' q fun hy => hY ⟨hy, hq⟩]
      refine or_iff_right fun hnew => ?_
      obtain ⟨-, -, e, -⟩ := hnew
      exact hq (Vertex.cell.inj e)
  · rcases (he u _).mp hu with ⟨v, hv, rfl, rfl⟩ | hu
    · obtain ⟨r', e, -, hr'⟩ := (hvs _).mp hv
      cases e
      exact ⟨p, rfl, hr'⟩
    · exact h.within r u hu

/-- A cell that no region counts any more is no longer open. -/
theorem leave (h : g.Wired w m X Y) {p : Position} (hp : m p = false) {vs : List Vertex}
    (hregion : ∀ v ∈ vs, v.region? ≠ none)
    (hvs : ∀ r, .region r ∈ vs ↔ g.Edge (.cell p) (.region r)) :
    (vs.foldl (fun g r => g.removeEdge (.cell p) r) g).Wired w m X fun q => Y q ∧ q ≠ p := by
  obtain ⟨hm, he, hc⟩ := Graph.foldl_removeEdge_spec (.cell p) vs g h.mirrored
  refine ⟨hm, fun v hv hX a => ?_, fun r hr q hY => ?_, fun r u hu => ?_⟩
  · rw [he, ← h.reads v hv hX]
    exact and_iff_right fun hn => hregion v hn.2 hv
  · rw [he, hvs]
    by_cases hq : q = p
    · subst hq
      rw [hp]
      exact ⟨fun ha => absurd ⟨rfl, ha.2⟩ ha.1, fun ha => absurd ha.2 Bool.false_ne_true⟩
    · rw [← h.members r ((hc _).mp hr) q fun hy => hY ⟨hy, hq⟩]
      exact and_iff_right fun hn => hq (Vertex.cell.inj hn.1)
  · exact h.within r u ((he _ _).mp hu).2

end Graph.Wired

namespace Sheet

variable {s t : Sheet}

def withGraph (s : Sheet) (g : Graph Vertex) : Sheet := { s with graph := g }

/-- A sheet that differs in its graph makes no difference to another graph. -/
theorem withGraph_eq (h : t = s.withGraph t.graph) (g : Graph Vertex) :
    t.withGraph g = s.withGraph g := by
  rw [h]
  rfl

/-- What `v` is to read in the graph. -/
def wants (s : Sheet) (v : Vertex) : List Vertex := s.precedents (s.references v)

/-- The graph is in step with the contents and names. -/
def Linked (s : Sheet) : Prop :=
  s.graph.Wired s.wants s.isFormula (fun _ => False) fun _ => False

/-! ## What is to be read -/

/-- A region that is a vertex of its own where it is read. -/
def IsWide (s : Sheet) (r : Region) : Prop :=
  r.isSingleCell = false ∧ ¬ (r.isBounded = true ∧ r.area ≤ s.settings.maxDependencyCells)

theorem eq_topLeft_of_isSingleCell {r : Region} (h : r.isSingleCell = true) {p : Position} :
    r.contains p = true ↔ p = r.topLeft := by
  obtain ⟨⟨top, bottom, _⟩, ⟨left, right, _⟩⟩ := r
  obtain ⟨row, column⟩ := p
  simp only [Region.isSingleCell, Region.top, Region.bottom, Region.left, Region.right,
    Bool.and_eq_true, beq_iff_eq] at h
  simp only [Region.contains, Span.contains, Region.topLeft, Region.top, Region.left,
    Bool.and_eq_true, decide_eq_true_eq, Position.mk.injEq]
  omega

theorem mem_verticesOf {r : Region} {u : Vertex} :
    u ∈ s.verticesOf r ↔
      (s.IsWide r ∧ u = .region r) ∨ (¬ s.IsWide r ∧ ∃ p, r.contains p = true ∧ u = .cell p) := by
  unfold verticesOf IsWide
  split
  · rename_i h
    simp [h, eq_topLeft_of_isSingleCell h]
  · rename_i h
    have h' : r.isSingleCell = false := by simpa using h
    split
    · rename_i hs
      simp only [h', hs, not_true_eq_false, and_false, false_and, false_or, not_false_eq_true,
        true_and, List.mem_flatMap, List.mem_map, Matrix.mem_indices]
      constructor
      · intro he
        obtain ⟨row, hrow, column, hcolumn, rfl⟩ := he
        exact ⟨⟨row, column⟩, by unfold Region.contains; rw [hrow, hcolumn]; rfl, rfl⟩
      · intro he
        obtain ⟨p, hp, rfl⟩ := he
        unfold Region.contains at hp
        rw [Bool.and_eq_true] at hp
        exact ⟨p.row, hp.1, p.column, hp.2, rfl⟩
    · rename_i hs
      simp [h', hs]

theorem mem_verticesRead {r : Reference} {u : Vertex} :
    u ∈ s.verticesRead r ↔
      (∃ n, r = .single (.name n) ∧ u = .name (Text.upperAscii n)) ∨
        ∃ g ∈ r.regions, u ∈ s.verticesOf g := by
  unfold verticesRead
  split
  · rename_i n
    simp [Reference.regions, Reference.targets, Target.region?, Target.isValid]
  · rename_i h
    rw [List.mem_flatMap]
    constructor
    · exact Or.inr
    · rintro (⟨n, rfl, _⟩ | h')
      · exact absurd rfl (h n)
      · exact h'

theorem mem_precedents {rs : List Reference} {u : Vertex} :
    u ∈ s.precedents rs ↔ ∃ r ∈ rs, u ∈ s.verticesRead r := by
  unfold precedents
  rw [Std.ExtTreeSet.mem_toList, Std.ExtTreeSet.mem_ofList, List.contains_iff_mem, List.mem_flatMap]

theorem not_mem_precedents_nil (u : Vertex) : u ∉ s.precedents [] := by
  rw [mem_precedents]
  simp

/-- What nothing keeps is to read nothing. -/
theorem references_of_not_holds {v : Vertex} (h : s.holds v = false) : s.references v = [] := by
  cases v with
  | region r => rfl
  | cell p =>
    have hf : s.formula? p = none := by simpa [holds, isFormula] using h
    simp [references, hf]
  | name n =>
    have hn : s.names[n]? = none := Std.ExtTreeMap.getElem?_eq_none_of_contains_eq_false h
    simp [references, hn]

theorem wants_of_not_holds {v : Vertex} (h : s.holds v = false) (u : Vertex) : u ∉ s.wants v := by
  unfold wants
  rw [references_of_not_holds h]
  exact not_mem_precedents_nil u

/-- What is different about some cells and names is all that the graph can be wrong about. -/
theorem Linked.reopen {X : Vertex → Prop} {Y : Position → Prop} (h : s.Linked)
    (hs : t.settings = s.settings)
    (hX : ∀ v, ¬ X v → t.references v = s.references v)
    (hY : ∀ q, ¬ Y q → t.isFormula q = s.isFormula q) :
    s.graph.Wired t.wants t.isFormula X Y := by
  refine Graph.Wired.mono h (fun v hv => ⟨id, ?_⟩) fun q hq => ⟨id, hY q hq⟩
  unfold wants precedents verticesRead verticesOf
  rw [hX v hv, hs]

/-! ## Pruning -/

variable {w : Vertex → List Vertex} {m : Position → Bool} {X : Vertex → Prop} {Y : Position → Prop}

theorem pruneOne_eq (s : Sheet) (v : Vertex) : s.pruneOne v = s.withGraph (s.pruneOne v).graph := by
  unfold pruneOne
  split <;> rfl

/-- A walk whose steps change only the graph changes only the graph. -/
theorem foldl_withGraph {β : Type} {f : Sheet → β → Sheet}
    (hf : ∀ s b, f s b = s.withGraph (f s b).graph) (l : List β) (s : Sheet) :
    l.foldl f s = s.withGraph (l.foldl f s).graph := by
  induction l generalizing s with
  | nil => rfl
  | cons b l ih =>
    exact (ih (f s b)).trans (withGraph_eq (hf s b) _)

theorem prune_eq (s : Sheet) (vs : List Vertex) : s.prune vs = s.withGraph (s.prune vs).graph :=
  foldl_withGraph pruneOne_eq vs s

/-- A vertex is dropped only if it feeds nothing and nothing keeps it. -/
theorem pruneOne_cases (hg : s.graph.Mirrored) (v : Vertex) :
    s.pruneOne v = s ∨
      (s.holds v = false ∧ (s.pruneOne v).graph = s.graph.removeVertex v ∧
        ∀ a b, (s.graph.removeVertex v).Edge a b ↔ b ≠ v ∧ s.graph.Edge a b) := by
  unfold pruneOne
  split
  · rename_i h
    simp only [Bool.and_eq_true, Bool.not_eq_true'] at h
    refine Or.inr ⟨h.2, rfl, fun a b => ?_⟩
    rw [Graph.edge_removeVertex hg]
    refine ⟨fun hab => hab.2, fun hab => ⟨?_, hab⟩⟩
    rintro rfl
    exact (Graph.isEmpty_dependentsOf hg).mp h.1.2 b hab.2
  · exact Or.inl rfl

theorem pruneOne_wired (h : s.graph.Wired w m X Y)
    (hw : ∀ v, v.region? = none → ¬ X v → s.holds v = false → ∀ u, u ∉ w v) (v : Vertex) :
    (s.pruneOne v).graph.Wired w m X Y := by
  rcases pruneOne_cases h.mirrored v with he | ⟨hv, hg, hedge⟩
  · rwa [he]
  · rw [hg]
    exact
      { mirrored := h.mirrored.removeVertex
        reads := fun u hu hX a => by
          rw [hedge, ← h.reads u hu hX]
          refine ⟨fun ha => ha.2, fun ha => ⟨?_, ha⟩⟩
          rintro rfl
          exact hw u hu hX hv a ((h.reads u hu hX a).mp ha)
        members := fun r hr p hY => by
          obtain ⟨hne, hr⟩ := Graph.contains_removeVertex.mp hr
          rw [hedge, ← h.members r hr p hY]
          exact and_iff_right hne
        within := fun r u hu => h.within r u ((hedge u (.region r)).mp hu).2 }

/-- What a vertex is to read is still read once others are dropped. -/
theorem edge_pruneOne_of_held (hg : s.graph.Mirrored) {v b : Vertex}
    (hb : s.holds b = true ∨ ∀ a, ¬ s.graph.Edge a b) (a : Vertex) :
    (s.pruneOne v).graph.Edge a b ↔ s.graph.Edge a b := by
  rcases pruneOne_cases hg v with he | ⟨hv, hg, hedge⟩
  · rw [he]
  · rw [hg, hedge]
    refine ⟨fun h => h.2, fun h => ⟨?_, h⟩⟩
    rintro rfl
    rcases hb with hb | hb
    · rw [hb] at hv
      contradiction
    · exact hb a h

theorem prune_wired (vs : List Vertex) (h : s.graph.Wired w m X Y)
    (hw : ∀ v, v.region? = none → ¬ X v → s.holds v = false → ∀ u, u ∉ w v) {b : Vertex}
    (hb : s.holds b = true ∨ ∀ a, ¬ s.graph.Edge a b) :
    (s.prune vs).graph.Wired w m X Y ∧
      ∀ a, (s.prune vs).graph.Edge a b ↔ s.graph.Edge a b := by
  induction vs generalizing s with
  | nil => exact ⟨h, fun _ => Iff.rfl⟩
  | cons v vs ih =>
    have hb' := edge_pruneOne_of_held h.mirrored (v := v) hb
    have hheld : (s.pruneOne v).holds = s.holds := by
      rw [pruneOne_eq]
      rfl
    obtain ⟨hwired, hedge⟩ := ih (pruneOne_wired h hw v) (by rwa [hheld]) (by
      rw [hheld]
      exact hb.imp_right fun hn a ha => hn a ((hb' a).mp ha))
    exact ⟨hwired, fun a => (hedge a).trans (hb' a)⟩

/-! ## Linking -/

theorem linkMembers_eq (s : Sheet) (v : Vertex) :
    s.linkMembers v = s.withGraph (s.linkMembers v).graph := by
  unfold linkMembers
  split
  · split <;> rfl
  · rfl

/-- A region that is a vertex, or that has no members. -/
def Covered (s : Sheet) (g : Graph Vertex) (r : Region) : Prop :=
  g.contains (.region r) = true ∨ ∀ p, r.contains p = true → s.isFormula p = false

theorem mem_formulasIn {r : Region} {p : Position} :
    (∃ c ∈ (s.cellsIn r).filter (·.2.isFormula), c.1 = p) ↔
      r.contains p = true ∧ s.isFormula p = true := by
  simp only [List.mem_filter, Prod.exists]
  unfold isFormula formula? cell?
  constructor
  · intro h
    obtain ⟨q, c, ⟨hc, hf⟩, rfl⟩ := h
    obtain ⟨hget, hr⟩ := Matrix.mem_cellsIn.mp hc
    exact ⟨hr, by rw [hget]; exact hf⟩
  · intro h
    obtain ⟨hr, hf⟩ := h
    cases hc : s.cells.get? p with
    | none => rw [hc] at hf; contradiction
    | some c =>
      rw [hc] at hf
      exact ⟨p, c, ⟨Matrix.mem_cellsIn.mpr ⟨hc, hr⟩, hf⟩, rfl⟩

/-- What adding the members of a region as edges does. -/
theorem linkMembers_spec (h : s.graph.Wired w s.isFormula X Y) (v : Vertex) :
    (s.linkMembers v).graph.Wired w s.isFormula X Y ∧
      (∀ u, s.graph.contains u = true → (s.linkMembers v).graph.contains u = true) ∧
      (∀ r, v = .region r → s.Covered (s.linkMembers v).graph r) ∧
      ∀ a b, b.region? = none → ((s.linkMembers v).graph.Edge a b ↔ s.graph.Edge a b) := by
  unfold linkMembers
  split
  · rename_i r
    split
    · rename_i hc
      exact ⟨h, fun _ hu => hu, fun r' e => by cases e; exact Or.inl hc, fun _ _ _ => Iff.rfl⟩
    · rename_i hc
      obtain ⟨-, he, hcon⟩ := Graph.foldl_addEdge_spec (fun c : Position × Cell => .cell c.1)
        (fun _ => Vertex.region r) ((s.cellsIn r).filter (·.2.isFormula)) s.graph h.mirrored
      refine ⟨h.addMembers hc fun _ => mem_formulasIn, fun u hu => (hcon u).mpr (Or.inr hu),
        fun r' e => ?_, fun a b hb => ?_⟩
      · cases e
        by_cases hsome : ∃ p, r.contains p = true ∧ s.isFormula p = true
        · obtain ⟨p, hp⟩ := hsome
          obtain ⟨c, hc', _⟩ := mem_formulasIn.mpr hp
          exact Or.inl ((hcon _).mpr (Or.inl ⟨c, hc', Or.inr rfl⟩))
        · refine Or.inr fun p hp => ?_
          by_contra hf
          exact hsome ⟨p, hp, by simpa using hf⟩
      · rw [he]
        refine or_iff_right fun hsome => ?_
        obtain ⟨_, _, _, rfl⟩ := hsome
        contradiction
  · rename_i hv
    exact ⟨h, fun _ hu => hu, fun r e => absurd e (hv r), fun _ _ _ => Iff.rfl⟩

theorem foldl_linkMembers_spec (vs : List Vertex) (h : s.graph.Wired w s.isFormula X Y) :
    (vs.foldl linkMembers s).graph.Wired w s.isFormula X Y ∧
      (∀ u, s.graph.contains u = true → (vs.foldl linkMembers s).graph.contains u = true) ∧
      (∀ r, .region r ∈ vs → s.Covered (vs.foldl linkMembers s).graph r) ∧
      ∀ a b, b.region? = none →
        ((vs.foldl linkMembers s).graph.Edge a b ↔ s.graph.Edge a b) := by
  induction vs generalizing s with
  | nil => exact ⟨h, fun _ hu => hu, fun r hr => absurd hr List.not_mem_nil, fun _ _ _ => Iff.rfl⟩
  | cons v vs ih =>
    obtain ⟨hwired, hmono, hcov, hedge⟩ := linkMembers_spec h v
    have hf : (s.linkMembers v).isFormula = s.isFormula := by
      rw [linkMembers_eq]
      rfl
    rw [← hf] at hwired
    obtain ⟨hwired', hmono', hcov', hedge'⟩ := ih hwired
    rw [hf] at hwired'
    refine ⟨hwired', fun u hu => hmono' u (hmono u hu), fun r hr => ?_, fun a b hb => ?_⟩
    · rcases List.mem_cons.mp hr with hr | hr
      · exact (hcov r hr.symm).imp_left (hmono' _)
      · have := hcov' r hr
        unfold Covered at this ⊢
        rwa [hf] at this
    · exact (hedge' a b hb).trans (hedge a b hb)

/-- The sheet while `v` is linked, before what it read until then is pruned. -/
def attach (s : Sheet) (v : Vertex) (ps : List Vertex) : Sheet :=
  let t := ps.foldl linkMembers (s.withGraph (s.graph.removePrecedents v))
  t.withGraph (t.graph.addEdges ps v)

theorem attach_eq (s : Sheet) (v : Vertex) (ps : List Vertex) :
    s.attach v ps = s.withGraph (s.attach v ps).graph :=
  withGraph_eq (foldl_withGraph linkMembers_eq ps (s.withGraph (s.graph.removePrecedents v))) _

theorem holds_attach (s : Sheet) (v : Vertex) (ps : List Vertex) :
    (s.attach v ps).holds = s.holds := by
  rw [attach_eq]
  rfl

theorem attach_spec {v : Vertex} (ps : List Vertex) (h : s.graph.Wired w s.isFormula X Y)
    (hX : X v) (hv : v.region? = none) :
    (s.attach v ps).graph.Wired w s.isFormula X Y ∧
      ∀ u, (s.attach v ps).graph.Edge u v ↔ u ∈ ps := by
  obtain ⟨h₂, -, hcov, hedge₂⟩ :=
    foldl_linkMembers_spec (s := s.withGraph (s.graph.removePrecedents v)) ps
      (h.removePrecedents hX hv)
  unfold attach
  dsimp only
  generalize ps.foldl linkMembers (s.withGraph (s.graph.removePrecedents v)) = s₂ at *
  refine ⟨h₂.addEdges hX hv hcov, fun a => ?_⟩
  refine (Graph.edge_addEdges h₂.mirrored).trans ?_
  rw [hedge₂ a v hv]
  refine ⟨fun ha => ?_, fun ha => Or.inl ⟨ha, rfl⟩⟩
  rcases ha with ha | ha
  · exact ha.1
  · exact absurd rfl (Graph.edge_removePrecedents.mp ha).1

theorem link_eq_prune (s : Sheet) (v : Vertex) (ps : List Vertex) :
    s.link v ps = (s.attach v ps).prune (s.graph.precedentsOf v) := rfl

theorem link_eq (s : Sheet) (v : Vertex) (ps : List Vertex) :
    s.link v ps = s.withGraph (s.link v ps).graph :=
  (prune_eq _ _).trans (withGraph_eq (attach_eq s v ps) _)

/-- A vertex that is linked reads what it is given, and nothing else changes. -/
theorem link_spec {v : Vertex} (ps : List Vertex) (h : s.graph.Wired w s.isFormula X Y)
    (hX : X v) (hv : v.region? = none)
    (hw : ∀ v, v.region? = none → ¬ X v → s.holds v = false → ∀ u, u ∉ w v)
    (hps : s.holds v = true ∨ ps = []) :
    (s.link v ps).graph.Wired w s.isFormula X Y ∧ ∀ u, (s.link v ps).graph.Edge u v ↔ u ∈ ps := by
  obtain ⟨h₃, hv₃⟩ := attach_spec ps h hX hv
  have hholds := holds_attach s v ps
  obtain ⟨h₄, hedge₄⟩ := prune_wired (s.graph.precedentsOf v) h₃ (by rwa [hholds]) (b := v) (by
    rw [hholds]
    refine hps.imp_right fun hnil a ha => ?_
    have := (hv₃ a).mp ha
    rw [hnil] at this
    exact List.not_mem_nil this)
  rw [link_eq_prune]
  exact ⟨h₄, fun u => (hedge₄ u).trans (hv₃ u)⟩

end Sheet

end Spreadsheet
