import Spreadsheet.Proofs.Dependency.Cycle
import Spreadsheet.Proofs.Dependency.Order
import Spreadsheet.Proofs.Sheet.Wiring
import Spreadsheet.Sheet.Calculation

/-! What the graph is asked, in terms of what feeds what. A region vertex stands between the
formula cells in it and what reads it, so ways through the graph between cells and names are ways
along which one feeds the next, however the regions between them are represented. A constant in a
region has no edge to it; that is why the regions around an edited cell are roots too. -/

namespace Spreadsheet.Sheet

open Relation

variable {s : Sheet} {u v : Vertex}

/-- `v` depends on an edit. -/
def IsAffected (s : Sheet) (v : Vertex) : Prop := ∃ d ∈ s.dirty, ReflTransGen s.Feeds d v

/-- A cell counts only if it has a formula. -/
def IsActive (s : Sheet) (u : Vertex) : Prop := ∀ p, u = .cell p → s.isFormula p = true

theorem Feeds.active (h : s.Feeds u v) : s.IsActive v := by
  rintro p rfl
  obtain ⟨r, hr, -⟩ := h
  exact isFormula_of_mem_references hr

theorem Feeds.source_region? (h : s.Feeds u v) : u.region? = none := by
  obtain ⟨r, -, hu⟩ := h
  cases hu <;> rfl

theorem Feeds.target_region? (h : s.Feeds u v) : v.region? = none := by
  obtain ⟨r, hr, -⟩ := h
  cases v with
  | region g => exact absurd hr List.not_mem_nil
  | cell p => rfl
  | name n => rfl

theorem active_of_transGen (h : TransGen s.Feeds u v) : s.IsActive v := by
  obtain ⟨w, -, hw⟩ := TransGen.tail'_iff.mp h
  exact hw.active

theorem region?_of_transGen (h : TransGen s.Feeds u v) : v.region? = none := by
  obtain ⟨w, -, hw⟩ := TransGen.tail'_iff.mp h
  exact hw.target_region?

/-! ## One edge -/

theorem Linked.edge_iff (hs : s.Linked) (hv : v.region? = none) :
    s.graph.Edge u v ↔ ∃ r ∈ s.references v, u ∈ s.verticesRead r :=
  (hs.reads v hv id u).trans mem_precedents

theorem Linked.member_iff (hs : s.Linked) {g : Region} (hg : s.graph.contains (.region g) = true) :
    s.graph.Edge u (.region g) ↔ ∃ p, u = .cell p ∧ g.contains p = true ∧ s.isFormula p = true := by
  constructor
  · intro h
    obtain ⟨p, rfl, -⟩ := hs.within g u h
    exact ⟨p, rfl, (hs.members g hg p id).mp h⟩
  · intro he
    obtain ⟨p, rfl, hp⟩ := he
    exact (hs.members g hg p id).mpr hp

theorem Linked.feeds_of_edge (hs : s.Linked) (hu : u.region? = none) (hv : v.region? = none)
    (h : s.graph.Edge u v) : s.Feeds u v := by
  obtain ⟨r, hr, hur⟩ := (hs.edge_iff hv).mp h
  refine ⟨r, hr, ?_⟩
  rcases mem_verticesRead.mp hur with ⟨n, hn, rfl⟩ | ⟨g, hg, hug⟩
  · exact .name hn
  · rcases mem_verticesOf.mp hug with ⟨-, rfl⟩ | ⟨-, p, hp, rfl⟩
    · contradiction
    · exact .cell hg hp

/-- What reads a region is fed by every cell in it. -/
theorem Linked.feeds_of_region (hs : s.Linked) {g : Region} {p : Position} (hp : g.contains p = true)
    (hv : v.region? = none) (h : s.graph.Edge (.region g) v) : s.Feeds (.cell p) v := by
  obtain ⟨r, hr, hur⟩ := (hs.edge_iff hv).mp h
  refine ⟨r, hr, ?_⟩
  rcases mem_verticesRead.mp hur with ⟨n, -, e⟩ | ⟨g', hg', hug⟩
  · contradiction
  · rcases mem_verticesOf.mp hug with ⟨-, e⟩ | ⟨-, q, -, e⟩
    · cases e
      exact .cell hg' hp
    · contradiction

/-- Something that feeds is read directly, or through a region around it. -/
theorem Linked.edge_of_feeds (hs : s.Linked) (h : s.Feeds u v) :
    s.graph.Edge u v ∨ ∃ g p, u = .cell p ∧ g.contains p = true ∧ s.graph.Edge (.region g) v := by
  have hv := h.target_region?
  obtain ⟨r, hr, hur⟩ := h
  cases hur with
  | name hn =>
    exact Or.inl ((hs.edge_iff hv).mpr ⟨r, hr, mem_verticesRead.mpr (Or.inl ⟨_, hn, rfl⟩)⟩)
  | @cell g p hg hp =>
    have hread {x : Vertex} (hx : x ∈ s.verticesOf g) : s.graph.Edge x v :=
      (hs.edge_iff hv).mpr ⟨r, hr, mem_verticesRead.mpr (Or.inr ⟨g, hg, hx⟩)⟩
    by_cases hwide : s.IsWide g
    · exact Or.inr ⟨g, p, rfl, hp, hread (mem_verticesOf.mpr (Or.inl ⟨hwide, rfl⟩))⟩
    · exact Or.inl (hread (mem_verticesOf.mpr (Or.inr ⟨hwide, p, hp, rfl⟩)))

theorem Linked.transGen_edge_of_feeds (hs : s.Linked) (hu : s.IsActive u) (h : s.Feeds u v) :
    TransGen s.graph.Edge u v := by
  rcases hs.edge_of_feeds h with he | ⟨g, p, rfl, hp, he⟩
  · exact .single he
  · have hmember : s.graph.Edge (.cell p) (.region g) :=
      (hs.member_iff (hs.mirrored.source_mem he)).mpr ⟨p, rfl, hp, hu p rfl⟩
    exact .tail (.single hmember) he

/-! ## Ways -/

theorem Linked.transGen_edge (hs : s.Linked) (hu : s.IsActive u) (h : TransGen s.Feeds u v) :
    TransGen s.graph.Edge u v := by
  induction h with
  | single h => exact hs.transGen_edge_of_feeds hu h
  | tail hw h ih => exact ih.trans (hs.transGen_edge_of_feeds (active_of_transGen hw) h)

/-- Where a way through the graph leads that starts at a cell or name: to what is fed, or to a
region around something that is. -/
theorem Linked.feeds_of_transGen (hs : s.Linked) (hu : u.region? = none)
    (h : TransGen s.graph.Edge u v) :
    (v.region? = none → TransGen s.Feeds u v) ∧
      ∀ g, v = .region g → ∃ p, g.contains p = true ∧ ReflTransGen s.Feeds u (.cell p) := by
  induction h with
  | single he =>
    refine ⟨fun hv => .single (hs.feeds_of_edge hu hv he), ?_⟩
    rintro g rfl
    obtain ⟨p, rfl, hp⟩ := hs.within g _ he
    exact ⟨p, hp, .refl⟩
  | @tail w x _ he ih =>
    refine ⟨fun hv => ?_, ?_⟩
    · cases w with
      | region g =>
        obtain ⟨p, hp, hup⟩ := ih.2 g rfl
        exact .tail' hup (hs.feeds_of_region hp hv he)
      | cell q => exact (ih.1 rfl).tail (hs.feeds_of_edge rfl hv he)
      | name n => exact (ih.1 rfl).tail (hs.feeds_of_edge rfl hv he)
    · rintro g rfl
      obtain ⟨p, rfl, hp⟩ := hs.within g _ he
      exact ⟨p, hp, (ih.1 rfl).to_reflTransGen⟩

/-- A cell or name lies on a cycle of the graph exactly where it feeds itself. -/
theorem Linked.cycle_iff (hs : s.Linked) (hv : v.region? = none) :
    TransGen s.graph.Edge v v ↔ TransGen s.Feeds v v :=
  ⟨fun h => (hs.feeds_of_transGen hv h).1 hv, fun h => hs.transGen_edge (active_of_transGen h) h⟩

theorem Linked.cycleFrom?_isSome (hs : s.Linked) (hv : v.region? = none) :
    (s.graph.cycleFrom? v).isSome = true ↔ TransGen s.Feeds v v :=
  (Graph.cycleFrom?_isSome hs.mirrored).trans (hs.cycle_iff hv)

/-- A cycle of the graph leads through something that feeds itself. -/
theorem Linked.exists_cycle (hs : s.Linked) (h : TransGen s.graph.Edge v v) :
    ∃ w, ReflTransGen s.graph.Edge v w ∧ w.region? = none ∧ TransGen s.Feeds w w := by
  cases v with
  | cell p => exact ⟨_, .refl, rfl, (hs.cycle_iff rfl).mp h⟩
  | name n => exact ⟨_, .refl, rfl, (hs.cycle_iff rfl).mp h⟩
  | region g =>
    -- the next vertex on a cycle through a region is none
    obtain ⟨w, hw, hwv⟩ := TransGen.head'_iff.mp h
    have hwr : w.region? = none := by
      cases w with
      | region g' =>
        obtain ⟨q, e, -⟩ := hs.within g' _ hw
        contradiction
      | cell q => rfl
      | name n => rfl
    exact ⟨w, .single hw, hwr, (hs.cycle_iff hwr).mp (.tail' hwv hw)⟩

/-! ## What is affected -/

theorem mem_roots : v ∈ s.roots ↔
    v ∈ s.dirty ∨ ∃ p g, Vertex.cell p ∈ s.dirty ∧ v = .region g ∧
      s.graph.contains (.region g) = true ∧ g.contains p = true := by
  unfold roots
  rw [List.mem_flatMap]
  constructor
  · intro h
    obtain ⟨d, hd, hv⟩ := h
    rw [Std.ExtTreeSet.mem_toList] at hd
    cases d with
    | cell p =>
      rcases List.mem_cons.mp hv with rfl | hv
      · exact Or.inl hd
      · unfold regionsAround at hv
        rw [List.mem_filter, Graph.mem_vertices] at hv
        cases v with
        | region g => exact Or.inr ⟨p, g, hd, rfl, hv⟩
        | cell q => exact absurd hv.2 Bool.false_ne_true
        | name n => exact absurd hv.2 Bool.false_ne_true
    | region g => exact Or.inl (List.mem_singleton.mp hv ▸ hd)
    | name n => exact Or.inl (List.mem_singleton.mp hv ▸ hd)
  · rintro (hd | ⟨p, g, hd, rfl, hc, hg⟩)
    · refine ⟨v, Std.ExtTreeSet.mem_toList.mpr hd, ?_⟩
      cases v with
      | cell p => exact List.mem_cons_self
      | region g => exact List.mem_singleton_self _
      | name n => exact List.mem_singleton_self _
    · refine ⟨.cell p, Std.ExtTreeSet.mem_toList.mpr hd, List.mem_cons_of_mem _ ?_⟩
      unfold regionsAround
      rw [List.mem_filter, Graph.mem_vertices]
      exact ⟨hc, hg⟩

theorem mem_affected_iff (hs : s.Linked) :
    v ∈ s.affected ↔ ∃ x ∈ s.roots, ReflTransGen s.graph.Edge x v :=
  Graph.mem_closure hs.mirrored

theorem affected_closed (hs : s.Linked) (he : s.graph.Edge u v) (hu : u ∈ s.affected) :
    v ∈ s.affected := by
  obtain ⟨x, hx, hxu⟩ := (mem_affected_iff hs).mp hu
  exact (mem_affected_iff hs).mpr ⟨x, hx, hxu.tail he⟩

/-- The closure of the roots is what depends on an edit. -/
theorem mem_affected (hs : s.Linked) (hd : ∀ d ∈ s.dirty, d.region? = none)
    (hv : v.region? = none) : v ∈ s.affected ↔ s.IsAffected v := by
  rw [mem_affected_iff hs]
  constructor
  · intro h
    obtain ⟨x, hx, hxv⟩ := h
    rcases mem_roots.mp hx with hx | ⟨p, g, hp, rfl, -, hg⟩
    · refine ⟨x, hx, ?_⟩
      rcases reflTransGen_iff_eq_or_transGen.mp hxv with rfl | hxv
      · exact .refl
      · exact ((hs.feeds_of_transGen (hd x hx) hxv).1 hv).to_reflTransGen
    · refine ⟨.cell p, hp, ?_⟩
      rcases ReflTransGen.cases_head hxv with rfl | ⟨w, hw, hwv⟩
      · contradiction
      · have hwr : w.region? = none := by
          cases w with
          | region g' =>
            obtain ⟨q, e, -⟩ := hs.within g' _ hw
            contradiction
          | cell q => rfl
          | name n => rfl
        refine .head (hs.feeds_of_region hg hwr hw) ?_
        rcases reflTransGen_iff_eq_or_transGen.mp hwv with rfl | hwv
        · exact .refl
        · exact ((hs.feeds_of_transGen hwr hwv).1 hv).to_reflTransGen
  · intro h
    obtain ⟨d, hdirty, hdv⟩ := h
    rcases ReflTransGen.cases_head hdv with rfl | ⟨w, hw, hwv⟩
    · exact ⟨d, mem_roots.mpr (Or.inl hdirty), .refl⟩
    · have hwv' : ReflTransGen s.graph.Edge w v := by
        rcases reflTransGen_iff_eq_or_transGen.mp hwv with rfl | hwv
        · exact .refl
        · exact (hs.transGen_edge hw.active hwv).to_reflTransGen
      rcases hs.edge_of_feeds hw with he | ⟨g, p, rfl, hp, he⟩
      · exact ⟨d, mem_roots.mpr (Or.inl hdirty), .head he hwv'⟩
      · refine ⟨.region g, mem_roots.mpr (Or.inr ⟨p, g, hdirty, rfl, ?_, hp⟩), .head he hwv'⟩
        exact hs.mirrored.source_mem he

/-- There is an order exactly where nothing that is affected feeds itself. -/
theorem schedule_isOk (hs : s.Linked) (hd : ∀ d ∈ s.dirty, d.region? = none) :
    (∃ order, s.schedule = .ok order) ↔ ∀ v, s.IsAffected v → ¬ TransGen s.Feeds v v := by
  unfold schedule
  rw [Graph.sortWithin_isOk hs.mirrored fun u v => affected_closed hs]
  constructor
  · intro h v hv hc
    have hr := region?_of_transGen hc
    exact h v ((mem_affected hs hd hr).mpr hv) ((hs.cycle_iff hr).mpr hc)
  · intro h v hv hc
    obtain ⟨w, hvw, hr, hw⟩ := hs.exists_cycle hc
    obtain ⟨x, hx, hxv⟩ := (mem_affected_iff hs).mp hv
    have haffected : w ∈ s.affected := (mem_affected_iff hs).mpr ⟨x, hx, hxv.trans hvw⟩
    exact h w ((mem_affected hs hd hr).mp haffected) hw

end Spreadsheet.Sheet
