import Mathlib.SetTheory.Cardinal.Finite
import Spreadsheet.Proofs.Grid.Following

/-! How much a grid holds and how far it reaches. The count that a grid keeps is the number of its
filled cells, and the part in use is the least region around them and the vacant lines, read off the
first and the last line and the ends of each. A cell that is filled next stretches the part in use,
and with it the ranges that go to the end of the grid. -/

namespace Spreadsheet

namespace Span

theorem covers_iff (s t : Span) : s.covers t = true ↔ s.first ≤ t.first ∧ t.last ≤ s.last := by
  simp [covers]

theorem covers_antisymm {s t : Span} (h : s.covers t = true) (h' : t.covers s = true) : s = t := by
  rw [covers_iff] at h h'
  obtain ⟨a, b, _⟩ := s
  obtain ⟨c, d, _⟩ := t
  obtain rfl : a = c := Nat.le_antisymm h.1 h'.1
  obtain rfl : b = d := Nat.le_antisymm h'.2 h.2
  rfl

theorem covers_single_iff (s : Span) (i : Nat) :
    s.covers (single i) = true ↔ s.contains i = true :=
  Iff.rfl

theorem covers_hull_iff (s t u : Span) :
    s.covers (t.hull u) = true ↔ s.covers t = true ∧ s.covers u = true := by
  simp only [covers_iff, hull]
  omega

theorem covers_between_iff (s : Span) (i j : Nat) :
    s.covers (between i j) = true ↔ s.contains i = true ∧ s.contains j = true := by
  unfold contains
  simp only [covers_iff, between, Bool.and_eq_true, decide_eq_true_eq]
  omega

theorem between_contains {i j k : Nat} (h : i ≤ k) (h' : k ≤ j) :
    (between i j).contains k = true := by
  unfold contains between
  simp only [Bool.and_eq_true, decide_eq_true_eq]
  omega

end Span

namespace Region

theorem covers_hull_iff (r s t : Region) :
    r.covers (s.hull t) = true ↔ r.covers s = true ∧ r.covers t = true := by
  simp only [covers, hull, Bool.and_eq_true, Span.covers_hull_iff]
  exact and_and_and_comm

theorem covers_cell_iff (r : Region) (p : Position) :
    r.covers (cell p) = true ↔ r.contains p = true := by
  simp only [covers, cell, contains, Bool.and_eq_true, Span.covers_single_iff]

theorem covers_foldl_hull_iff (r s : Region) (ps : List Position) :
    r.covers (ps.foldl (fun r q => r.hull (.cell q)) s) = true ↔
      r.covers s = true ∧ ∀ q ∈ ps, r.contains q = true := by
  induction ps generalizing s with
  | nil => simp
  | cons p ps ih =>
    rw [List.foldl_cons, ih, covers_hull_iff, covers_cell_iff, List.forall_mem_cons, and_assoc]

theorem covers_self (r : Region) : r.covers r = true := by
  simp [covers, Span.covers]

theorem covers_antisymm {r s : Region} (h : r.covers s = true) (h' : s.covers r = true) :
    r = s := by
  unfold covers at h h'
  rw [Bool.and_eq_true] at h h'
  obtain ⟨rows, columns⟩ := r
  obtain ⟨rows', columns'⟩ := s
  obtain rfl : rows = rows' := Span.covers_antisymm h.1 h'.1
  obtain rfl : columns = columns' := Span.covers_antisymm h.2 h'.2
  rfl

theorem withSpan_eq_self_iff {r : Region} {axis : Axis} {s : Span} :
    r.withSpan axis s = r ↔ s = r.span axis := by
  obtain ⟨rows, columns⟩ := r
  cases axis <;> simp [withSpan, span]

theorem covers_iff_span (r s : Region) (axis : Axis) :
    r.covers s = true ↔ (r.span axis).covers (s.span axis) = true ∧
      (r.span axis.other).covers (s.span axis.other) = true := by
  unfold covers
  rw [Bool.and_eq_true]
  cases axis with
  | row => exact Iff.rfl
  | column => exact And.comm

theorem covers_corners_iff (r : Region) (p q : Position) (axis : Axis) :
    r.covers (corners p.row p.column q.row q.column) = true ↔
      ((r.span axis).contains (p.index axis) = true ∧
        (r.span axis).contains (q.index axis) = true) ∧
      (r.span axis.other).contains (p.index axis.other) = true ∧
        (r.span axis.other).contains (q.index axis.other) = true := by
  have hspan (axis : Axis) : (corners p.row p.column q.row q.column).span axis =
      .between (p.index axis) (q.index axis) := by cases axis <;> rfl
  rw [covers_iff_span _ _ axis, hspan, hspan, Span.covers_between_iff, Span.covers_between_iff]

end Region

variable {α : Type}

namespace Matrix

variable {m n : Matrix α}

def isFilled (m : Matrix α) (p : Position) : Bool := (m.get? p).isSome

/-- The smallest region with all filled cells in it, of which there are some. -/
structure IsExtent (m : Matrix α) (r : Region) : Prop where
  nonempty : ∃ p, m.isFilled p = true
  contains : ∀ p, m.isFilled p = true → r.contains p = true
  least : ∀ g : Region, (∀ p, m.isFilled p = true → g.contains p = true) → g.covers r = true

theorem mem_positions {p : Position} : p ∈ m.toList.map (·.1) ↔ m.isFilled p = true := by
  unfold isFilled
  rw [List.mem_map, Option.isSome_iff_exists]
  constructor
  · rintro ⟨⟨q, a⟩, hc, rfl⟩
    exact ⟨a, mem_toList.mp hc⟩
  · rintro ⟨a, ha⟩
    exact ⟨(p, a), mem_toList.mpr ha, rfl⟩

theorem positions_nodup (m : Matrix α) : (m.toList.map (·.1)).Nodup := by
  rw [List.Nodup, List.pairwise_map]
  refine m.toList_forward.imp fun {a b} h e => ?_
  rw [e, Std.ReflOrd.compare_self] at h
  contradiction

/-- The count is right whatever has been done to the grid. -/
theorem size_eq_card (m : Matrix α) : m.size = Nat.card {p // m.isFilled p = true} := by
  classical
  rw [← m.length_toList, ← List.length_map (fun c : Position × α => c.1),
    ← List.toFinset_card_of_nodup m.positions_nodup]
  exact (Nat.subtype_card _ fun p => by rw [List.mem_toFinset, mem_positions]).symm

theorem exists_isExtent {p : Position} (hp : m.isFilled p = true) : ∃ r, m.IsExtent r := by
  have hmem {p : Position} : m.isFilled p = true ↔ p ∈ m.toList.map (·.1) := mem_positions.symm
  obtain ⟨q, qs, hlist⟩ := List.exists_cons_of_ne_nil (List.ne_nil_of_mem (hmem.mp hp))
  refine ⟨qs.foldl (fun r q => r.hull (.cell q)) (.cell q), ⟨p, hp⟩, fun p hp => ?_, fun g hg => ?_⟩
  · have hcovered := (Region.covers_foldl_hull_iff _ (.cell q) qs).mp (Region.covers_self _)
    rw [Region.covers_cell_iff] at hcovered
    rw [hmem, hlist] at hp
    obtain rfl | hp := List.mem_cons.mp hp
    · exact hcovered.1
    · exact hcovered.2 p hp
  · have hin (p : Position) (hp : p ∈ q :: qs) : g.contains p = true := hg p (hmem.mpr (hlist ▸ hp))
    rw [Region.covers_foldl_hull_iff, Region.covers_cell_iff]
    exact ⟨hin q List.mem_cons_self, fun p hp => hin p (List.mem_cons_of_mem q hp)⟩

/-! ## The part in use -/

end Matrix

namespace Line

variable {l : Line α} {c d : Nat × α}

theorem mem_of_first? (h : l.first? = some c) : c ∈ l.toList :=
  List.mem_of_mem_head? h

theorem mem_of_last? (h : l.last? = some c) : c ∈ l.toList :=
  List.mem_of_getLast? h

theorem first?_le (h : l.first? = some c) (hd : d ∈ l.toList) : c.1 ≤ d.1 := by
  obtain ⟨rest, hlist⟩ := List.head?_eq_some_iff.mp h
  have hforward := l.toList_forward
  rw [hlist] at hd hforward
  obtain rfl | hd := List.mem_cons.mp hd
  · exact Nat.le_refl _
  · exact Nat.le_of_lt ((List.pairwise_cons.mp hforward).1 d hd)

theorem le_last? (h : l.last? = some c) (hd : d ∈ l.toList) : d.1 ≤ c.1 := by
  obtain ⟨rest, hlist⟩ := List.getLast?_eq_some_iff.mp h
  have hforward := l.toList_forward
  rw [hlist] at hd hforward
  obtain hd | hd := List.mem_append.mp hd
  · exact Nat.le_of_lt ((List.pairwise_append.mp hforward).2.2 d hd c List.mem_cons_self)
  · rw [List.mem_singleton.mp hd]

theorem first?_isSome (hd : d ∈ l.toList) : ∃ c, l.first? = some c :=
  Option.isSome_iff_exists.mp (List.isSome_head?.mpr (List.ne_nil_of_mem hd))

theorem last?_isSome (hd : d ∈ l.toList) : ∃ c, l.last? = some c :=
  Option.isSome_iff_exists.mp (List.getLast?_isSome.mpr (List.ne_nil_of_mem hd))

end Line

namespace Matrix

variable {m n : Matrix α}

/-- A line in use is vacant or has a filled cell. -/
theorem vacant_or_isFilled {i : Nat} {line : Line α} (h : (i, line) ∈ m.lines.toList) :
    i ∈ m.vacant ∨ ∃ p, m.isFilled p = true ∧ p.index m.axis = i := by
  rw [Line.mem_toList] at h
  by_cases hempty : line = .empty
  · rw [hempty] at h
    exact .inl h
  · obtain ⟨j, a, ha⟩ := Line.exists_get?_of_ne_empty hempty
    have hget : m.get? ((Slot.mk i j).position m.axis) = some a :=
      slot?_eq_some.mpr ⟨line, by simpa using h, by simpa using ha⟩
    exact .inr ⟨_, Option.isSome_iff_exists.mpr ⟨a, hget⟩, Slot.index_position m.axis ⟨i, j⟩⟩

/-- A filled cell is in a line in use. -/
theorem exists_line_of_isFilled {p : Position} (h : m.isFilled p = true) :
    ∃ line a, (p.index m.axis, line) ∈ m.lines.toList ∧
      (p.index m.axis.other, a) ∈ line.toList := by
  obtain ⟨a, ha⟩ := Option.isSome_iff_exists.mp h
  obtain ⟨line, hline, hcell⟩ := slot?_eq_some.mp ha
  exact ⟨line, a, Line.mem_toList.mpr hline, Line.mem_toList.mpr hcell⟩

theorem isFilled_of_mem {i j : Nat} {line : Line α} {a : α} (h : (i, line) ∈ m.lines.toList)
    (hcell : (j, a) ∈ line.toList) : m.isFilled ((Slot.mk i j).position m.axis) = true := by
  rw [Line.mem_toList] at h hcell
  have hget : m.get? ((Slot.mk i j).position m.axis) = some a :=
    slot?_eq_some.mpr ⟨line, by simpa using h, by simpa using hcell⟩
  exact Option.isSome_iff_exists.mpr ⟨a, hget⟩

/-- What the part in use is read off. -/
theorem used?_eq_some {u : Region} (hu : m.used? = some u) : ∃ first last least greatest,
    m.lines.first? = some first ∧ m.lines.last? = some last ∧
    (m.lines.toList.filterMap fun c => c.2.first?.map (·.1)).min? = some least ∧
    (m.lines.toList.filterMap fun c => c.2.last?.map (·.1)).max? = some greatest ∧
    ∀ r : Region, r.covers u = true ↔
      ((r.span m.axis).contains first.1 = true ∧ (r.span m.axis).contains last.1 = true) ∧
      (r.span m.axis.other).contains least = true ∧
        (r.span m.axis.other).contains greatest = true := by
  unfold used? at hu
  simp only [Option.bind_eq_bind, Option.bind_eq_some_iff, Option.pure_def, Option.some.injEq] at hu
  obtain ⟨first, hfirst, last, hlast, least, hleast, greatest, hgreatest, rfl⟩ := hu
  refine ⟨first, last, least, greatest, hfirst, hlast, hleast, hgreatest, fun r => ?_⟩
  rw [Region.covers_corners_iff r _ _ m.axis]
  simp only [Slot.index_position, Slot.index_other_position]

/-- A region covers the part in use if it holds all filled cells and lies across all vacant
lines. -/
theorem covers_used_iff {r u : Region} (hu : m.used? = some u) :
    r.covers u = true ↔ (∀ p, m.isFilled p = true → r.contains p = true) ∧
      ∀ i ∈ m.vacant, (r.span m.axis).contains i = true := by
  obtain ⟨first, last, least, greatest, hfirst, hlast, hleast, hgreatest, hcovers⟩ :=
    used?_eq_some hu
  have hends {i : Nat} {line : Line α} (h : (i, line) ∈ m.lines.toList) :
      (Span.between first.1 last.1).contains i = true :=
    Span.between_contains (Line.first?_le hfirst h) (Line.le_last? hlast h)
  rw [hcovers]
  constructor
  · rintro ⟨⟨hf, hl⟩, hs, hg⟩
    refine ⟨fun p hp => ?_, fun i hi => ?_⟩
    · obtain ⟨line, a, hline, hcell⟩ := exists_line_of_isFilled hp
      obtain ⟨c, hc⟩ := Line.first?_isSome hcell
      obtain ⟨d, hd⟩ := Line.last?_isSome hcell
      have hleast' : least ≤ c.1 := (List.min?_eq_some_iff.mp hleast).2 c.1
        (List.mem_filterMap.mpr ⟨_, hline, by rw [hc]; rfl⟩)
      have hgreatest' : d.1 ≤ greatest := (List.max?_eq_some_iff.mp hgreatest).2 d.1
        (List.mem_filterMap.mpr ⟨_, hline, by rw [hd]; rfl⟩)
      rw [Region.contains_iff r p m.axis]
      exact ⟨Span.contains_of_between hf hl (hends hline),
        Span.contains_of_between hs hg (Span.between_contains
          (hleast'.trans (Line.first?_le hc hcell)) ((Line.le_last? hd hcell).trans hgreatest'))⟩
    · exact Span.contains_of_between hf hl (hends (Line.mem_toList.mpr hi))
  · rintro ⟨hcells, hvacant⟩
    have hline {c : Nat × Line α} (h : c ∈ m.lines.toList) :
        (r.span m.axis).contains c.1 = true := by
      obtain hi | ⟨p, hp, hi⟩ := vacant_or_isFilled h
      · exact hvacant _ hi
      · exact hi ▸ ((Region.contains_iff r p m.axis).mp (hcells p hp)).1
    have hindex {i j : Nat} {line : Line α} {a : α} (h : (i, line) ∈ m.lines.toList)
        (hcell : (j, a) ∈ line.toList) : (r.span m.axis.other).contains j = true := by
      have hp := (Region.contains_iff r _ m.axis).mp (hcells _ (isFilled_of_mem h hcell))
      simpa using hp.2
    obtain ⟨c, hc, hmin⟩ := List.mem_filterMap.mp (List.min?_mem hleast)
    obtain ⟨d, hd, hmax⟩ := List.mem_filterMap.mp (List.max?_mem hgreatest)
    obtain ⟨cell, hcell, rfl⟩ := Option.map_eq_some_iff.mp hmin
    obtain ⟨cell', hcell', rfl⟩ := Option.map_eq_some_iff.mp hmax
    exact ⟨⟨hline (Line.mem_of_first? hfirst), hline (Line.mem_of_last? hlast)⟩,
      hindex hc (Line.mem_of_first? hcell), hindex hd (Line.mem_of_last? hcell')⟩

theorem exists_isFilled_of_used? {u : Region} (hu : m.used? = some u) :
    ∃ p, m.isFilled p = true := by
  obtain ⟨-, -, least, -, -, -, hleast, -⟩ := used?_eq_some hu
  obtain ⟨c, hc, hmin⟩ := List.mem_filterMap.mp (List.min?_mem hleast)
  obtain ⟨cell, hcell, rfl⟩ := Option.map_eq_some_iff.mp hmin
  exact ⟨_, isFilled_of_mem hc (Line.mem_of_first? hcell)⟩

theorem exists_used?_of_isFilled {p : Position} (h : m.isFilled p = true) :
    ∃ u, m.used? = some u := by
  obtain ⟨line, a, hline, hcell⟩ := exists_line_of_isFilled h
  obtain ⟨first, hfirst⟩ := Line.first?_isSome hline
  obtain ⟨last, hlast⟩ := Line.last?_isSome hline
  obtain ⟨c, hc⟩ := Line.first?_isSome hcell
  obtain ⟨d, hd⟩ := Line.last?_isSome hcell
  obtain ⟨least, hleast⟩ := Option.isSome_iff_exists.mp (List.isSome_min?_of_mem
    (List.mem_filterMap (f := fun c => c.2.first?.map (·.1)).mpr ⟨_, hline, by rw [hc]; rfl⟩))
  obtain ⟨greatest, hgreatest⟩ := Option.isSome_iff_exists.mp (List.isSome_max?_of_mem
    (List.mem_filterMap (f := fun c => c.2.last?.map (·.1)).mpr ⟨_, hline, by rw [hd]; rfl⟩))
  unfold used?
  rw [hfirst, hlast, hleast, hgreatest]
  exact ⟨_, rfl⟩

theorem used?_eq_none_iff : m.used? = none ↔ ∀ p, m.isFilled p = false := by
  rw [Option.eq_none_iff_forall_ne_some]
  constructor
  · intro h p
    refine Bool.eq_false_iff.mpr fun hp => ?_
    obtain ⟨u, hu⟩ := exists_used?_of_isFilled hp
    exact h u hu
  · intro h u hu
    obtain ⟨p, hp⟩ := exists_isFilled_of_used? hu
    rw [h p] at hp
    cases hp

theorem isFilled_set {p q : Position} {a : α} :
    (m.set p a).isFilled q = true ↔ q = p ∨ m.isFilled q = true := by
  unfold isFilled
  rw [get?_set]
  by_cases h : p = q
  · simp [h]
  · simp [h, Ne.symm h]

theorem mem_vacant_set {p : Position} {a : α} {i : Nat} :
    i ∈ (m.set p a).vacant ↔ i ≠ p.index m.axis ∧ i ∈ m.vacant := by
  rw [vacant_set]
  exact and_comm

/-- Filling a cell stretches the part in use to the cell. -/
theorem used?_set {u : Region} (hu : m.used? = some u) (p : Position) (a : α) :
    (m.set p a).used? = some (u.hull (.cell p)) := by
  have hfilled : (m.set p a).isFilled p = true := isFilled_set.mpr (.inl rfl)
  obtain ⟨u', hu'⟩ : ∃ u', (m.set p a).used? = some u' := by
    refine Option.ne_none_iff_exists'.mp fun h => ?_
    rw [used?_eq_none_iff.mp h p] at hfilled
    contradiction
  have hcovers (r : Region) : r.covers u' = true ↔ r.covers (u.hull (.cell p)) = true := by
    rw [covers_used_iff hu', Region.covers_hull_iff, covers_used_iff hu, Region.covers_cell_iff]
    simp only [isFilled_set, forall_eq_or_imp, mem_vacant_set, axis_set]
    constructor
    · rintro ⟨⟨hp, hcells⟩, hlines⟩
      refine ⟨⟨hcells, fun i hi => ?_⟩, hp⟩
      -- The line of `p` is vacant no longer, but a region with `p` in it lies across that line.
      by_cases hip : i = p.index m.axis
      · rw [hip]
        exact ((r.contains_iff p m.axis).mp hp).1
      · exact hlines i ⟨hip, hi⟩
    · rintro ⟨⟨hcells, hlines⟩, hp⟩
      exact ⟨⟨hp, hcells⟩, fun i hi => hlines i hi.2⟩
  rw [hu', Region.covers_antisymm ((hcovers _).mpr (Region.covers_self _))
    ((hcovers _).mp (Region.covers_self _))]

/-- The next cell of the first row has no part in where whole columns end, unless it lies in
them. -/
theorem clipped?_set_next {u g : Region} (hu : m.used? = some u) (hgrid : u.top ≤ endless)
    (htop : g.top = 0) (hright : g.right ≠ endless)
    (hg : g.contains ⟨0, u.right + 1⟩ = false) (a : α) :
    (m.set ⟨0, u.right + 1⟩ a).clipped? g = m.clipped? g := by
  by_cases hb : g.isBounded = true
  · rw [clipped?_of_isBounded hb, clipped?_of_isBounded hb]
  · have hendless : g.bottom = endless := by
      unfold Region.isBounded at hb
      simpa [hright] using hb
    have hbottom : (u.hull (.cell ⟨0, u.right + 1⟩)).bottom = u.bottom :=
      Nat.max_eq_left (Nat.zero_le _)
    have hoverlaps : g.overlaps (u.hull (.cell ⟨0, u.right + 1⟩)) = g.overlaps u := by
      have hu := u.columns.first_le_last
      have hg' := g.columns.first_le_last
      unfold Region.contains Span.contains at hg
      unfold Region.overlaps Span.overlaps
      rw [Bool.eq_iff_iff]
      simp only [Bool.and_eq_true, Bool.and_eq_false_iff, decide_eq_true_eq,
        decide_eq_false_iff_not] at hg ⊢
      simp only [Region.hull, Span.hull, Region.cell, Span.single, Region.top, Region.bottom,
        Region.right] at hg hgrid htop hendless ⊢
      omega
    unfold clipped?
    rw [if_neg hb, if_neg hb, used?_set hu, hu]
    simp only [hbottom, hoverlaps, if_neg hright]

/-- No vacant line lies outside of the region around the filled cells. -/
def IsTight (m : Matrix α) : Prop :=
  ∀ r, m.IsExtent r → ∀ i ∈ m.vacant, (r.span m.axis).contains i = true

/-- The part in use is the region around the filled cells exactly while no vacant line lies outside
of it. -/
theorem isTight_iff : m.IsTight ↔ ∀ r, m.used? = some r ↔ m.IsExtent r := by
  have hreaches {u : Region} (hu : m.used? = some u) (p : Position) (hp : m.isFilled p = true) :
      u.contains p = true := ((covers_used_iff hu).mp u.covers_self).1 p hp
  constructor
  · intro htight r
    have hextent {s u : Region} (hs : m.IsExtent s) (hu : m.used? = some u) : u = s :=
      Region.covers_antisymm (hs.least u (hreaches hu))
        ((covers_used_iff hu).mpr ⟨hs.contains, htight s hs⟩)
    constructor
    · intro hr
      obtain ⟨p, hp⟩ := exists_isFilled_of_used? hr
      obtain ⟨s, hs⟩ := exists_isExtent hp
      exact hextent hs hr ▸ hs
    · intro hr
      obtain ⟨p, hp⟩ := hr.nonempty
      obtain ⟨u, hu⟩ := exists_used?_of_isFilled hp
      rw [hu, hextent hr hu]
  · intro hused r hr
    exact ((covers_used_iff ((hused r).mpr hr)).mp r.covers_self).2

end Matrix

end Spreadsheet
