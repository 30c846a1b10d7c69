import Spreadsheet.Proofs.Grid.Addressing
import Spreadsheet.Proofs.Grid.Denoting

/-! References without `$` that are copied elsewhere. As long as no part of such a reference leaves
the grid or goes to the end of it, what it denotes moves along as it is. -/

namespace Spreadsheet

/-! ## Regions -/

def Span.shifted (s : Span) (offset : Int) : Span :=
  ⟨(s.first + offset).toNat, (s.last + offset).toNat, by have := s.first_le_last; omega⟩

def Position.shifted (p : Position) (rows columns : Int) : Position :=
  ⟨(p.row + rows).toNat, (p.column + columns).toNat⟩

def Region.shifted (g : Region) (rows columns : Int) : Region :=
  ⟨g.rows.shifted rows, g.columns.shifted columns⟩

/-- The region moves by these offsets without leaving the grid, and keeps an end. -/
structure Region.Moves (g : Region) (rows columns : Int) : Prop where
  top : 0 ≤ g.top + rows
  left : 0 ≤ g.left + columns
  bounded : (g.shifted rows columns).isBounded = true

namespace Span

theorem contains_shifted {s : Span} {offset : Int} (h : 0 ≤ s.first + offset) {i : Nat} :
    (s.shifted offset).contains i = true ↔
      s.contains (i - offset).toNat = true ∧ 0 ≤ i - offset := by
  have hle := s.first_le_last
  unfold contains shifted
  simp only [Bool.and_eq_true, decide_eq_true_eq]
  omega

end Span

namespace Region

variable {g : Region} {rows columns : Int}

theorem contains_shifted (h : g.Moves rows columns) {p : Position} (hp : g.contains p = true) :
    (g.shifted rows columns).contains (p.shifted rows columns) = true := by
  obtain ⟨top, left, -⟩ := h
  unfold contains Span.contains shifted Position.shifted Span.shifted at *
  unfold Region.top at top
  unfold Region.left at left
  simp only [Bool.and_eq_true, decide_eq_true_eq] at *
  omega

/-- Each cell of a moved region comes from one of the region. -/
theorem exists_of_contains_shifted (h : g.Moves rows columns) {q : Position}
    (hq : (g.shifted rows columns).contains q = true) :
    ∃ p, g.contains p = true ∧ p.shifted rows columns = q := by
  obtain ⟨hrow, hcolumn⟩ := Bool.and_eq_true_iff.mp hq
  obtain ⟨hrow, hrow'⟩ := (Span.contains_shifted h.top).mp hrow
  obtain ⟨hcolumn, hcolumn'⟩ := (Span.contains_shifted h.left).mp hcolumn
  refine ⟨⟨(q.row - rows).toNat, (q.column - columns).toNat⟩, ?_, ?_⟩
  · exact Bool.and_eq_true_iff.mpr ⟨hrow, hcolumn⟩
  · obtain ⟨row, column⟩ := q
    simp only [Position.shifted, Position.mk.injEq]
    dsimp only at hrow' hcolumn'
    omega

/-- Cells of a moved region keep their order. -/
theorem compare_shifted (h : g.Moves rows columns) {p q : Position} (hp : g.contains p = true)
    (hq : g.contains q = true) :
    compare (p.shifted rows columns) (q.shifted rows columns) = compare p q := by
  obtain ⟨top, left, -⟩ := h
  unfold contains Span.contains at hp hq
  unfold Region.top at top
  unfold Region.left at left
  simp only [Bool.and_eq_true, decide_eq_true_eq] at hp hq
  have hrow : compare (p.row + rows).toNat (q.row + rows).toNat = compare p.row q.row := by
    rw [Nat.compare_eq_ite_lt, Nat.compare_eq_ite_lt]
    grind
  have hcolumn : compare (p.column + columns).toNat (q.column + columns).toNat =
      compare p.column q.column := by
    rw [Nat.compare_eq_ite_lt, Nat.compare_eq_ite_lt]
    grind
  change (compareLex (compareOn Position.row) (compareOn Position.column)) _ _ =
    (compareLex (compareOn Position.row) (compareOn Position.column)) _ _
  unfold compareLex compareOn Position.shifted
  dsimp only
  rw [hrow, hcolumn]

end Region

/-! ## Places -/

namespace Place

variable {p : Place} {axis : Axis} {m r c : Mark} {rows columns offset : Int}

theorem withMark_mark (hm : p.mark? axis = some m) : p.withMark axis m = p := by
  cases p <;> cases axis <;> cases hm <;> rfl

/-- A free coordinate that stays on the grid moves by the whole offset. -/
theorem movedBy_eq (hm : p.mark? axis = some m) (hfree : m.fixed = false)
    (hv : (p.movedBy axis offset).isValid = true) :
    p.movedBy axis offset = p.withMark axis ⟨(m.index + offset).toNat, false⟩ ∧
      0 ≤ m.index + offset ∧ (offset = 0 ∨ m.index + offset ≤ limit axis) := by
  by_cases hzero : offset = 0
  · subst hzero
    have hself : (⟨(m.index + 0 : Int).toNat, false⟩ : Mark) = m := by
      cases m
      cases hfree
      simp
    rw [hself, withMark_mark hm]
    refine ⟨?_, by omega, .inl rfl⟩
    unfold movedBy
    rw [hm]
    exact if_pos (.inl rfl)
  · unfold movedBy at hv ⊢
    rw [hm] at hv ⊢
    dsimp only at hv ⊢
    rw [if_neg (by simp [hzero, hfree])] at hv ⊢
    split at hv
    · rw [isValid_invalidated] at hv
      contradiction
    · rename_i hin
      rw [if_neg hin]
      exact ⟨rfl, by omega, .inr (by omega)⟩

/-- A cell that keeps its place on the grid moves by both offsets. -/
theorem shifted_cell (hr : r.fixed = false) (hc : c.fixed = false)
    (hv : ((cell r c true).shifted rows columns).isValid = true) :
    (cell r c true).shifted rows columns =
        cell ⟨(r.index + rows).toNat, false⟩ ⟨(c.index + columns).toNat, false⟩ true ∧
      (0 ≤ r.index + rows ∧ (rows = 0 ∨ r.index + rows ≤ limit .row)) ∧
      (0 ≤ c.index + columns ∧ (columns = 0 ∨ c.index + columns ≤ limit .column)) := by
  have hrow : (cell r c true).mark? .row = some r := rfl
  obtain ⟨hmoved, hroom⟩ := movedBy_eq hrow hr
    ((Place.becomes_movedBy _ .column columns).isValid hv)
  unfold shifted at hv ⊢
  rw [hmoved] at hv ⊢
  have hcolumn : ((cell r c true).withMark .row ⟨(r.index + rows).toNat, false⟩).mark? .column =
      some c := rfl
  obtain ⟨hmoved', hroom'⟩ := movedBy_eq hcolumn hc hv
  rw [hmoved']
  exact ⟨rfl, hroom, hroom'⟩

theorem eq_cell_of_isBounded (h : p.cells.isBounded = true) : ∃ r c v, p = cell r c v := by
  cases p with
  | cell r c v => exact ⟨r, c, v, rfl⟩
  | column c v => simp [cells, Region.wholeColumns, Region.isBounded, Region.bottom, Span.all] at h
  | row r v => simp [cells, Region.wholeRows, Region.isBounded, Region.right, Span.all] at h

theorem Addressable.last_le (h : p.Addressable) (axis : Axis) :
    (p.cells.span axis).last ≤ endless := by
  rw [span_cells]
  cases hm : p.mark? axis with
  | none => exact Nat.le_refl _
  | some m => exact h axis m hm

end Place

/-- What lies within a bounded hull is bounded. -/
theorem Region.isBounded_of_hull {g g' : Region} (hg : ∀ axis, (g.span axis).last ≤ endless)
    (hg' : ∀ axis, (g'.span axis).last ≤ endless) (h : (g.hull g').isBounded = true) :
    g.isBounded = true ∧ g'.isBounded = true := by
  have hrow := hg .row
  have hcolumn := hg .column
  have hrow' := hg' .row
  have hcolumn' := hg' .column
  simp only [isBounded, hull, Span.hull, bottom, right, span, Bool.and_eq_true, bne_iff_ne,
    ne_eq] at *
  omega

namespace Target

/-- Cells or whole lines without `$`, and no name. -/
def IsRelative : Target → Prop
  | place p => (place p).FreeAlong .row ∧ (place p).FreeAlong .column
  | range a b => (range a b).FreeAlong .row ∧ (range a b).FreeAlong .column
  | name _ => False

instance : DecidablePred IsRelative := fun t =>
  match t with
  | place p => inferInstanceAs (Decidable ((place p).FreeAlong .row ∧ (place p).FreeAlong .column))
  | range a b =>
    inferInstanceAs (Decidable ((range a b).FreeAlong .row ∧ (range a b).FreeAlong .column))
  | name _ => isFalse id

variable {t : Target} {g : Region} {rows columns : Int} {r c : Mark}

theorem moves_cell (hr : r.fixed = false) (hc : c.fixed = false)
    (hbounded : (Place.cell r c true).cells.isBounded = true)
    (hv : ((Place.cell r c true).shifted rows columns).isValid = true) :
    ((Place.cell r c true).shifted rows columns).cells =
        (Place.cell r c true).cells.shifted rows columns ∧
      (Place.cell r c true).cells.Moves rows columns := by
  obtain ⟨hplace, ⟨hrow, hrow'⟩, hcolumn, hcolumn'⟩ := Place.shifted_cell hr hc hv
  have hlimit := Place.limit_lt .row
  have hlimit' := Place.limit_lt .column
  rw [hplace]
  refine ⟨rfl, hrow, hcolumn, ?_⟩
  simp only [Place.cells, Region.cell, Region.isBounded, Region.shifted, Span.shifted, Span.single,
    Region.bottom, Region.right, Bool.and_eq_true, bne_iff_ne, ne_eq] at hbounded ⊢
  omega

theorem moves_hull {g g' : Region} (h : g.Moves rows columns) (h' : g'.Moves rows columns) :
    (g.hull g').shifted rows columns = (g.shifted rows columns).hull (g'.shifted rows columns) ∧
      (g.hull g').Moves rows columns := by
  obtain ⟨top, left, bounded⟩ := h
  obtain ⟨top', left', bounded'⟩ := h'
  have hspan (s s' : Span) (offset : Int) :
      (s.hull s').shifted offset = (s.shifted offset).hull (s'.shifted offset) := by
    simp only [Span.shifted, Span.hull, Span.mk.injEq]
    omega
  have hhull : (g.hull g').shifted rows columns =
      (g.shifted rows columns).hull (g'.shifted rows columns) := by
    simp only [Region.shifted, Region.hull, hspan]
  refine ⟨hhull, ?_, ?_, ?_⟩
  · simp only [Region.top, Region.hull, Span.hull] at *
    omega
  · simp only [Region.left, Region.hull, Span.hull] at *
    omega
  · rw [hhull]
    simp only [Region.isBounded, Region.hull, Span.hull, Region.bottom, Region.right,
      Bool.and_eq_true, bne_iff_ne, ne_eq] at *
    omega

/-- What a relative target denotes moves with it. -/
theorem region?_shifted (hg : t.region? = some g) (hrelative : t.IsRelative)
    (haddressable : t.Addressable) (hbounded : g.isBounded = true)
    (hv : (t.shifted rows columns).isValid = true) :
    (t.shifted rows columns).region? = some (g.shifted rows columns) ∧ g.Moves rows columns := by
  have hvalid : t.isValid = true := (Option.ite_none_right_eq_some.mp hg).1
  cases t with
  | name n => cases hg
  | place p =>
    cases (Option.ite_none_right_eq_some.mp hg).2
    obtain ⟨r, c, v, rfl⟩ := Place.eq_cell_of_isBounded hbounded
    obtain rfl : v = true := hvalid
    obtain ⟨hcells, hmoves⟩ :=
      moves_cell (hrelative.1 r rfl) (hrelative.2 c rfl) hbounded hv
    exact ⟨(if_pos hv).trans (congrArg some hcells), hmoves⟩
  | range a b =>
    cases eq_hull_of_region? hg
    obtain ⟨ha, hb⟩ :=
      Region.isBounded_of_hull haddressable.1.last_le haddressable.2.last_le hbounded
    obtain ⟨r, c, v, rfl⟩ := Place.eq_cell_of_isBounded ha
    obtain ⟨r', c', v', rfl⟩ := Place.eq_cell_of_isBounded hb
    obtain ⟨rfl, rfl⟩ : v = true ∧ v' = true := Bool.and_eq_true_iff.mp hvalid
    change (between _ _).isValid = true at hv
    rw [isValid_between, Bool.and_eq_true] at hv
    obtain ⟨hcells, hmoves⟩ :=
      moves_cell (hrelative.1.1 r rfl) (hrelative.2.1 c rfl) ha hv.1
    obtain ⟨hcells', hmoves'⟩ :=
      moves_cell (hrelative.1.2 r' rfl) (hrelative.2.2 c' rfl) hb hv.2
    obtain ⟨hhull, hmoved⟩ := moves_hull hmoves hmoves'
    refine ⟨?_, hmoved⟩
    change (between _ _).region? = _
    rw [region?_between, region?_range, hv.1, hv.2, hcells, hcells', hhull]
    rfl

end Target

/-! ## References -/

namespace Reference

/-- The reference has no `$` and no name in it. -/
def IsRelative (r : Reference) : Prop := ∀ t ∈ r.targets, t.IsRelative

instance : DecidablePred IsRelative := fun r =>
  inferInstanceAs (Decidable (∀ t ∈ r.targets, t.IsRelative))

variable {r : Reference} {rows columns : Int}

theorem IsRelative.ne_name (h : r.IsRelative) (n : String) : r ≠ .ofName n := by
  rintro rfl
  exact h (.name n) (List.mem_singleton_self _)

theorem IsRelative.shifted_ne_name (h : r.IsRelative) (n : String) :
    r.shifted rows columns ≠ .ofName n := by
  cases r with
  | union parts => nofun
  | single t =>
    cases t with
    | name k => exact absurd rfl (h.ne_name k)
    | place p => nofun
    | range a b => nofun

/-- A copy makes no lost reference valid. -/
theorem isValid_shifted (h : r.isValid = true → (r.shifted rows columns).isValid = true) :
    (r.shifted rows columns).isValid = r.isValid :=
  Bool.eq_iff_iff.mpr ⟨Revision.isValid_of_reference (v := .copy rows columns), h⟩

/-- Each part of what a relative reference denotes moves with it. -/
theorem regions_shifted (hrelative : r.IsRelative) (haddressable : r.Addressable)
    (hbounded : ∀ g ∈ r.regions, g.isBounded = true)
    (hv : (r.shifted rows columns).isValid = true) :
    (r.shifted rows columns).regions = r.regions.map (·.shifted rows columns) ∧
      ∀ g ∈ r.regions, g.Moves rows columns := by
  have hmoves : ∀ t ∈ r.targets, ∀ g, t.region? = some g →
      (t.shifted rows columns).region? = some (g.shifted rows columns) ∧
        g.Moves rows columns := fun t ht g hg => by
    have hshifted : (t.shifted rows columns).isValid = true := by
      rw [shifted, isValid, targets_map, List.all_map, List.all_eq_true] at hv
      exact hv t ht
    exact Target.region?_shifted hg (hrelative t ht) (haddressable t ht)
      (hbounded g (List.mem_filterMap.mpr ⟨t, ht, hg⟩)) hshifted
  constructor
  · unfold regions shifted
    rw [targets_map, List.filterMap_map, List.map_filterMap]
    refine List.filterMap_congr fun t ht => ?_
    cases hg : t.region? with
    | some g => exact (hmoves t ht g hg).1
    | none =>
      have hvalid :=
        List.all_eq_true.mp (Revision.isValid_of_reference (v := .copy rows columns) hv)
      obtain ⟨n, rfl⟩ := Target.eq_name (hvalid t ht) hg
      exact absurd (hrelative _ ht) id
  · intro g hg
    obtain ⟨t, ht, hg⟩ := List.mem_filterMap.mp hg
    exact (hmoves t ht g hg).2

end Reference

end Spreadsheet
