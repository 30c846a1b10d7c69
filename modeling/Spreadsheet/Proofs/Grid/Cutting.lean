import Spreadsheet.Proofs.Grid.Carrying

/-! Regions as sets of cells. What is cut out of a region leaves up to four pieces, which lie apart
and hold exactly the other cells of it; a region that two others form holds exactly the cells of the
two. -/

namespace Spreadsheet

/-! ## Lines -/

namespace Span

variable {s t cut part : Span} {i : Nat}

theorem contains_iff (s : Span) (i : Nat) : s.contains i = true ↔ s.first ≤ i ∧ i ≤ s.last := by
  simp [contains]

theorem covers_of_meet? (h : s.meet? t = some cut) : s.covers cut = true ∧ t.covers cut = true := by
  unfold meet? at h
  split at h
  · cases h
    simp only [covers, Bool.and_eq_true, decide_eq_true_eq]
    omega
  · cases h

theorem contains_of_covers (h : s.covers t = true) (hi : t.contains i = true) :
    s.contains i = true := by
  simp only [covers, contains, Bool.and_eq_true, decide_eq_true_eq] at h hi ⊢
  omega

theorem contains_before? (h : s.before? cut = some part) (hcut : s.covers cut = true) :
    part.contains i = true ↔ s.contains i = true ∧ i < cut.first := by
  have hsize := cut.first_le_last
  simp only [covers, Bool.and_eq_true, decide_eq_true_eq] at hcut
  unfold before? at h
  split at h
  · cases h
    simp only [contains_iff]
    omega
  · cases h

theorem contains_after? (h : s.after? cut = some part) (hcut : s.covers cut = true) :
    part.contains i = true ↔ s.contains i = true ∧ cut.last < i := by
  have hsize := cut.first_le_last
  simp only [covers, Bool.and_eq_true, decide_eq_true_eq] at hcut
  unfold after? at h
  split at h
  · cases h
    simp only [contains_iff]
    omega
  · cases h

theorem not_of_before? (hcut : s.covers cut = true) (h : s.before? cut = some part)
    (hi : part.contains i = true) : cut.contains i = false := by
  have hbefore := (contains_before? h hcut).mp hi
  rw [Bool.eq_false_iff, ne_eq, contains_iff]
  omega

theorem not_of_after? (hcut : s.covers cut = true) (h : s.after? cut = some part)
    (hi : part.contains i = true) : cut.contains i = false := by
  have hafter := (contains_after? h hcut).mp hi
  rw [Bool.eq_false_iff, ne_eq, contains_iff]
  omega

theorem not_after?_of_before? {part' : Span} (hcut : s.covers cut = true)
    (h : s.before? cut = some part) (h' : s.after? cut = some part')
    (hi : part.contains i = true) : part'.contains i = false := by
  have hsize := cut.first_le_last
  have hbefore := (contains_before? h hcut).mp hi
  rw [Bool.eq_false_iff, ne_eq, contains_after? h' hcut]
  omega

theorem exists_before?_iff (hcut : s.covers cut = true) :
    (∃ part, s.before? cut = some part ∧ part.contains i = true) ↔
      s.contains i = true ∧ i < cut.first := by
  refine ⟨fun ⟨part, h, hi⟩ => (contains_before? h hcut).mp hi, fun hi => ?_⟩
  have hbounds := (contains_iff s i).mp hi.1
  have h : s.before? cut = some ⟨s.first, cut.first - 1, by omega⟩ := dif_pos (by omega)
  exact ⟨_, h, (contains_before? h hcut).mpr hi⟩

theorem exists_after?_iff (hcut : s.covers cut = true) :
    (∃ part, s.after? cut = some part ∧ part.contains i = true) ↔
      s.contains i = true ∧ cut.last < i := by
  refine ⟨fun ⟨part, h, hi⟩ => (contains_after? h hcut).mp hi, fun hi => ?_⟩
  have hbounds := (contains_iff s i).mp hi.1
  have h : s.after? cut = some ⟨cut.last + 1, s.last, by omega⟩ := dif_pos (by omega)
  exact ⟨_, h, (contains_after? h hcut).mpr hi⟩

theorem contains_hull_iff (h : s.touches t = true) :
    (s.hull t).contains i = true ↔ s.contains i = true ∨ t.contains i = true := by
  have hs := s.first_le_last
  have ht := t.first_le_last
  simp only [touches, Bool.and_eq_true, decide_eq_true_eq] at h
  simp only [contains_iff, hull]
  omega

theorem hull_self (s : Span) : s.hull s = s := by
  unfold hull
  simp

theorem touches_comm (s t : Span) : s.touches t = t.touches s := Bool.and_comm _ _

end Span

namespace Region

variable {r s u cut piece : Region}

/-- The regions have no cell in common. -/
def Disjoint (r s : Region) : Prop := ∀ p, r.contains p = true → s.contains p = false

theorem Disjoint.symm (h : r.Disjoint s) : s.Disjoint r := by
  intro p hs
  by_contra hr
  rw [h p (by simpa using hr)] at hs
  cases hs

theorem Disjoint.mono {r' s' : Region} (h : r.Disjoint s)
    (hr : ∀ p, r'.contains p = true → r.contains p = true)
    (hs : ∀ p, s'.contains p = true → s.contains p = true) : r'.Disjoint s' := by
  intro p hp
  by_contra hp'
  have hnot := h p (hr p hp)
  rw [hs p (by simpa using hp')] at hnot
  cases hnot

theorem disjoint_iff_overlaps : r.Disjoint s ↔ r.overlaps s = false := by
  have hrows := r.rows.first_le_last
  have hrows' := s.rows.first_le_last
  have hcolumns := r.columns.first_le_last
  have hcolumns' := s.columns.first_le_last
  unfold Disjoint overlaps contains Span.overlaps Span.contains
  constructor
  · intro h
    -- Were there an overlap, its first cell would lie in both.
    have hcorner := h ⟨max r.rows.first s.rows.first, max r.columns.first s.columns.first⟩
    by_contra hover
    simp only [Bool.and_eq_true, Bool.and_eq_false_iff, decide_eq_true_eq,
      decide_eq_false_iff_not] at hcorner hover
    omega
  · intro h p hp
    simp only [Bool.and_eq_true, Bool.and_eq_false_iff, decide_eq_true_eq,
      decide_eq_false_iff_not] at h hp ⊢
    omega

theorem disjoint_of_rows {rows rows' columns columns' : Span}
    (h : ∀ i, rows.contains i = true → rows'.contains i = false) :
    Disjoint ⟨rows, columns⟩ ⟨rows', columns'⟩ := by
  intro p hp
  rw [contains, Bool.and_eq_true] at hp
  exact Bool.and_eq_false_iff.mpr (.inl (h _ hp.1))

theorem disjoint_of_columns {rows rows' columns columns' : Span}
    (h : ∀ i, columns.contains i = true → columns'.contains i = false) :
    Disjoint ⟨rows, columns⟩ ⟨rows', columns'⟩ := by
  intro p hp
  rw [contains, Bool.and_eq_true] at hp
  exact Bool.and_eq_false_iff.mpr (.inr (h _ hp.2))

instance (r s : Region) : Decidable (r.Disjoint s) := decidable_of_iff _ disjoint_iff_overlaps.symm

theorem meet?_eq_none : r.meet? s = none ↔ r.Disjoint s := by
  have hrows := Span.meet?_isSome r.rows s.rows
  have hcolumns := Span.meet?_isSome r.columns s.columns
  rw [disjoint_iff_overlaps, overlaps, ← hrows, ← hcolumns]
  unfold meet?
  cases r.rows.meet? s.rows <;> cases r.columns.meet? s.columns <;> simp

theorem covers_of_meet? (h : r.meet? s = some cut) : r.covers cut = true ∧ s.covers cut = true := by
  unfold meet? at h
  split at h
  · next rows columns hrows hcolumns =>
    cases h
    have hrows := Span.covers_of_meet? hrows
    have hcolumns := Span.covers_of_meet? hcolumns
    exact ⟨Bool.and_eq_true_iff.mpr ⟨hrows.1, hcolumns.1⟩,
      Bool.and_eq_true_iff.mpr ⟨hrows.2, hcolumns.2⟩⟩
  · cases h

/-- Every cell is on the grid. -/
def OnGrid (r : Region) : Prop := r.rows.last ≤ endless ∧ r.columns.last ≤ endless

instance : DecidablePred OnGrid := fun _ => inferInstanceAs (Decidable (_ ∧ _))

theorem OnGrid.last_le (h : r.OnGrid) (axis : Axis) : (r.span axis).last ≤ endless := by
  cases axis with
  | row => exact h.1
  | column => exact h.2

theorem onGrid_of_last {axis : Axis} (h : (r.span axis).last ≤ endless)
    (h' : (r.span axis.other).last ≤ endless) : r.OnGrid := by
  cases axis with
  | row => exact ⟨h, h'⟩
  | column => exact ⟨h', h⟩

theorem onGrid_iff : r.OnGrid ↔ ∀ p, r.contains p = true → p.OnGrid := by
  have hrows := r.rows.first_le_last
  have hcolumns := r.columns.first_le_last
  unfold OnGrid Position.OnGrid contains
  simp only [Bool.and_eq_true, Span.contains_iff]
  constructor
  · intro h p hp
    omega
  · intro h
    exact h r.bottomRight ⟨⟨hrows, Nat.le_refl _⟩, hcolumns, Nat.le_refl _⟩

/-- Regions without a common cell have no common line along one of the axes. -/
theorem disjoint_iff_apart : r.Disjoint s ↔ ∃ axis : Axis,
    (r.span axis).last < (s.span axis).first ∨ (s.span axis).last < (r.span axis).first := by
  have hexists {P : Axis → Prop} : (∃ axis, P axis) ↔ P .row ∨ P .column :=
    ⟨fun ⟨axis, h⟩ => by cases axis <;> simp [h], fun h => h.elim (⟨_, ·⟩) (⟨_, ·⟩)⟩
  rw [disjoint_iff_overlaps, hexists]
  unfold overlaps Span.overlaps span
  simp only [Bool.and_eq_false_iff, decide_eq_false_iff_not]
  omega

/-! ## Cutting -/

/-- The pieces around `cut`: whole rows above and below it, and the rest of its own rows. -/
inductive Around (r cut : Region) : Region → Prop
  | above {rows : Span} (h : r.rows.before? cut.rows = some rows) : Around r cut ⟨rows, r.columns⟩
  | below {rows : Span} (h : r.rows.after? cut.rows = some rows) : Around r cut ⟨rows, r.columns⟩
  | left {columns : Span} (h : r.columns.before? cut.columns = some columns) :
    Around r cut ⟨cut.rows, columns⟩
  | right {columns : Span} (h : r.columns.after? cut.columns = some columns) :
    Around r cut ⟨cut.rows, columns⟩

theorem mem_subtract_of_meet? (h : r.meet? s = some cut) :
    piece ∈ r.subtract s ↔ r.Around cut piece := by
  unfold subtract
  rw [h]
  simp only [List.mem_append, Option.mem_toList, Option.map_eq_some_iff]
  constructor
  · rintro (((⟨rows, hrows, rfl⟩ | ⟨rows, hrows, rfl⟩) | ⟨columns, hcolumns, rfl⟩) |
      ⟨columns, hcolumns, rfl⟩)
    · exact .above hrows
    · exact .below hrows
    · exact .left hcolumns
    · exact .right hcolumns
  · rintro (hrows | hrows | hcolumns | hcolumns)
    · exact .inl (.inl (.inl ⟨_, hrows, rfl⟩))
    · exact .inl (.inl (.inr ⟨_, hrows, rfl⟩))
    · exact .inl (.inr ⟨_, hcolumns, rfl⟩)
    · exact .inr ⟨_, hcolumns, rfl⟩

/-- Where a cell of `r` lies beside `cut`. -/
theorem exists_around_iff (hrows : r.rows.covers cut.rows = true)
    (hcolumns : r.columns.covers cut.columns = true) (p : Position) :
    (∃ piece, r.Around cut piece ∧ piece.contains p = true) ↔
      r.contains p = true ∧ cut.contains p = false := by
  have hcut : cut.contains p = false ↔ p.row < cut.rows.first ∨ cut.rows.last < p.row ∨
      p.column < cut.columns.first ∨ cut.columns.last < p.column := by
    simp only [contains, Span.contains, Bool.and_eq_false_iff, decide_eq_false_iff_not]
    omega
  have hr : r.contains p = true ↔
      r.rows.contains p.row = true ∧ r.columns.contains p.column = true := by
    simp [contains]
  rw [hcut, hr]
  constructor
  · rintro ⟨piece, h, hp⟩
    unfold contains at hp
    rw [Bool.and_eq_true] at hp
    cases h with
    | above h =>
      have hrow := (Span.contains_before? h hrows).mp hp.1
      exact ⟨⟨hrow.1, hp.2⟩, .inl hrow.2⟩
    | below h =>
      have hrow := (Span.contains_after? h hrows).mp hp.1
      exact ⟨⟨hrow.1, hp.2⟩, .inr (.inl hrow.2)⟩
    | left h =>
      have hcolumn := (Span.contains_before? h hcolumns).mp hp.2
      exact ⟨⟨Span.contains_of_covers hrows hp.1, hcolumn.1⟩, .inr (.inr (.inl hcolumn.2))⟩
    | right h =>
      have hcolumn := (Span.contains_after? h hcolumns).mp hp.2
      exact ⟨⟨Span.contains_of_covers hrows hp.1, hcolumn.1⟩, .inr (.inr (.inr hcolumn.2))⟩
  · rintro ⟨⟨hrow, hcolumn⟩, houtside⟩
    by_cases habove : p.row < cut.rows.first
    · obtain ⟨rows, h, hp⟩ := (Span.exists_before?_iff hrows).mpr ⟨hrow, habove⟩
      exact ⟨_, .above h, by simp [contains, hp, hcolumn]⟩
    by_cases hbelow : cut.rows.last < p.row
    · obtain ⟨rows, h, hp⟩ := (Span.exists_after?_iff hrows).mpr ⟨hrow, hbelow⟩
      exact ⟨_, .below h, by simp [contains, hp, hcolumn]⟩
    have hmiddle : cut.rows.contains p.row = true := by
      rw [Span.contains_iff]
      omega
    by_cases hleft : p.column < cut.columns.first
    · obtain ⟨columns, h, hp⟩ := (Span.exists_before?_iff hcolumns).mpr ⟨hcolumn, hleft⟩
      exact ⟨_, .left h, by simp [contains, hp, hmiddle]⟩
    · obtain ⟨columns, h, hp⟩ := (Span.exists_after?_iff hcolumns).mpr ⟨hcolumn, by omega⟩
      exact ⟨_, .right h, by simp [contains, hp, hmiddle]⟩

/-- The pieces hold the cells of `r` that are not in `s`. -/
theorem exists_mem_subtract_iff (r s : Region) (p : Position) :
    (∃ piece ∈ r.subtract s, piece.contains p = true) ↔
      r.contains p = true ∧ s.contains p = false := by
  cases hmeet : r.meet? s with
  | none =>
    have hdisjoint := meet?_eq_none.mp hmeet p
    unfold subtract
    rw [hmeet]
    simpa using hdisjoint
  | some cut =>
    obtain ⟨hrows, hcolumns⟩ := Bool.and_eq_true_iff.mp (covers_of_meet? hmeet).1
    have hcut := contains_of_meet? hmeet p
    simp only [mem_subtract_of_meet? hmeet, exists_around_iff hrows hcolumns]
    rw [hcut]
    cases r.contains p <;> simp

/-- No two pieces have a cell in common. -/
theorem subtract_disjoint (r s : Region) : (r.subtract s).Pairwise Disjoint := by
  unfold subtract
  cases hmeet : r.meet? s with
  | none => exact List.pairwise_singleton _ _
  | some cut =>
    obtain ⟨hrows, hcolumns⟩ := Bool.and_eq_true_iff.mp (covers_of_meet? hmeet).1
    have hone : ∀ o : Option Region, o.toList.Pairwise Disjoint := by
      intro o
      cases o <;> simp
    simp only [List.pairwise_append, List.mem_append, Option.mem_toList, Option.map_eq_some_iff]
    -- Pieces above and below the cut part from all others by their rows. Those at its sides have its
    -- own rows, and part by their columns.
    refine ⟨⟨⟨hone _, hone _, ?_⟩, hone _, ?_⟩, hone _, ?_⟩
    · rintro _ ⟨rows, habove, rfl⟩ _ ⟨rows', hbelow, rfl⟩
      exact disjoint_of_rows fun i hi => Span.not_after?_of_before? hrows habove hbelow hi
    · rintro _ (⟨rows, habove, rfl⟩ | ⟨rows, hbelow, rfl⟩) _ ⟨columns, -, rfl⟩
      · exact disjoint_of_rows fun i hi => Span.not_of_before? hrows habove hi
      · exact disjoint_of_rows fun i hi => Span.not_of_after? hrows hbelow hi
    · rintro _ ((⟨rows, habove, rfl⟩ | ⟨rows, hbelow, rfl⟩) | ⟨columns, hleft, rfl⟩)
        _ ⟨columns', hright, rfl⟩
      · exact disjoint_of_rows fun i hi => Span.not_of_before? hrows habove hi
      · exact disjoint_of_rows fun i hi => Span.not_of_after? hrows hbelow hi
      · exact disjoint_of_columns fun i hi => Span.not_after?_of_before? hcolumns hleft hright hi

/-! ## Joining -/

/-- A region that two others form holds their cells. -/
theorem contains_of_merged? (h : r.merged? s = some u) (p : Position) :
    u.contains p = true ↔ r.contains p = true ∨ s.contains p = true := by
  unfold merged? at h
  obtain ⟨hside, hu⟩ := Option.ite_none_right_eq_some.mp h
  cases hu
  obtain ⟨hcolumns, htouches⟩ | ⟨hrows, htouches⟩ := hside
  · simp only [contains, hull, ← hcolumns, Span.hull_self, Bool.and_eq_true,
      Span.contains_hull_iff htouches, or_and_right]
  · simp only [contains, hull, ← hrows, Span.hull_self, Bool.and_eq_true,
      Span.contains_hull_iff htouches, and_or_left]

theorem merged?_comm (r s : Region) : r.merged? s = s.merged? r := by
  unfold merged? hull
  rw [Span.touches_comm r.rows, Span.touches_comm r.columns, Span.hull_comm r.rows,
    Span.hull_comm r.columns]
  simp only [eq_comm]

end Region

end Spreadsheet
