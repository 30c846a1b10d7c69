import Spreadsheet.Proofs.Store.Extent
import Spreadsheet.Proofs.Store.Listing

/-! What a grid answers about its filled cells. The listing of a region, its block and the walks to
the nearest filled cell are each computed in a way of their own: by sorting, by looking at every
cell, along a line or from one line to the next. All of them are told here by the cells alone, so
that they cannot differ. -/

namespace Spreadsheet

variable {α : Type}

/-! ## Nearest filled places -/

/-- `found` is the first filled place from `start` on, in the direction that `before` says. -/
def Nearest (before : Nat → Nat → Prop) (f : Nat → Option α) (start : Nat)
    (found : Option (Nat × α)) : Prop :=
  match found with
  | some (j, a) => before start j ∧ f j = some a ∧
      ∀ k, before start k → before k j → k ≠ j → f k = none
  | none => ∀ k, before start k → f k = none

namespace Nearest

variable {before : Nat → Nat → Prop} {f : Nat → Option α} {start next : Nat}
  {found found' : Option (Nat × α)}

/-- Empty places can be passed over. -/
theorem skip (h : Nearest before f next found) (hnext : ∀ k, before next k → before start k)
    (hempty : ∀ k, before start k → before next k ∨ f k = none) : Nearest before f start found := by
  cases found with
  | none => exact fun k hk => (hempty k hk).elim (h k) id
  | some c =>
    obtain ⟨hstart, hc, hbetween⟩ := h
    exact ⟨hnext _ hstart, hc, fun k hk hkc hne =>
      (hempty k hk).elim (fun hk => hbetween k hk hkc hne) id⟩

theorem unique (total : ∀ i j, before i j ∨ before j i) (h : Nearest before f start found)
    (h' : Nearest before f start found') : found = found' := by
  cases found with
  | none =>
    cases found' with
    | none => rfl
    | some c' =>
      have hnone := h c'.1 h'.1
      rw [h'.2.1] at hnone
      cases hnone
  | some c =>
    cases found' with
    | none =>
      have hnone := h' c.1 h.1
      rw [h.2.1] at hnone
      cases hnone
    | some c' =>
      obtain ⟨hstart, hc, hbetween⟩ := h
      obtain ⟨hstart', hc', hbetween'⟩ := h'
      have hplace : c.1 = c'.1 := by
        by_contra hne
        obtain hle | hle := total c.1 c'.1
        · rw [hbetween' c.1 hstart hle hne] at hc
          cases hc
        · rw [hbetween c'.1 hstart' hle (Ne.symm hne)] at hc'
          cases hc'
      rw [hplace, hc'] at hc
      exact congrArg some (Prod.ext hplace (Option.some.inj hc).symm)

/-- In a list in order it is the first entry that is not in front of `start`. -/
theorem find? [DecidableRel before] {l : List (Nat × α)}
    (hl : l.Pairwise fun c d => ¬ before d.1 c.1) (hf : ∀ i a, (i, a) ∈ l ↔ f i = some a)
    (start : Nat) : Nearest before f start (l.find? fun c => before start c.1) := by
  cases hfind : l.find? fun c => before start c.1 with
  | none =>
    intro k hk
    refine Option.eq_none_iff_forall_ne_some.mpr fun a ha => ?_
    exact List.find?_eq_none.mp hfind (k, a) ((hf k a).mpr ha) (decide_eq_true hk)
  | some c =>
    obtain ⟨hstart, front, back, rfl, hfront⟩ := List.find?_eq_some_iff_append.mp hfind
    refine ⟨of_decide_eq_true hstart, (hf c.1 c.2).mp (by simp), fun k hk hkc hne => ?_⟩
    refine Option.eq_none_iff_forall_ne_some.mpr fun a ha => ?_
    obtain hmem | hmem := List.mem_append.mp ((hf k a).mpr ha)
    · have hnot := hfront (k, a) hmem
      simp [hk] at hnot
    · rcases List.mem_cons.mp hmem with rfl | hmem
      · exact hne rfl
      · exact (List.pairwise_cons.mp (List.pairwise_append.mp hl).2.1).1 (k, a) hmem hkc

end Nearest

/-! ## Walks -/

namespace Line

theorem next?_nearest (l : Line α) (i : Nat) : Nearest (· ≤ ·) l.get? i (l.next? i) :=
  Nearest.find? (l.toList_forward.imp fun h => Nat.not_le.mpr h) (fun _ _ => mem_toList) i

theorem previous?_nearest (l : Line α) (i : Nat) : Nearest (· ≥ ·) l.get? i (l.previous? i) :=
  Nearest.find? (List.pairwise_reverse.mpr (l.toList_forward.imp fun h => Nat.not_le.mpr h))
    (fun _ _ => List.mem_reverse.trans mem_toList) i

end Line

namespace Matrix

variable {m : Matrix α} {axis : Axis} {index cursor : Nat}

/-- Every filled cell is on the grid. -/
def OnGrid (m : Matrix α) : Prop := ∀ p a, m.get? p = some a → p.OnGrid

variable {line : Nat} {cells : Line α}

theorem slot?_eq_none_of_line (h : m.lines.get? line = none) : m.slot? ⟨line, index⟩ = none := by
  unfold slot?
  rw [h]
  rfl

theorem slot?_of_line (h : m.lines.get? line = some cells) :
    m.slot? ⟨line, index⟩ = cells.get? index := by
  unfold slot?
  rw [h]
  rfl

/-- There is nothing in front of the next line in use. -/
theorem slot?_of_next? (index : Nat) (h : m.lines.next? cursor = some (line, cells)) :
    cursor ≤ line ∧ m.slot? ⟨line, index⟩ = cells.get? index ∧
      ∀ k, cursor ≤ k → k < line → m.slot? ⟨k, index⟩ = none := by
  have hfound := m.lines.next?_nearest cursor
  rw [h] at hfound
  obtain ⟨hle, hcells, hfront⟩ := hfound
  exact ⟨hle, slot?_of_line hcells, fun k hk hlt =>
    slot?_eq_none_of_line (hfront k hk (Nat.le_of_lt hlt) (Nat.ne_of_lt hlt))⟩

theorem slot?_of_previous? (index : Nat) (h : m.lines.previous? cursor = some (line, cells)) :
    line ≤ cursor ∧ m.slot? ⟨line, index⟩ = cells.get? index ∧
      ∀ k, k ≤ cursor → line < k → m.slot? ⟨k, index⟩ = none := by
  have hfound := m.lines.previous?_nearest cursor
  rw [h] at hfound
  obtain ⟨hle, hcells, hbehind⟩ := hfound
  exact ⟨hle, slot?_of_line hcells, fun k hk hlt =>
    slot?_eq_none_of_line (hbehind k hk (Nat.le_of_lt hlt) (Nat.ne_of_gt hlt))⟩

theorem slot?_eq_none_of_endless_lt (stored : m.OnGrid) (h : endless < line) :
    m.slot? ⟨line, index⟩ = none := by
  refine Option.eq_none_iff_forall_ne_some.mpr fun a ha => ?_
  have hget : m.get? ((Slot.mk line index).position m.axis) = some a := by
    rwa [get?, Slot.ofPosition_position]
  have hle := (stored _ _ hget).index_le m.axis
  rw [Slot.index_position] at hle
  exact absurd hle (Nat.not_le.mpr h)

/-- The walk from line to line. What has been passed over is empty in every case: the lines in front
of the next one in use, and that one itself if the walk goes on or ends there. -/
theorem nextAcross?_nearest (stored : m.OnGrid) (index cursor : Nat) :
    Nearest (· ≤ ·) (fun line => m.slot? ⟨line, index⟩) cursor (m.nextAcross? index cursor) := by
  fun_induction m.nextAcross? index cursor with
  | case1 cursor hnone =>
    have hempty := m.lines.next?_nearest cursor
    rw [hnone] at hempty
    exact fun k hk => slot?_eq_none_of_line (hempty k hk)
  | case2 cursor line cells hline a ha =>
    obtain ⟨hle, hcell, hfront⟩ := slot?_of_next? index hline
    exact ⟨hle, hcell.trans ha, fun k hk hkl hne => hfront k hk (Nat.lt_of_le_of_ne hkl hne)⟩
  | case3 cursor line cells hline hempty hlast ih =>
    obtain ⟨hle, hcell, hfront⟩ := slot?_of_next? index hline
    refine ih.skip (fun k hk => by omega) fun k hk => ?_
    obtain hlt | rfl | hlt := Nat.lt_trichotomy k line
    · exact .inr (hfront k hk hlt)
    · exact .inr (hcell.trans hempty)
    · exact .inl hlt
  | case4 cursor line cells hline hempty hlast =>
    obtain ⟨hle, hcell, hfront⟩ := slot?_of_next? index hline
    intro k hk
    obtain hlt | rfl | hlt := Nat.lt_trichotomy k line
    · exact hfront k hk hlt
    · exact hcell.trans hempty
    · exact slot?_eq_none_of_endless_lt stored (by omega)

theorem previousAcross?_nearest (m : Matrix α) (index cursor : Nat) :
    Nearest (· ≥ ·) (fun line => m.slot? ⟨line, index⟩) cursor
      (m.previousAcross? index cursor) := by
  fun_induction m.previousAcross? index cursor with
  | case1 cursor hnone =>
    have hempty := m.lines.previous?_nearest cursor
    rw [hnone] at hempty
    exact fun k hk => slot?_eq_none_of_line (hempty k hk)
  | case2 cursor line cells hline a ha =>
    obtain ⟨hle, hcell, hbehind⟩ := slot?_of_previous? index hline
    exact ⟨hle, hcell.trans ha, fun k hk hkl hne =>
      hbehind k hk (Nat.lt_of_le_of_ne hkl (Ne.symm hne))⟩
  | case3 cursor line cells hline hempty hfirst ih =>
    obtain ⟨hle, hcell, hbehind⟩ := slot?_of_previous? index hline
    refine ih.skip (fun k hk => by omega) fun k hk => ?_
    obtain hlt | rfl | hlt := Nat.lt_trichotomy k line
    · exact .inl (by omega)
    · exact .inr (hcell.trans hempty)
    · exact .inr (hbehind k hk hlt)
  | case4 cursor line cells hline hempty hfirst =>
    obtain ⟨hle, hcell, hbehind⟩ := slot?_of_previous? index hline
    intro k hk
    obtain hlt | rfl | hlt := Nat.lt_trichotomy k line
    · omega
    · exact hcell.trans hempty
    · exact hbehind k hk hlt

/-- A cell of a row or column as it is found along a line. -/
theorem get?_along (i j : Nat) : m.get? ((Slot.mk i j).position m.axis) = m.slot? ⟨i, j⟩ := by
  unfold get?
  rw [Slot.ofPosition_position]

/-- A cell of a row or column as it is found from line to line. -/
theorem get?_across (h : axis ≠ m.axis) (i j : Nat) :
    m.get? ((Slot.mk i j).position axis) = m.slot? ⟨j, i⟩ := by
  rw [Axis.eq_other h]
  unfold get? Slot.ofPosition
  cases m.axis <;> rfl

theorem next?_nearest (stored : m.OnGrid) (axis : Axis) (i start : Nat) :
    Nearest (· ≤ ·) (fun j => m.get? ((Slot.mk i j).position axis)) start
      (m.next? axis i start) := by
  unfold next?
  split
  · next haxis =>
    simp only [haxis, get?_along]
    cases hline : m.lines.get? i with
    | none => exact fun k _ => slot?_eq_none_of_line hline
    | some line =>
      simp only [slot?_of_line hline]
      exact line.next?_nearest start
  · next haxis =>
    simp only [get?_across haxis]
    exact nextAcross?_nearest stored i start

theorem previous?_nearest (m : Matrix α) (axis : Axis) (i start : Nat) :
    Nearest (· ≥ ·) (fun j => m.get? ((Slot.mk i j).position axis)) start
      (m.previous? axis i start) := by
  unfold previous?
  split
  · next haxis =>
    simp only [haxis, get?_along]
    cases hline : m.lines.get? i with
    | none => exact fun k _ => slot?_eq_none_of_line hline
    | some line =>
      simp only [slot?_of_line hline]
      exact line.previous?_nearest start
  · next haxis =>
    simp only [get?_across haxis]
    exact m.previousAcross?_nearest i start

/-! ## Blocks -/

end Matrix

/-- The cells of a region row by row, each row from left to right. -/
def Region.positions (r : Region) : List Position :=
  (Matrix.indices r.rows).flatMap fun row =>
    (Matrix.indices r.columns).map fun column => ⟨row, column⟩

theorem Region.mem_positions {r : Region} {p : Position} :
    p ∈ r.positions ↔ r.contains p = true := by
  unfold positions contains
  simp only [List.mem_flatMap, List.mem_map, Matrix.mem_indices, Bool.and_eq_true]
  constructor
  · rintro ⟨row, hrow, column, hcolumn, rfl⟩
    exact ⟨hrow, hcolumn⟩
  · rintro ⟨hrow, hcolumn⟩
    exact ⟨p.row, hrow, p.column, hcolumn, rfl⟩

theorem Matrix.indices_forward (s : Span) : (indices s).Pairwise (· < ·) := by
  unfold indices
  exact List.pairwise_map.mpr (List.pairwise_lt_range.imp fun h => Nat.add_lt_add_left h _)

theorem Region.positions_forward (r : Region) :
    r.positions.Pairwise fun p q => compare p q = .lt := by
  refine List.pairwise_flatMap.mpr ⟨fun row _ => ?_, ?_⟩
  · refine List.pairwise_map.mpr ((Matrix.indices_forward r.columns).imp fun h => ?_)
    exact Position.compare_eq_lt.mpr (.inr ⟨rfl, h⟩)
  · refine (Matrix.indices_forward r.rows).imp fun h p hp q hq => ?_
    obtain ⟨column, -, rfl⟩ := List.mem_map.mp hp
    obtain ⟨column', -, rfl⟩ := List.mem_map.mp hq
    exact Position.compare_eq_lt.mpr (.inl h)

namespace Matrix

variable {m : Matrix α} {r c : Region}

/-- A region that has a filled cell still has it when it is cut at the last line in use. -/
theorem exists_clipped? {p : Position} (hfilled : m.isFilled p = true)
    (hp : r.contains p = true) : ∃ c, m.clipped? r = some c ∧ c.contains p = true := by
  unfold clipped?
  by_cases hbounded : r.isBounded = true
  · exact ⟨r, if_pos hbounded, hp⟩
  rw [if_neg hbounded]
  cases hused : m.used? with
  | none =>
    rw [used?_eq_none_iff.mp hused p] at hfilled
    cases hfilled
  | some used =>
    have hpu := ((covers_used_iff hused).mp used.covers_self).1 p hfilled
    unfold Region.contains Span.contains at hp hpu
    simp only [Bool.and_eq_true, decide_eq_true_eq] at hp hpu
    have hoverlaps : r.overlaps used = true := by
      unfold Region.overlaps Span.overlaps
      simp only [Bool.and_eq_true, decide_eq_true_eq]
      omega
    have hbottom : p.row ≤ if r.bottom = endless then used.bottom else r.bottom := by
      split
      · exact hpu.1.2
      · exact hp.1.2
    have hright : p.column ≤ if r.right = endless then used.right else r.right := by
      split
      · exact hpu.2.2
      · exact hp.2.2
    refine ⟨_, dif_pos ⟨hoverlaps, hp.1.1.trans hbottom, hp.2.1.trans hright⟩, ?_⟩
    unfold Region.contains Span.contains
    simp only [Bool.and_eq_true, decide_eq_true_eq]
    exact ⟨⟨hp.1.1, hbottom⟩, hp.2.1, hright⟩

/-- The filled cells that are met on the way through a region. -/
def shown (m : Matrix α) (r : Region) : List (Position × α) :=
  r.positions.filterMap fun p => (m.get? p).map fun a => (p, a)

theorem mem_shown {p : Position} {a : α} :
    (p, a) ∈ m.shown r ↔ m.get? p = some a ∧ r.contains p = true := by
  unfold shown
  simp only [List.mem_filterMap, Option.map_eq_some_iff, Prod.mk.injEq, Region.mem_positions]
  constructor
  · rintro ⟨p', hp', a', ha', rfl, rfl⟩
    exact ⟨ha', hp'⟩
  · rintro ⟨ha, hp⟩
    exact ⟨p, hp, a, ha, rfl, rfl⟩

theorem shown_forward : (m.shown r).Pairwise fun a b => compare a.1 b.1 = .lt := by
  refine r.positions_forward.filterMap _ fun p q hpq c hc d hd => ?_
  obtain ⟨a, -, rfl⟩ := Option.map_eq_some_iff.mp hc
  obtain ⟨b, -, rfl⟩ := Option.map_eq_some_iff.mp hd
  exact hpq

theorem block_values (h : m.clipped? r = some c) :
    (m.block r).flatten.filterMap id = (m.shown c).map (·.2) := by
  have hvalues : (m.shown c).map (·.2) = c.positions.filterMap m.get? := by
    unfold shown
    rw [List.map_filterMap]
    refine List.filterMap_congr fun p _ => ?_
    rw [Option.map_map]
    exact Option.map_id'
  rw [hvalues]
  unfold block Region.positions
  rw [h]
  dsimp only
  rw [List.filterMap_flatMap, List.filterMap_flatten, List.flatMap_def, List.map_map]
  simp only [Function.comp_def, List.filterMap_map, id]

/-- The block and the listing of a region have the same values, in the same order. -/
theorem block_values_eq_cellsIn (stored : m.OnGrid) (r : Region) :
    (m.block r).flatten.filterMap id = (m.cellsIn r).map (·.2) := by
  cases hclip : m.clipped? r with
  | none =>
    have hempty : m.cellsIn r = [] := by
      refine List.eq_nil_iff_forall_not_mem.mpr fun ⟨p, a⟩ hmem => ?_
      obtain ⟨hget, hp⟩ := mem_cellsIn.mp hmem
      obtain ⟨c, hc, -⟩ := exists_clipped? (m := m) (by rw [isFilled, hget]; rfl) hp
      rw [hclip] at hc
      cases hc
    unfold block
    rw [hclip, hempty]
    rfl
  | some c =>
    -- Both lists go forward, so it is enough that they have the same cells: cutting the region
    -- takes only empty ones away.
    have hsame : m.shown c = m.cellsIn r := by
      refine eq_of_forward shown_forward (cellsIn_forward m r) fun ⟨p, a⟩ => ?_
      rw [mem_shown, mem_cellsIn]
      refine and_congr_right fun hget => ⟨fun hp => ?_, fun hp => ?_⟩
      · have hgrid := stored p a hget
        exact contains_of_clipped? hclip hp hgrid.1 hgrid.2
      · obtain ⟨c', hc', hp'⟩ := exists_clipped? (m := m) (by rw [isFilled, hget]; rfl) hp
        rw [hclip] at hc'
        cases hc'
        exact hp'
    rw [block_values hclip, hsame]

end Matrix

/-! ## Changes -/

/-- A change of what a grid holds. -/
inductive Change (α : Type) where
  | set (p : Position) (a : α)
  | remove (p : Position)
  | removeRegion (r : Region)
  | edit (e : Edit)

namespace Matrix

variable {α : Type} {m n : Matrix α}

def apply (m : Matrix α) : Change α → Matrix α
  | .set p a => m.set p a
  | .remove p => m.remove p
  | .removeRegion r => m.removeRegion r
  | .edit e => m.edited e

def after (m : Matrix α) (cs : List (Change α)) : Matrix α := cs.foldl apply m

@[simp] theorem axis_apply (m : Matrix α) (c : Change α) : (m.apply c).axis = m.axis := by
  cases c with
  | set p a => exact m.axis_set p a
  | remove p => exact m.axis_remove p
  | removeRegion r => rfl
  | edit e => rfl

@[simp] theorem axis_after (m : Matrix α) (cs : List (Change α)) :
    (m.after cs).axis = m.axis := by
  induction cs generalizing m with
  | nil => rfl
  | cons c cs ih => exact (ih (m.apply c)).trans (m.axis_apply c)

/-! ## Grids as they come about -/

/-- A change fills only a cell of the grid. -/
def FillsOnGrid : Change α → Prop
  | .set p _ => p.OnGrid
  | _ => True

instance : DecidablePred (@FillsOnGrid α) := fun change =>
  match change with
  | .set p _ => inferInstanceAs (Decidable p.OnGrid)
  | .remove _ | .removeRegion _ | .edit _ => isTrue trivial

theorem OnGrid.apply (h : m.OnGrid) {change : Change α} (hchange : FillsOnGrid change) :
    (m.apply change).OnGrid := by
  intro q a hq
  cases change with
  | set p b =>
    rw [Matrix.apply, get?_set] at hq
    split at hq
    · next heq => exact heq ▸ hchange
    · exact h q a hq
  | remove p =>
    rw [Matrix.apply, get?_remove] at hq
    split at hq
    · cases hq
    · exact h q a hq
  | removeRegion r =>
    rw [Matrix.apply, get?_removeRegion] at hq
    split at hq
    · cases hq
    · exact h q a hq
  | edit e =>
    obtain ⟨p, hp, hpq⟩ := get?_edited.mp hq
    exact Edit.position?_onGrid hpq (h p a hp)

theorem OnGrid.after (h : m.OnGrid) {changes : List (Change α)}
    (hchanges : ∀ change ∈ changes, FillsOnGrid change) : (m.after changes).OnGrid := by
  induction changes generalizing m with
  | nil => exact h
  | cons change changes ih =>
    obtain ⟨hchange, hchanges⟩ := List.forall_mem_cons.mp hchanges
    exact ih (h.apply hchange) hchanges

theorem onGrid_empty (axis : Axis) : (empty axis : Matrix α).OnGrid := by
  intro p a h
  rw [get?_empty] at h
  cases h

/-- Whichever way the lines run: the listing of a region has its filled cells, each once, row by row
and from left to right; its block has the same values in the same order; and a walk in a row or
column ends at the filled cell nearest to where it starts, unless there is none. -/
theorem queries_exact (stored : m.OnGrid) :
    (∀ r, (∀ p a, (p, a) ∈ m.cellsIn r ↔ m.get? p = some a ∧ r.contains p = true) ∧
      ((m.cellsIn r).map (·.1)).Pairwise (fun p q =>
        p.row < q.row ∨ p.row = q.row ∧ p.column < q.column) ∧
      (m.block r).flatten.filterMap id = (m.cellsIn r).map (·.2)) ∧
    ∀ axis i start,
      Nearest (· ≤ ·) (fun j => m.get? ((Slot.mk i j).position axis)) start
        (m.next? axis i start) ∧
      Nearest (· ≥ ·) (fun j => m.get? ((Slot.mk i j).position axis)) start
        (m.previous? axis i start) := by
  refine ⟨fun r => ⟨fun p a => mem_cellsIn, ?_, block_values_eq_cellsIn stored r⟩,
    fun axis i start => ⟨next?_nearest stored axis i start, m.previous?_nearest axis i start⟩⟩
  exact List.pairwise_map.mpr ((cellsIn_forward m r).imp Position.compare_eq_lt.mp)

/-- A row across columns as lines, one of which an insertion has emptied. -/
theorem queries_exact_across_emptied_line :
    let changes : List (Change Nat) := [.set ⟨4294967290, 1⟩ 10, .set ⟨1, 0⟩ 20, .set ⟨1, 3⟩ 30,
      .edit (.insert .row 2 6)]
    let m := (empty .column).after changes
    m.OnGrid ∧ (m.block .all).flatten.filterMap id = [20, 30] ∧
      m.next? .row 1 1 = some (3, 30) ∧ m.previous? .row 1 2 = some (0, 20) := by
  intro changes m
  have stored : m.OnGrid := (onGrid_empty .column).after (by decide)
  have hempty (k : Nat) (hk : k = 1 ∨ k = 2) : m.get? ⟨1, k⟩ = none := by
    obtain rfl | rfl := hk <;> decide +kernel
  obtain ⟨hregions, hwalks⟩ := queries_exact stored
  refine ⟨stored, (hregions .all).2.2.trans (by decide +kernel), ?_, ?_⟩
  · exact (hwalks .row 1 1).1.unique Nat.le_total
      ⟨by decide, by decide +kernel, fun k _ _ _ => hempty k (by omega)⟩
  · exact (hwalks .row 1 2).2.unique (fun j k => Nat.le_total k j)
      ⟨by decide, by decide +kernel, fun k _ _ _ => hempty k (by omega)⟩

end Matrix

end Spreadsheet
