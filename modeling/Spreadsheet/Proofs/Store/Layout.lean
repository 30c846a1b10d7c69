import Spreadsheet.Proofs.Store.Queries

/-! The two ways to store a grid, by rows and by columns, through any changes. What a cell holds,
and with it every listing, every walk and the count, never depends on which one it is. The part in
use can: an insertion across the lines of a store leaves a line in use that it empties, and the
lines of the two stores run across each other. -/

namespace Spreadsheet

namespace Matrix

variable {α : Type} {m n : Matrix α}

/-! ## Grids that hold the same -/

/-- Each cell holds the same in both grids. -/
def SameCells (m n : Matrix α) : Prop := ∀ p, m.get? p = n.get? p

theorem SameCells.apply (h : m.SameCells n) (c : Change α) :
    (m.apply c).SameCells (n.apply c) := by
  intro q
  cases c with
  | set p a => exact (get?_set m p q a).trans (h q ▸ (get?_set n p q a).symm)
  | remove p => exact (get?_remove m p q).trans (h q ▸ (get?_remove n p q).symm)
  | removeRegion r =>
    exact (get?_removeRegion m r q).trans (h q ▸ (get?_removeRegion n r q).symm)
  | edit e =>
    refine Option.ext fun a => ?_
    show (m.edited e).get? q = some a ↔ (n.edited e).get? q = some a
    rw [get?_edited, get?_edited]
    exact exists_congr fun p => and_congr_left' (by rw [h p])

theorem SameCells.after (h : m.SameCells n) (cs : List (Change α)) :
    (m.after cs).SameCells (n.after cs) := by
  induction cs generalizing m n with
  | nil => exact h
  | cons c cs ih => exact ih (h.apply c)

theorem SameCells.isFilled (h : m.SameCells n) (p : Position) : m.isFilled p = n.isFilled p := by
  unfold Matrix.isFilled
  rw [h p]

theorem SameCells.size (h : m.SameCells n) : m.size = n.size := by
  rw [size_eq_card, size_eq_card]
  exact Nat.card_congr (Equiv.subtypeEquivRight fun p => by rw [h.isFilled p])

theorem SameCells.cellsIn (h : m.SameCells n) (r : Region) : m.cellsIn r = n.cellsIn r := by
  refine eq_of_forward (cellsIn_forward m r) (cellsIn_forward n r) fun ⟨p, a⟩ => ?_
  rw [mem_cellsIn, mem_cellsIn, h p]

/-- Where nothing is off the grid, the walks to the next cell end alike. -/
theorem SameCells.next? (h : m.SameCells n) (stored : m.OnGrid) (axis : Axis) (i start : Nat) :
    m.next? axis i start = n.next? axis i start := by
  have stored' : n.OnGrid := fun p a ha => stored p a ((h p).trans ha)
  have hm := next?_nearest stored axis i start
  simp only [h _] at hm
  exact hm.unique Nat.le_total (next?_nearest stored' axis i start)

theorem SameCells.previous? (h : m.SameCells n) (axis : Axis) (i start : Nat) :
    m.previous? axis i start = n.previous? axis i start := by
  have hm := m.previous?_nearest axis i start
  simp only [h _] at hm
  exact hm.unique (fun j k => Nat.le_total k j) (n.previous?_nearest axis i start)

theorem SameCells.symm (h : m.SameCells n) : n.SameCells m := fun p => (h p).symm

theorem IsExtent.of_sameCells {r : Region} (hr : m.IsExtent r) (h : m.SameCells n) :
    n.IsExtent r := by
  obtain ⟨hp, hc, hl⟩ := hr
  simp only [h.isFilled] at hp hc hl
  exact ⟨hp, hc, hl⟩

/-- Blocks are the same wherever the two grids cut a region alike. -/
theorem SameCells.block (h : m.SameCells n) {r : Region} (hc : m.clipped? r = n.clipped? r) :
    m.block r = n.block r := by
  unfold Matrix.block
  rw [hc]
  simp only [h _]

theorem clipped?_congr (h : m.used? = n.used?) (r : Region) : m.clipped? r = n.clipped? r := by
  unfold clipped?
  rw [h]

/-! ## The part in use -/

/-- Across the lines the part in use reaches no further than the cells. -/
theorem IsExtent.covers_across {r u : Region} (hr : m.IsExtent r) (hu : m.used? = some u) :
    (r.span m.axis.other).covers (u.span m.axis.other) = true := by
  have hwide : (r.withSpan m.axis (u.span m.axis)).covers u = true := by
    have hself := (covers_used_iff hu).mp u.covers_self
    refine (covers_used_iff hu).mpr ⟨fun p hp => ?_, fun i hi => ?_⟩
    · rw [Region.contains_iff _ p m.axis, Region.span_withSpan, Region.span_withSpan_other]
      exact ⟨((Region.contains_iff u p m.axis).mp (hself.1 p hp)).1,
        ((Region.contains_iff r p m.axis).mp (hr.contains p hp)).2⟩
    · rw [Region.span_withSpan]
      exact hself.2 i hi
  have hspans := (Region.covers_iff_span _ _ m.axis).mp hwide
  rw [Region.span_withSpan_other] at hspans
  exact hspans.2

/-- One store stretches rows and the other columns, so they agree only where neither stretches. -/
theorem SameCells.used?_eq_iff (h : m.SameCells n) (hm : m.axis = .row) (hn : n.axis = .column) :
    m.used? = n.used? ↔ m.IsTight ∧ n.IsTight := by
  constructor
  · intro hused
    have hwithin {r : Region} (hr : m.IsExtent r) {u : Region} (hu : m.used? = some u) :
        r.covers u = true := by
      have hrows := (hr.of_sameCells h).covers_across (hused.symm.trans hu)
      have hcolumns := hr.covers_across hu
      rw [hn] at hrows
      rw [hm] at hcolumns
      exact (Region.covers_iff_span r u .row).mpr ⟨hrows, hcolumns⟩
    constructor
    · intro r hr i hi
      obtain ⟨p, hp⟩ := hr.nonempty
      obtain ⟨u, hu⟩ := exists_used?_of_isFilled hp
      exact ((covers_used_iff hu).mp (hwithin hr hu)).2 i hi
    · intro r hr i hi
      obtain ⟨p, hp⟩ := hr.nonempty
      obtain ⟨u, hu⟩ := exists_used?_of_isFilled hp
      exact ((covers_used_iff hu).mp (hwithin (hr.of_sameCells h.symm) (hused.trans hu))).2 i hi
  · rintro ⟨hmt, hnt⟩
    refine Option.ext fun r => ?_
    rw [isTight_iff.mp hmt, isTight_iff.mp hnt]
    exact ⟨fun hr => hr.of_sameCells h, fun hr => hr.of_sameCells h.symm⟩

theorem isTight_of_vacant_eq_empty (h : m.vacant = ∅) : m.IsTight := by
  intro r _ i hi
  rw [h] at hi
  exact absurd hi (Set.notMem_empty i)

/-! ## Vacant lines -/

/-- A line is vacant if it is in use and has no filled cell. -/
theorem mem_vacant_iff {i : Nat} : i ∈ m.vacant ↔
    (m.lines.get? i).isSome ∧ ¬ ∃ p, m.isFilled p = true ∧ p.index m.axis = i := by
  constructor
  · intro hi
    refine ⟨Option.isSome_iff_exists.mpr ⟨_, hi⟩, ?_⟩
    rintro ⟨p, hp, rfl⟩
    obtain ⟨line, a, hline, hcell⟩ := exists_line_of_isFilled hp
    exact Line.ne_empty_of_get? (Line.mem_toList.mp hcell)
      (Option.some.inj ((Line.mem_toList.mp hline).symm.trans hi))
  · rintro ⟨hi, hnone⟩
    obtain ⟨line, hline⟩ := Option.isSome_iff_exists.mp hi
    exact (vacant_or_isFilled (Line.mem_toList.mpr hline)).resolve_right hnone

/-- An insertion across the lines takes none out of use, so those are vacant that it empties. -/
theorem mem_vacant_insert {axis : Axis} (h : axis ≠ m.axis) {start count i : Nat} :
    let e : Edit := .insert axis start count
    i ∈ (m.edited e).vacant ↔
      (i ∈ m.vacant ∨ ∃ p, m.isFilled p = true ∧ p.index m.axis = i) ∧
        ¬ ∃ q, (m.edited e).isFilled q = true ∧ q.index m.axis = i := by
  intro e
  have hlines : (m.edited e).lines.get? i = (m.lines.get? i).map (·.edited e) :=
    Option.ext fun line => (lines_edited_across (e := e) h i line).trans
      (and_iff_left fun he => Edit.noConfusion he)
  rw [mem_vacant_iff, hlines, Option.isSome_map]
  refine and_congr_left' ⟨fun hi => ?_, fun hi => ?_⟩
  · obtain ⟨line, hline⟩ := Option.isSome_iff_exists.mp hi
    exact vacant_or_isFilled (Line.mem_toList.mpr hline)
  · obtain hi | ⟨p, hp, rfl⟩ := hi
    · exact Option.isSome_iff_exists.mpr ⟨_, hi⟩
    · obtain ⟨line, a, hline, -⟩ := exists_line_of_isFilled hp
      exact Option.isSome_iff_exists.mpr ⟨line, Line.mem_toList.mp hline⟩

/-- An edit of whole lines moves the vacant ones as it moves the others. -/
theorem vacant_edited_along {e : Edit} (h : e.axis = m.axis) :
    (m.edited e).vacant = {j | ∃ i ∈ m.vacant, e.index? i = some j} := by
  ext j
  show (m.edited e).lines.get? j = some .empty ↔ _
  rw [lines_edited_along h, get?_lineEdited]
  exact Iff.rfl

/-- A removal across the lines ends the use of all that are empty then. -/
theorem vacant_remove_across {axis : Axis} (h : axis ≠ m.axis) (start count : Nat) :
    (m.edited (.remove axis start count)).vacant = ∅ := by
  refine Set.eq_empty_iff_forall_notMem.mpr fun i hi => ?_
  have hline := (lines_edited_across (e := .remove axis start count) h i _).mp hi
  exact absurd (Line.isEmpty_iff.mpr rfl) (Bool.eq_false_iff.mp (hline.2 rfl))

/-- Every line across an insertion that has cells keeps one of them on the grid. -/
def SparesLines (m : Matrix α) : Change α → Prop
  | .edit (.insert axis start count) => ∀ p, m.isFilled p = true →
      ∃ q, m.isFilled q = true ∧ q.index axis.other = p.index axis.other ∧
        (Edit.opened? start count (q.index axis)).isSome
  | _ => True

/-- No insertion among these changes empties a line. -/
def SparesAllLines : Matrix α → List (Change α) → Prop
  | _, [] => True
  | m, c :: cs => m.SparesLines c ∧ (m.apply c).SparesAllLines cs

theorem vacant_insert {axis : Axis} (haxis : axis ≠ m.axis) {start count : Nat}
    (h : m.vacant = ∅) (hspares : m.SparesLines (.edit (.insert axis start count))) :
    (m.edited (.insert axis start count)).vacant = ∅ := by
  have hother : axis.other = m.axis := (Axis.eq_other (Ne.symm haxis)).symm
  refine Set.eq_empty_iff_forall_notMem.mpr fun i hi => ?_
  obtain ⟨hi | ⟨p, hp, rfl⟩, hnone⟩ := (mem_vacant_insert haxis).mp hi
  · rw [h] at hi
    exact Set.notMem_empty i hi
  · obtain ⟨q, hq, hline, hstays⟩ := hspares p hp
    have hsome := (Edit.position?_isSome (.insert axis start count) q).trans hstays
    obtain ⟨q', hq'⟩ := Option.isSome_iff_exists.mp hsome
    obtain ⟨a, ha⟩ := Option.isSome_iff_exists.mp hq
    refine hnone ⟨q', Option.isSome_iff_exists.mpr ⟨a, get?_edited.mpr ⟨q, ha, hq'⟩⟩, ?_⟩
    rw [hother] at hline
    rw [← hline, ← hother]
    exact (Edit.position?_eq_some.mp hq').2.symm

theorem vacant_apply (h : m.vacant = ∅) {c : Change α} (hc : m.SparesLines c) :
    (m.apply c).vacant = ∅ := by
  cases c with
  | set p a => rw [apply, vacant_set, h, Set.empty_sdiff]
  | remove p => rw [apply, vacant_remove, h, Set.empty_sdiff]
  | removeRegion r =>
    rw [apply, vacant_removeRegion, h]
    exact Set.sep_empty _
  | edit e =>
    by_cases halong : e.axis = m.axis
    · rw [apply, vacant_edited_along halong, h]
      exact Set.eq_empty_iff_forall_notMem.mpr fun j hj => Set.notMem_empty _ hj.choose_spec.1
    · cases e with
      | insert axis start count => exact vacant_insert halong h hc
      | remove axis start count => exact vacant_remove_across halong start count

theorem vacant_after (h : m.vacant = ∅) {cs : List (Change α)} (hcs : m.SparesAllLines cs) :
    (m.after cs).vacant = ∅ := by
  induction cs generalizing m with
  | nil => exact h
  | cons c cs ih => exact ih (vacant_apply h hcs.1) hcs.2

theorem SameCells.sparesLines (h : m.SameCells n) {c : Change α} (hc : m.SparesLines c) :
    n.SparesLines c := by
  cases c with
  | edit e =>
    cases e with
    | insert axis start count => simpa only [SparesLines, h.isFilled] using hc
    | remove axis start count => trivial
  | set p a => trivial
  | remove p => trivial
  | removeRegion r => trivial

theorem SameCells.sparesAllLines (h : m.SameCells n) {cs : List (Change α)}
    (hcs : m.SparesAllLines cs) : n.SparesAllLines cs := by
  induction cs generalizing m n with
  | nil => trivial
  | cons c cs ih => exact ⟨h.sparesLines hcs.1, ih (h.apply c) hcs.2⟩

/-- The two stores after the same changes tell the same of every cell, every listing, every walk to
the last or next filled cell and every bounded block, and the count that each keeps is the number of
filled cells; only the walks onward take it that no cell was filled off the grid. They agree on the
part in use, and with it on all blocks, exactly while neither of them has a vacant line outside of
the region around the filled cells; that region is then the part in use. So it is for as long as no
insertion empties a line across it. -/
theorem axis_unobservable (cs : List (Change α)) :
    let m := (empty .row).after cs
    let n := (empty .column).after cs
    (∀ p, m.get? p = n.get? p) ∧
    (m.size = Nat.card {p // m.isFilled p = true} ∧
      n.size = Nat.card {p // n.isFilled p = true} ∧ m.size = n.size) ∧
    (∀ r, m.cellsIn r = n.cellsIn r) ∧
    ((∀ axis i start, m.previous? axis i start = n.previous? axis i start) ∧
      ((∀ c ∈ cs, FillsOnGrid c) →
        ∀ axis i start, m.next? axis i start = n.next? axis i start)) ∧
    (∀ r, r.isBounded = true → m.clipped? r = n.clipped? r ∧ m.block r = n.block r) ∧
    ((m.used? = none ↔ ∀ p, m.isFilled p = false) ∧
      (n.used? = none ↔ ∀ p, n.isFilled p = false)) ∧
    (m.used? = n.used? ↔ m.IsTight ∧ n.IsTight) ∧
    (m.used? = n.used? → (∀ r, m.used? = some r ↔ m.IsExtent r) ∧
      ∀ r, m.clipped? r = n.clipped? r ∧ m.block r = n.block r) ∧
    ((empty .row).SparesAllLines cs → m.used? = n.used?) := by
  intro m n
  have hstart : (empty .row : Matrix α).SameCells (empty .column) := fun p => by
    rw [get?_empty, get?_empty]
  have hsame : m.SameCells n := hstart.after cs
  have hused : m.used? = n.used? ↔ m.IsTight ∧ n.IsTight :=
    hsame.used?_eq_iff (axis_after _ cs) (axis_after _ cs)
  refine ⟨hsame, ⟨size_eq_card m, size_eq_card n, hsame.size⟩, hsame.cellsIn,
    ⟨hsame.previous?, fun hcs => hsame.next? ((onGrid_empty .row).after hcs)⟩, fun r hr => ?_,
    ⟨used?_eq_none_iff, used?_eq_none_iff⟩, hused, fun heq => ⟨?_, fun r => ?_⟩,
    fun hspares => ?_⟩
  · have hclip : m.clipped? r = n.clipped? r := by
      rw [clipped?_of_isBounded hr, clipped?_of_isBounded hr]
    exact ⟨hclip, hsame.block hclip⟩
  · exact isTight_iff.mp (hused.mp heq).1
  · exact ⟨clipped?_congr heq r, hsame.block (clipped?_congr heq r)⟩
  · exact hused.mpr ⟨isTight_of_vacant_eq_empty (vacant_after (vacant_empty .row) hspares),
      isTight_of_vacant_eq_empty
        (vacant_after (vacant_empty .column) (hstart.sparesAllLines hspares))⟩

/-- Three cells through an insertion before two of them and a removal of the lowest. -/
theorem axis_unobservable_of_moved_cells :
    let cs : List (Change Nat) := [.set ⟨0, 3⟩ 10, .set ⟨0, 1⟩ 20, .set ⟨2, 1⟩ 30,
      .edit (.insert .column 2 5), .removeRegion (.wholeRows (.single 2))]
    let m := (empty .row).after cs
    let n := (empty .column).after cs
    (∀ c ∈ cs, FillsOnGrid c) ∧
      m.used? = some (.corners 0 1 0 8) ∧ n.used? = some (.corners 0 1 0 8) ∧
      m.block (.wholeRows (.single 0)) = n.block (.wholeRows (.single 0)) ∧
      m.next? .row 0 2 = some (8, 10) ∧ n.next? .row 0 2 = some (8, 10) ∧
      n.size = 2 ∧ n.size = Nat.card {p // n.isFilled p = true} := by
  intro cs m n
  have hgrid : ∀ c ∈ cs, FillsOnGrid c := by decide
  have hm : m.used? = some (.corners 0 1 0 8) := by decide +kernel
  have hn : n.used? = some (.corners 0 1 0 8) := by decide +kernel
  have hnext : m.next? .row 0 2 = some (8, 10) := by decide +kernel
  obtain ⟨-, ⟨-, hsize, -⟩, -, ⟨-, hwalk⟩, -, -, -, hagree, -⟩ := axis_unobservable cs
  exact ⟨hgrid, hm, hn, ((hagree (hm.trans hn.symm)).2 _).2, hnext,
    (hwalk hgrid .row 0 2).symm.trans hnext, by decide +kernel, hsize⟩

/-- Rows pushed in between two cells take the lower one, the only one of its column, off the grid.
The store by columns keeps that column in use. -/
theorem emptied_line_in_use :
    let cs : List (Change Nat) :=
      [.set ⟨4294967290, 0⟩ 10, .set ⟨1, 2⟩ 20, .edit (.insert .row 2 6)]
    let m := (empty .row).after cs
    let n := (empty .column).after cs
    m.used? = some (.cell ⟨1, 2⟩) ∧ n.used? = some (.corners 1 0 1 2) ∧
      n.toList = [(⟨1, 2⟩, 20)] ∧ ¬ n.IsExtent (.corners 1 0 1 2) ∧
      m.clipped? (.wholeColumns (.single 0)) = none ∧
      n.block (.wholeColumns (.single 0)) = [[none], [none]] := by
  intro cs m n
  have hcells : n.toList = [(⟨1, 2⟩, 20)] := by decide +kernel
  refine ⟨by decide +kernel, by decide +kernel, hcells, fun hextent => ?_, by decide +kernel,
    by decide +kernel⟩
  have hcovers : (Region.cell ⟨1, 2⟩).covers (.corners 1 0 1 2) = true :=
    hextent.least _ fun p hp => by
      obtain ⟨c, hc, rfl⟩ := List.mem_map.mp (mem_positions.mpr hp)
      rw [hcells] at hc
      rw [List.mem_singleton.mp hc]
      decide
  revert hcovers
  decide

end Matrix

end Spreadsheet
