import Spreadsheet.Proofs.Grid.Following

/-! Listings before and after an edit of the grid. Cells that stay keep their order as they move, so
a region that follows its cells lists what the region before it listed, up to the cells that are
lost. The store moves its cells and a reference its coordinates, each in its own way; what is listed
for the reference is where the two have to agree. -/

namespace Spreadsheet

theorem Position.compare_eq_lt {p q : Position} :
    compare p q = .lt ↔ p.row < q.row ∨ p.row = q.row ∧ p.column < q.column := by
  show (compareLex (compareOn row) (compareOn column)) p q = .lt ↔ _
  simp only [compareLex, compareOn, Ordering.then_eq_lt, Nat.compare_eq_lt, Nat.compare_eq_eq]

namespace Edit

variable {e : Edit}

/-- Lines that stay keep their order. -/
theorem index?_lt {i i' j j' : Nat} (h : e.index? i = some j) (h' : e.index? i' = some j')
    (hlt : i < i') : j < j' := by
  cases e with
  | insert axis start count =>
    unfold index? opened? at h h'
    grind
  | remove axis start count =>
    unfold index? closed? at h h'
    grind

/-- Cells that stay keep their order. -/
theorem position?_lt {p p' q q' : Position} (h : e.position? p = some q)
    (h' : e.position? p' = some q') (hlt : compare p p' = .lt) : compare q q' = .lt := by
  obtain ⟨hi, ho⟩ := position?_eq_some.mp h
  obtain ⟨hi', ho'⟩ := position?_eq_some.mp h'
  rw [Position.compare_eq_lt] at hlt ⊢
  cases haxis : e.axis with
  | row =>
    rw [haxis] at hi ho hi' ho'
    simp only [Position.index, Axis.other] at hi ho hi' ho'
    rw [← ho, ← ho']
    rcases hlt with hrow | ⟨hrow, hcolumn⟩
    · exact .inl (index?_lt hi hi' hrow)
    · rw [hrow, hi'] at hi
      exact .inr ⟨(Option.some.inj hi).symm, hcolumn⟩
  | column =>
    rw [haxis] at hi ho hi' ho'
    simp only [Position.index, Axis.other] at hi ho hi' ho'
    rw [← ho, ← ho']
    rcases hlt with hrow | ⟨hrow, hcolumn⟩
    · exact .inl hrow
    · exact .inr ⟨hrow, index?_lt hi hi' hcolumn⟩

end Edit

namespace Matrix

variable {α : Type} {m : Matrix α} {g g' : Region}

/-- The cells as they are listed, moved by an edit; those that are lost are left out. -/
def movedCells (e : Edit) (cells : List (Position × α)) : List (Position × α) :=
  cells.filterMap fun c => (e.position? c.1).map fun q => (q, c.2)

theorem mem_movedCells {e : Edit} {cells : List (Position × α)} {q : Position} {a : α} :
    (q, a) ∈ movedCells e cells ↔ ∃ p, (p, a) ∈ cells ∧ e.position? p = some q := by
  unfold movedCells
  simp only [List.mem_filterMap, Option.map_eq_some_iff, Prod.exists, Prod.mk.injEq]
  constructor
  · intro h
    obtain ⟨p, b, hp, q', hq, rfl, rfl⟩ := h
    exact ⟨p, hp, hq⟩
  · intro h
    obtain ⟨p, hp, hq⟩ := h
    exact ⟨p, a, hp, q, hq, rfl, rfl⟩

theorem movedCells_forward {e : Edit} {cells : List (Position × α)}
    (h : cells.Pairwise fun a b => compare a.1 b.1 = .lt) :
    (movedCells e cells).Pairwise fun a b => compare a.1 b.1 = .lt := by
  refine List.Pairwise.filterMap _ (fun c d hcd x hx y hy => ?_) h
  obtain ⟨p, hp, rfl⟩ := Option.map_eq_some_iff.mp hx
  obtain ⟨q, hq, rfl⟩ := Option.map_eq_some_iff.mp hy
  exact Edit.position?_lt hp hq hcd

theorem movedCells_values (e : Edit) (cells : List (Position × α)) :
    (movedCells e cells).map (·.2) =
      (cells.filter fun c => (e.index? (c.1.index e.axis)).isSome).map (·.2) := by
  induction cells with
  | nil => rfl
  | cons c cells ih =>
    have hc := e.position?_isSome c.1
    unfold movedCells at ih ⊢
    rw [List.filterMap_cons, List.filter_cons, ← hc]
    cases e.position? c.1 with
    | none => exact ih
    | some q => exact congrArg (c.2 :: ·) ih

/-- A region that follows its cells lists them where they are now. -/
theorem cellsIn_edited {e : Edit} (stored : ∀ p a, m.get? p = some a → p.OnGrid)
    (h : e.Follows g g') : (m.edited e).cellsIn g' = movedCells e (m.cellsIn g) := by
  refine eq_of_forward (cellsIn_forward _ _) (movedCells_forward (cellsIn_forward _ _)) fun c => ?_
  obtain ⟨q, a⟩ := c
  rw [mem_cellsIn, mem_movedCells, get?_edited]
  simp only [mem_cellsIn]
  constructor
  · intro hc
    obtain ⟨⟨p, hp, hpq⟩, hq⟩ := hc
    exact ⟨p, ⟨hp, (h p q (stored p a hp) hpq).mp hq⟩, hpq⟩
  · intro hc
    obtain ⟨p, ⟨hp, hg⟩, hpq⟩ := hc
    exact ⟨⟨p, hp, hpq⟩, (h p q (stored p a hp) hpq).mpr hg⟩

/-- What a free reference lists follows its cells. It is lost exactly if all of its lines are
removed, and else lists the values in the lines that are left, in the same order; and an insertion
that pushes nothing of it off the grid changes nothing that it lists. -/
theorem listing_follows {t : Target} (axis : Axis) (start count : Nat)
    (stored : ∀ p a, m.get? p = some a → p.OnGrid) (denotes : t.region? = some g)
    (free : t.FreeAlong axis) (grid : t.OnGrid axis) (positive : count ≠ 0)
    (bounded : count ≤ endless) :
    (((Reference.single t).afterRemove axis start count).isValid = false ↔
        ∀ i, (g.span axis).contains i = true → start ≤ i ∧ i < start + count) ∧
      (((Reference.single t).afterRemove axis start count).isValid = true →
        ∃ g', ((Reference.single t).afterRemove axis start count).region? = some g' ∧
          ((m.edited (.remove axis start count)).cellsIn g').map (·.2) =
            ((m.cellsIn g).filter fun c =>
              !(start ≤ c.1.index axis && c.1.index axis < start + count)).map (·.2)) ∧
      (t.Fits axis start count →
        (∀ c ∈ m.cellsIn g, start ≤ c.1.index axis → c.1.index axis + count < endless) →
        ∃ g', ((Reference.single t).afterInsert axis start count).region? = some g' ∧
          ((m.edited (.insert axis start count)).cellsIn g').map (·.2) =
            (m.cellsIn g).map (·.2)) := by
  have hv : t.isValid = true := (Option.ite_none_right_eq_some.mp denotes).1
  have hvalid : (Reference.single t).isValid = true := (Reference.isValid_single t).trans hv
  have hremove : (Reference.single t).afterRemove axis start count =
      .single (t.afterRemove axis start count) :=
    Edit.reference_eq (e := .remove axis start count) positive hvalid
  have hinsert : (Reference.single t).afterInsert axis start count =
      .single (t.afterInsert axis start count) :=
    Edit.reference_eq (e := .insert axis start count) positive hvalid
  rw [hremove, hinsert, Reference.isValid_single, Reference.region?_single,
    Reference.region?_single]
  have hkept : ∀ i, (Edit.index? (.remove axis start count) i).isSome =
      !(start ≤ i && i < start + count) := fun i => by
    unfold Edit.index? Edit.closed?
    grind
  refine ⟨?_, fun hstays => ?_, fun fits inside => ?_⟩
  · obtain ⟨hlines, hlost⟩ | ⟨hlines, g', hg', -⟩ :=
      Target.followsRemoval denotes free grid positive bounded
    · exact iff_of_true hlost hlines
    · have hleft : (t.afterRemove axis start count).isValid = true :=
        (Option.ite_none_right_eq_some.mp hg').1
      exact iff_of_false (by simp [hleft]) hlines
  · obtain ⟨-, hlost⟩ | ⟨-, g', hg', hfollows⟩ :=
      Target.followsRemoval denotes free grid positive bounded
    · rw [hstays] at hlost
      contradiction
    · refine ⟨g', hg', ?_⟩
      rw [cellsIn_edited stored hfollows, movedCells_values]
      simp only [hkept]
      rfl
  · obtain ⟨g', hg', hfollows⟩ := Target.follows_afterInsert denotes free grid positive fits
    refine ⟨g', hg', ?_⟩
    rw [cellsIn_edited stored hfollows, movedCells_values, List.filter_eq_self.mpr fun c hc => ?_]
    have hroom := inside c hc
    show (Edit.opened? start count (c.1.index axis)).isSome = true
    unfold Edit.opened?
    grind

/-- `A1:B4` with three values, of which one is in the removed rows. -/
theorem listing_follows_across_range :
    let m : Matrix Nat :=
      (((Matrix.empty .column).set ⟨3, 1⟩ 40).set ⟨2, 0⟩ 30).set ⟨0, 0⟩ 10
    let t : Target :=
      .range (.cell ⟨0, false⟩ ⟨0, false⟩ true) (.cell ⟨3, false⟩ ⟨1, false⟩ true)
    ((∀ p a, m.get? p = some a → p.OnGrid) ∧ t.region? = some (.corners 0 0 3 1) ∧
      t.FreeAlong .row ∧ t.OnGrid .row ∧ t.Fits .row 1 2) ∧
    (∃ g, ((Reference.single t).afterRemove .row 1 2).region? = some g ∧
      ((m.edited (.remove .row 1 2)).cellsIn g).map (·.2) = [10, 40]) ∧
    ∃ g, ((Reference.single t).afterInsert .row 1 2).region? = some g ∧
      ((m.edited (.insert .row 1 2)).cellsIn g).map (·.2) = [10, 30, 40] := by
  intro m t
  have stored : ∀ p a, m.get? p = some a → p.OnGrid := by
    intro p a h
    have hcells : p = ⟨0, 0⟩ ∨ p = ⟨2, 0⟩ ∨ p = ⟨3, 1⟩ := by
      simp only [m, get?_set] at h
      split at h
      · exact .inl (Eq.symm ‹_›)
      · split at h
        · exact .inr (.inl (Eq.symm ‹_›))
        · split at h
          · exact .inr (.inr (Eq.symm ‹_›))
          · cases h
    obtain rfl | rfl | rfl := hcells <;> decide
  have denotes : t.region? = some (.corners 0 0 3 1) := by decide
  have listed : m.cellsIn (.corners 0 0 3 1) = [(⟨0, 0⟩, 10), (⟨2, 0⟩, 30), (⟨3, 1⟩, 40)] := by
    decide +kernel
  have fits : t.Fits .row 1 2 := by decide
  obtain ⟨-, hremove, hinsert⟩ := listing_follows .row 1 2 stored denotes (by decide) (by decide)
    (by decide) (by decide)
  rw [listed] at hremove hinsert
  exact ⟨⟨stored, denotes, by decide, by decide, fits⟩, hremove (by decide),
    hinsert fits (by decide)⟩

/-- A cell in a column without a name is lost in a removal that leaves it on the grid. -/
theorem cell_past_named_columns_lost :
    let t : Target := .place (.cell ⟨0, false⟩ ⟨20000, false⟩ true)
    t.region? = some (.cell ⟨0, 20000⟩) ∧ t.FreeAlong .column ∧
      ((Reference.single t).afterRemove .column 0 1).isValid = false ∧
      ¬ ∀ i, ((Region.cell ⟨0, 20000⟩).span .column).contains i = true → 0 ≤ i ∧ i < 0 + 1 := by
  refine ⟨by decide, by decide, by decide, fun h => ?_⟩
  have hline := h 20000 (by decide)
  omega

end Matrix

end Spreadsheet
