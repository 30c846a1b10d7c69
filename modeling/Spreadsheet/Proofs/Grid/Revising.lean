import Spreadsheet.Proofs.Grid.Carrying
import Spreadsheet.Proofs.Grid.Naming

/-! What references go through as the grid is edited and formulas are copied. Each step is done to
all that a reference points at or, once part of it is gone, to none of it; what is gone stays gone.
What is left stays well formed: cells on the grid, and ranges between sorted ends of one kind whose
rows are on it. Only the columns of a range can leave the part of the grid that has names. -/

namespace Spreadsheet

/-! ## Places -/

namespace Place

/-- The row of the place, if it has one, is on the grid. -/
def RowOnGrid (p : Place) : Prop := ∀ m, p.mark? .row = some m → m.index < endless

theorem InGrid.rowOnGrid {p : Place} (h : p.InGrid) : p.RowOnGrid := fun m hm =>
  Nat.lt_of_le_pred (by decide) (h.le_limit .row m hm)

theorem RowOnGrid.inGrid {p : Place} (h : p.RowOnGrid) (hv : p.isValid = true)
    (hc : ∀ m ∈ p.mark? .column, m.index ≤ lastColumn) : p.InGrid := by
  refine ⟨hv, fun axis m hm => ?_⟩
  cases axis with
  | row => exact Nat.le_pred_of_lt (h m hm)
  | column => exact hc m hm

theorem RowOnGrid.withMark {p : Place} {axis : Axis} {m : Mark} (h : p.RowOnGrid)
    (hm : axis = .row → m.index < endless) : (p.withMark axis m).RowOnGrid := by
  intro n hn
  obtain ⟨haxis, rfl⟩ | hn := mark?_withMark_eq_some hn
  · exact hm haxis.symm
  · exact h n hn

/-- What a place can become when lines move: it stays, it is lost, or it goes to a line that it can
move to. -/
inductive Becomes (p : Place) : Place → Prop
  | same : Becomes p p
  | lost : Becomes p p.invalidated
  | moved {axis : Axis} {m n : Mark} (from' : p.mark? axis = some m) (le : n.index ≤ limit axis) :
      Becomes p (p.withMark axis n)

theorem becomes_movedBy (p : Place) (axis : Axis) (offset : Int) :
    p.Becomes (p.movedBy axis offset) := by
  unfold movedBy
  split
  · exact .same
  · next m hm =>
    split
    · exact .same
    · split
      · exact .lost
      · exact .moved hm (by dsimp only; omega)

namespace Becomes

variable {p q : Place}

theorem kind (h : p.Becomes q) : q.kind = p.kind := by
  cases h with
  | same => rfl
  | lost => exact kind_invalidated p
  | moved _ _ => exact kind_withMark ..

theorem isValid (h : p.Becomes q) (hq : q.isValid = true) : p.isValid = true := by
  cases h with
  | same => exact hq
  | lost =>
    rw [isValid_invalidated] at hq
    cases hq
  | moved _ _ => rwa [isValid_withMark] at hq

theorem inGrid (h : p.Becomes q) (hp : p.InGrid) (hq : q.isValid = true) : q.InGrid := by
  cases h with
  | same => exact hp
  | lost =>
    rw [isValid_invalidated] at hq
    cases hq
  | moved _ le => exact hp.withMark le

theorem rowOnGrid (h : p.Becomes q) (hp : p.RowOnGrid) (hq : q.isValid = true) : q.RowOnGrid := by
  cases h with
  | same => exact hp
  | lost =>
    rw [isValid_invalidated] at hq
    cases hq
  | @moved axis m n _ le => exact hp.withMark fun _ => Nat.lt_of_le_of_lt le (limit_lt axis)

end Becomes

variable {p : Place} {rows columns : Int}

theorem isValid_of_shifted (h : (p.shifted rows columns).isValid = true) : p.isValid = true :=
  (p.becomes_movedBy .row rows).isValid ((Place.becomes_movedBy _ .column columns).isValid h)

theorem kind_shifted (p : Place) (rows columns : Int) : (p.shifted rows columns).kind = p.kind :=
  (kind_movedBy ..).trans (kind_movedBy ..)

theorem InGrid.shifted (h : p.InGrid) (hv : (p.shifted rows columns).isValid = true) :
    (p.shifted rows columns).InGrid := by
  have hcolumn := Place.becomes_movedBy (p.movedBy .row rows) .column columns
  exact hcolumn.inGrid ((p.becomes_movedBy .row rows).inGrid h (hcolumn.isValid hv)) hv

theorem RowOnGrid.shifted (h : p.RowOnGrid) (hv : (p.shifted rows columns).isValid = true) :
    (p.shifted rows columns).RowOnGrid := by
  have hcolumn := Place.becomes_movedBy (p.movedBy .row rows) .column columns
  exact hcolumn.rowOnGrid ((p.becomes_movedBy .row rows).rowOnGrid h (hcolumn.isValid hv)) hv

end Place

namespace Edit

theorem becomes_place (e : Edit) (p : Place) : p.Becomes (e.place p) := by
  cases e with
  | insert axis start count =>
    change p.Becomes (p.afterInsert axis start count)
    unfold Place.afterInsert
    split
    · split
      · exact p.becomes_movedBy ..
      · exact .same
    · exact .same
  | remove axis start count =>
    change p.Becomes (p.afterRemove axis start count)
    unfold Place.afterRemove
    split
    · split
      · exact .lost
      · split
        · exact p.becomes_movedBy ..
        · exact .same
    · exact .same

/-- No span of lines moves beyond the grid, and only one that goes to its end still does. -/
theorem span?_last {e : Edit} {s s' : Span} (h : s.last ≤ endless) (hs : e.span? s = some s') :
    s'.last ≤ endless ∧ (s'.last = endless → s.last = endless) := by
  have hle := s.first_le_last
  cases e with
  | insert axis start count =>
    cases hs
    unfold Span.afterInsert Span.between Span.pushed
    grind [endless]
  | remove axis start count =>
    by_cases hc : count = 0
    · unfold span? Span.afterRemove? at hs
      simp only [hc, true_or, if_true] at hs
      cases hs
      exact ⟨h, id⟩
    · have hcases := afterRemove?_cases hc h hs
      omega

/-- A span of lines on the grid stays there. -/
theorem last_lt_of_span? {e : Edit} {s s' : Span} (h : s.last < endless)
    (hs : e.span? s = some s') : s'.last < endless := by
  have hlast := span?_last h.le hs
  omega

end Edit

/-! ## Targets -/

namespace Target

/-- A cell on the grid, or a range between sorted places of one kind with their rows on it. -/
inductive Formed : Target → Prop
  | cell {p : Place} (grid : p.InGrid) (kind : p.kind = .cell) : Formed (.place p)
  | range {p q : Place} (valid : p.isValid = true ∧ q.isValid = true)
      (rows : p.RowOnGrid ∧ q.RowOnGrid) (kinds : q.kind = p.kind)
      (sorted : between p q = .range p q) : Formed (.range p q)

theorem formed_between {p q : Place} (hv : (between p q).isValid = true) (hp : p.RowOnGrid)
    (hq : q.RowOnGrid) (kinds : q.kind = p.kind) : (between p q).Formed := by
  obtain ⟨p', q', hpq, hexchanged, hsorted⟩ := exists_between p q
  rw [hpq] at hv ⊢
  refine .range (Bool.and_eq_true_iff.mp hv) (hexchanged.forall_mark hp hq) ?_
    (between_eq_range_iff.mpr hsorted)
  rw [hexchanged.kinds.1, hexchanged.kinds.2, kinds]

/-- The columns of the target have names. -/
def HasColumns : Target → Prop
  | .place p => ∀ m ∈ p.mark? .column, m.index ≤ lastColumn
  | .range p q => (∀ m ∈ p.mark? .column, m.index ≤ lastColumn) ∧
    ∀ m ∈ q.mark? .column, m.index ≤ lastColumn
  | .name _ => True

instance : DecidablePred HasColumns := fun t =>
  match t with
  | .place p => inferInstanceAs (Decidable (∀ m ∈ p.mark? .column, m.index ≤ lastColumn))
  | .range p q => inferInstanceAs (Decidable ((∀ m ∈ p.mark? .column, m.index ≤ lastColumn) ∧
      ∀ m ∈ q.mark? .column, m.index ≤ lastColumn))
  | .name _ => isTrue trivial

variable {a b : Place} {axis : Axis} {m n : Mark} {s : Span}

/-- An end of a stretched range. -/
def stretchedEnd (a : Place) (axis : Axis) (m : Mark) (i : Nat) : Place :=
  if m.fixed then a else a.withMark axis ⟨i, false⟩

theorem stretched_eq (a b : Place) (axis : Axis) (m n : Mark) (s : Span) :
    stretched a b axis m n s =
      between (stretchedEnd a axis m s.first) (stretchedEnd b axis n s.last) := rfl

theorem isValid_stretchedEnd (a : Place) (axis : Axis) (m : Mark) (i : Nat) :
    (stretchedEnd a axis m i).isValid = a.isValid := by
  unfold stretchedEnd
  split
  · rfl
  · exact Place.isValid_withMark ..

theorem kind_stretchedEnd (a : Place) (axis : Axis) (m : Mark) (i : Nat) :
    (stretchedEnd a axis m i).kind = a.kind := by
  unfold stretchedEnd
  split
  · rfl
  · exact Place.kind_withMark ..

theorem rowOnGrid_stretchedEnd {i : Nat} (h : a.RowOnGrid) (hi : axis = .row → i < endless) :
    (stretchedEnd a axis m i).RowOnGrid := by
  unfold stretchedEnd
  split
  · exact h
  · exact h.withMark hi

theorem isValid_stretched : (stretched a b axis m n s).isValid = (a.isValid && b.isValid) := by
  rw [stretched_eq, isValid_between, isValid_stretchedEnd, isValid_stretchedEnd]

end Target

/-- What an edit does to a range: it stays, it is lost, or it is stretched to what is left of its
lines. -/
theorem Edit.target_range_cases (e : Edit) (a b : Place) :
    e.target (.range a b) = .range a b ∨ e.target (.range a b) = (Target.range a b).invalidated ∨
      ∃ m n s, a.mark? e.axis = some m ∧ b.mark? e.axis = some n ∧
        e.span? (.between m.index n.index) = some s ∧
        e.target (.range a b) = .stretched a b e.axis m n s := by
  obtain hnone | ⟨m, n, hm, hn⟩ := Target.marks_cases a b e.axis
  · exact .inl (target_range_of_none hnone)
  · rw [target_range hm hn]
    cases hs : e.span? (.between m.index n.index) with
    | none => exact .inr (.inl rfl)
    | some s => exact .inr (.inr ⟨m, n, s, hm, hn, hs, rfl⟩)

/-! ## Steps -/

/-- A step that references go through: an edit of the grid, or a copy of their formula over the
given offsets. -/
inductive Revision where
  | edit (e : Edit)
  | copy (rows columns : Int)
  deriving DecidableEq, Repr

namespace Revision

def reference : Revision → Reference → Reference
  | edit e, r => e.reference r
  | copy rows columns, r => r.shifted rows columns

/-- What a step does to one thing that a valid reference points at. -/
def target : Revision → Target → Target
  | edit e, t => if e.count = 0 then t else e.target t
  | copy rows columns, t => t.shifted rows columns

theorem isValid_of_target {v : Revision} {t : Target} (h : (v.target t).isValid = true) :
    t.isValid = true := by
  cases v with
  | copy rows columns =>
    cases t with
    | place p => exact Place.isValid_of_shifted h
    | range a b =>
      have hends : (Target.between (a.shifted rows columns) (b.shifted rows columns)).isValid = true := h
      rw [Target.isValid_between, Bool.and_eq_true] at hends
      exact Bool.and_eq_true_iff.mpr ⟨Place.isValid_of_shifted hends.1, Place.isValid_of_shifted hends.2⟩
    | name n => exact h
  | edit e =>
    rw [target] at h
    split at h
    · exact h
    · cases t with
      | place p =>
        rw [Edit.target_place] at h
        exact (e.becomes_place p).isValid h
      | range a b =>
        obtain hr | hr | ⟨m, n, s, -, -, -, hr⟩ := e.target_range_cases a b
        · rwa [hr] at h
        · rw [hr, Target.isValid_invalidated_range] at h
          cases h
        · rwa [hr, Target.isValid_stretched] at h
      | name n => rfl

/-- What is left of a well-formed target is well formed. -/
theorem formed_target {v : Revision} {t : Target} (h : t.Formed)
    (hv : (v.target t).isValid = true) : (v.target t).Formed := by
  cases v with
  | copy rows columns =>
    cases h with
    | @cell p grid kind => exact .cell (grid.shifted hv) ((p.kind_shifted rows columns).trans kind)
    | @range a b valid grid kinds _ =>
      have hends : (Target.between (a.shifted rows columns) (b.shifted rows columns)).isValid = true := hv
      rw [Target.isValid_between, Bool.and_eq_true] at hends
      refine Target.formed_between hv (grid.1.shifted hends.1) (grid.2.shifted hends.2) ?_
      rw [Place.kind_shifted, Place.kind_shifted, kinds]
  | edit e =>
    rw [target] at hv ⊢
    split
    · exact h
    · next hc =>
      rw [if_neg hc] at hv
      cases h with
      | @cell p grid kind =>
        rw [Edit.target_place] at hv ⊢
        have hp := e.becomes_place p
        exact .cell (hp.inGrid grid hv) (hp.kind.trans kind)
      | @range a b valid grid kinds sorted =>
        obtain hr | hr | ⟨m, n, s, hm, hn, hs, hr⟩ := e.target_range_cases a b
        · rw [hr]
          exact .range valid grid kinds sorted
        · rw [hr, Target.isValid_invalidated_range] at hv
          cases hv
        · have hrow (haxis : e.axis = .row) : s.last < endless := by
            rw [haxis] at hm hn
            have hbetween : (Span.between m.index n.index).last < endless :=
              Nat.max_lt.mpr ⟨grid.1 m hm, grid.2 n hn⟩
            exact Edit.last_lt_of_span? hbetween hs
          rw [hr, Target.stretched_eq] at hv ⊢
          refine Target.formed_between hv ?_ ?_ ?_
          · exact Target.rowOnGrid_stretchedEnd grid.1 fun haxis =>
              Nat.lt_of_le_of_lt s.first_le_last (hrow haxis)
          · exact Target.rowOnGrid_stretchedEnd grid.2 hrow
          · rw [Target.kind_stretchedEnd, Target.kind_stretchedEnd, kinds]

/-- A step is done to all that a reference points at, or to none of it as part of it is gone. -/
theorem reference_cases (v : Revision) (r : Reference) :
    v.reference r = r.map v.target ∨ r.isValid = false ∧ v.reference r = r := by
  cases v with
  | copy rows columns => exact .inl rfl
  | edit e =>
    cases hr : r.isValid with
    | false => exact .inr ⟨rfl, Edit.reference_of_not_valid hr⟩
    | true =>
      by_cases hc : e.count = 0
      · have hid : (edit e).target = id := funext fun t => if_pos hc
        rw [hid, Reference.map_id]
        exact .inl (Edit.reference_of_count_eq_zero hc)
      · have htarget : (edit e).target = e.target := funext fun t => if_neg hc
        rw [htarget]
        exact .inl (Edit.reference_eq hc hr)

/-! ## Histories -/

/-- What becomes of a reference in the course of some steps. -/
def referenceAfter (vs : List Revision) (r : Reference) : Reference :=
  vs.foldl (fun r v => v.reference r) r

def targetAfter (vs : List Revision) (t : Target) : Target := vs.foldl (fun t v => v.target t) t

variable {vs : List Revision}

theorem isValid_of_targetAfter {t : Target} (h : (targetAfter vs t).isValid = true) :
    t.isValid = true := by
  induction vs generalizing t with
  | nil => exact h
  | cons v vs ih => exact isValid_of_target (ih h)

theorem formed_targetAfter {t : Target} (h : t.Formed) (hv : (targetAfter vs t).isValid = true) :
    (targetAfter vs t).Formed := by
  induction vs generalizing t with
  | nil => exact h
  | cons v vs ih => exact ih (formed_target h (isValid_of_targetAfter hv)) hv

theorem isValid_of_map {f : Target → Target} (hf : ∀ t, (f t).isValid = true → t.isValid = true)
    {r : Reference} (h : (r.map f).isValid = true) : r.isValid = true := by
  rw [Reference.isValid, Reference.targets_map, List.all_map] at h
  exact List.all_eq_true.mpr fun t ht => hf t (List.all_eq_true.mp h t ht)

theorem isValid_of_reference {v : Revision} {r : Reference} (h : (v.reference r).isValid = true) :
    r.isValid = true := by
  obtain hr | ⟨-, hr⟩ := v.reference_cases r
  · rw [hr] at h
    exact isValid_of_map (fun t => isValid_of_target) h
  · rwa [hr] at h

/-- What is gone stays gone. -/
theorem isValid_of_referenceAfter {r : Reference} (h : (referenceAfter vs r).isValid = true) :
    r.isValid = true := by
  induction vs generalizing r with
  | nil => exact h
  | cons v vs ih => exact isValid_of_reference (ih h)

theorem map_targetAfter_cons (v : Revision) (vs : List Revision) (r : Reference) :
    r.map (targetAfter (v :: vs)) = (r.map v.target).map (targetAfter vs) := by
  rw [Reference.map_map]
  rfl

/-- The steps are done to all that a reference points at, unless part of it is lost. -/
theorem referenceAfter_cases (vs : List Revision) (r : Reference) :
    referenceAfter vs r = r.map (targetAfter vs) ∨
      (referenceAfter vs r).isValid = false ∧ (r.map (targetAfter vs)).isValid = false := by
  induction vs generalizing r with
  | nil => exact .inl (Reference.map_id r).symm
  | cons v vs ih =>
    obtain hr | ⟨hinvalid, hr⟩ := v.reference_cases r
    · rw [map_targetAfter_cons, ← hr]
      exact ih (v.reference r)
    · refine .inr ⟨?_, ?_⟩
      · exact eq_false_of_ne_true fun h => by simp [isValid_of_referenceAfter h] at hinvalid
      · refine eq_false_of_ne_true fun h => ?_
        have hvalid := isValid_of_map (fun t => isValid_of_targetAfter) h
        rw [hinvalid] at hvalid
        cases hvalid

end Revision

end Spreadsheet
