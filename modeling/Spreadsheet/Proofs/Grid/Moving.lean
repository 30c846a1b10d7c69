import Spreadsheet.Proofs.Store.Cells

/-! Where an edit of the grid takes the lines of a span and the coordinates of a place. A line that
is in a span afterwards was in it before, unless the whole span is pushed against the end of the
grid; a coordinate goes where its line goes, unless it is fixed and stays behind. -/

namespace Spreadsheet

namespace Edit

/-- A span after an edit. -/
def span? : Edit → Span → Option Span
  | insert _ start count, s => some (s.afterInsert start count)
  | remove _ start count, s => s.afterRemove? start count

/-- The first line of the span is not pushed off the grid. -/
def HasRoom : Edit → Span → Prop
  | insert _ start count, s => start ≤ s.first → s.first = endless ∨ s.first + count < endless
  | remove .., _ => True

/-- A coordinate that does not move has nothing in front of it that does. -/
def LeavesFixed (e : Edit) (m : Mark) : Prop := m.fixed = true → m.index < e.start

instance (e : Edit) : DecidablePred e.HasRoom := fun s =>
  match e with
  | insert _ start count => inferInstanceAs
    (Decidable (start ≤ s.first → s.first = endless ∨ s.first + count < endless))
  | remove .. => isTrue trivial

instance (e : Edit) : DecidablePred e.LeavesFixed := fun m =>
  inferInstanceAs (Decidable (m.fixed = true → m.index < e.start))

/-! ## Lines -/

theorem contains_of_afterInsert {s : Span} {start count i j : Nat} (hs : s.last ≤ endless)
    (hroom : start ≤ s.first → s.first = endless ∨ s.first + count < endless)
    (hi : opened? start count i = some j) (hj : (s.afterInsert start count).contains j = true) :
    s.contains i = true := by
  have hle := s.first_le_last
  unfold opened? at hi
  unfold Span.contains at hj ⊢
  unfold Span.afterInsert Span.between Span.pushed at hj
  simp only [Bool.and_eq_true, decide_eq_true_eq] at hj ⊢
  grind

theorem closed?_eq_some {start count i j : Nat} (h : closed? start count i = some j) :
    i < start ∧ j = i ∨ start + count ≤ i ∧ j = i - count := by
  unfold closed? at h
  split at h
  · rename_i hi
    exact Or.inl ⟨hi, (Option.some.inj h).symm⟩
  · split at h
    · contradiction
    · rename_i hi
      exact Or.inr ⟨Nat.le_of_not_lt hi, (Option.some.inj h).symm⟩

/-- What is left of a span: all of it, in front of the removed lines or behind them; or what was on
both sides of them, or in front. -/
theorem afterRemove?_cases {s s' : Span} {start count : Nat} (hc : count ≠ 0)
    (hs : s.last ≤ endless) (h : s.afterRemove? start count = some s') :
    (s.last < start ∧ s'.first = s.first ∧ s'.last = s.last) ∨
      (start + count ≤ s.last ∧
        (start + count ≤ s.first ∧ s'.first = s.first - count ∨
          s.first < start + count ∧ s'.first = min s.first start) ∧
        (s'.last = endless ∧ s.last = endless ∨ s'.last = s.last - count)) ∨
      (s.first < start ∧ start ≤ s.last ∧ s.last < start + count ∧ s'.first = s.first ∧
        s'.last = start - 1) := by
  have hle := s.first_le_last
  have hpulled : Span.pulled s.last count = endless ∧ s.last = endless ∨
      Span.pulled s.last count = s.last - count := by
    unfold Span.pulled
    split <;> omega
  unfold Span.afterRemove? Span.lastRemoved at h
  dsimp only at h
  split at h
  · cases h
    exact Or.inl ⟨by omega, rfl, rfl⟩
  · split at h
    · cases h
      unfold Span.between
      dsimp only
      exact Or.inr (Or.inl ⟨by omega, Or.inl ⟨by omega, by omega⟩, by omega⟩)
    · split at h
      · contradiction
      · split at h
        · cases h
          unfold Span.between
          dsimp only
          exact Or.inr (Or.inl ⟨by omega, Or.inr ⟨by omega, by omega⟩, by omega⟩)
        · cases h
          unfold Span.between
          dsimp only
          exact Or.inr (Or.inr ⟨by omega, by omega, by omega, by omega, by omega⟩)

theorem contains_of_afterRemove? {s s' : Span} {start count i j : Nat} (hc : count ≠ 0)
    (hs : s.last ≤ endless) (hgrid : i ≤ endless) (hs' : s.afterRemove? start count = some s')
    (hi : closed? start count i = some j) (hj : s'.contains j = true) : s.contains i = true := by
  have hle := s.first_le_last
  have hij := closed?_eq_some hi
  have hcases := afterRemove?_cases hc hs hs'
  unfold Span.contains at hj ⊢
  simp only [Bool.and_eq_true, decide_eq_true_eq] at hj ⊢
  omega

/-- A line that is in a span afterwards was in it where it was before. -/
theorem contains_of_span? {e : Edit} {s s' : Span} {i j : Nat} (hc : e.count ≠ 0)
    (hs : s.last ≤ endless) (hroom : e.HasRoom s) (hgrid : i ≤ endless)
    (hs' : e.span? s = some s') (hi : e.index? i = some j) (hj : s'.contains j = true) :
    s.contains i = true := by
  cases e with
  | insert axis start count =>
    cases hs'
    exact contains_of_afterInsert hs hroom hi hj
  | remove axis start count => exact contains_of_afterRemove? hc hs hgrid hs' hi hj

theorem afterInsert_contains_fixed {s : Span} {start count i : Nat} (hs : s.last ≤ endless)
    (hi : i < start) (hsi : s.contains i = true) :
    (s.afterInsert start count).contains i = true := by
  have hle := s.first_le_last
  unfold Span.contains at hsi ⊢
  unfold Span.afterInsert Span.between Span.pushed
  simp only [Bool.and_eq_true, decide_eq_true_eq] at hsi ⊢
  grind

theorem afterRemove?_contains_fixed {s s' : Span} {start count i : Nat} (hc : count ≠ 0)
    (hs : s.last ≤ endless) (hi : i < start) (hsi : s.contains i = true)
    (hs' : s.afterRemove? start count = some s') : s'.contains i = true := by
  have hcases := afterRemove?_cases hc hs hs'
  unfold Span.contains at hsi ⊢
  simp only [Bool.and_eq_true, decide_eq_true_eq] at hsi ⊢
  omega

/-- A line of the span in front of the edit stays in the span. -/
theorem span?_contains_fixed {e : Edit} {s s' : Span} {i : Nat} (hc : e.count ≠ 0)
    (hs : s.last ≤ endless) (hi : i < e.start) (hsi : s.contains i = true)
    (hs' : e.span? s = some s') : s'.contains i = true := by
  cases e with
  | insert axis start count =>
    cases hs'
    exact afterInsert_contains_fixed hs hi hsi
  | remove axis start count => exact afterRemove?_contains_fixed hc hs hi hsi hs'

end Edit

/-! ## Places -/

namespace Place

theorem span_cells (p : Place) (axis : Axis) :
    p.cells.span axis = match p.mark? axis with
      | some m => .single m.index
      | none => .all := by
  cases p <;> cases axis <;> rfl

theorem isValid_withMark (p : Place) (axis : Axis) (m : Mark) :
    (p.withMark axis m).isValid = p.isValid := by
  cases p <;> cases axis <;> rfl

theorem mark?_withMark {p : Place} {axis : Axis} {n : Mark} (h : p.mark? axis = some n) (m : Mark) :
    (p.withMark axis m).mark? axis = some m := by
  cases p <;> cases axis <;> first | rfl | contradiction

theorem mark?_withMark_other (p : Place) (axis : Axis) (m : Mark) :
    (p.withMark axis m).mark? axis.other = p.mark? axis.other := by
  cases p <;> cases axis <;> rfl

theorem mark?_withMark_eq_some {p : Place} {axis other : Axis} {m n : Mark}
    (h : (p.withMark axis m).mark? other = some n) :
    (other = axis ∧ n = m) ∨ p.mark? other = some n := by
  by_cases hother : other = axis
  · subst hother
    cases hp : p.mark? other with
    | some k =>
      rw [mark?_withMark hp] at h
      exact .inl ⟨rfl, (Option.some.inj h).symm⟩
    | none => cases p <;> cases other <;> contradiction
  · obtain rfl := Axis.eq_other_of_ne hother
    exact .inr (mark?_withMark_other p axis m ▸ h)

theorem limit_lt (axis : Axis) : limit axis < endless := by
  cases axis <;> decide

/-- A place that is moved and stays valid has moved by as many lines as it should. -/
theorem movedBy_spec {p : Place} {axis : Axis} {m : Mark} {offset : Int}
    (hm : p.mark? axis = some m) (hfixed : m.fixed = false) (hzero : offset ≠ 0)
    (hv : (p.movedBy axis offset).isValid = true) :
    (p.movedBy axis offset).mark? axis.other = p.mark? axis.other ∧
      ∃ m', (p.movedBy axis offset).mark? axis = some m' ∧ (m'.index : Int) = m.index + offset ∧
        m'.index < endless := by
  have hlimit := limit_lt axis
  unfold movedBy at hv ⊢
  rw [hm] at hv ⊢
  dsimp only at hv ⊢
  rw [if_neg (by simp [hzero, hfixed])] at hv ⊢
  split at hv
  · rw [isValid_invalidated] at hv
    contradiction
  · rename_i hin
    rw [if_neg hin]
    exact ⟨mark?_withMark_other .., _, mark?_withMark hm _, by dsimp only; omega, by
      dsimp only; omega⟩

end Place

namespace Edit

def place : Edit → Place → Place
  | insert axis start count, p => p.afterInsert axis start count
  | remove axis start count, p => p.afterRemove axis start count

/-- The coordinate of a place goes where its line goes. -/
theorem place_spec {e : Edit} {p : Place} {m : Mark} (hc : e.count ≠ 0)
    (hm : p.mark? e.axis = some m) (hgrid : m.index ≤ endless) (hfixed : e.LeavesFixed m)
    (hv : (e.place p).isValid = true) :
    (e.place p).mark? e.axis.other = p.mark? e.axis.other ∧
      ∃ m', (e.place p).mark? e.axis = some m' ∧ e.index? m.index = some m'.index := by
  cases e with
  | insert axis start count =>
    unfold place Place.afterInsert at hv ⊢
    unfold LeavesFixed at hfixed
    change p.mark? axis = some m at hm
    change m.fixed = true → m.index < start at hfixed
    change count ≠ 0 at hc
    simp only [hm] at hv ⊢
    split at hv
    · rename_i hmove
      rw [if_pos hmove]
      obtain ⟨hother, m', hm', hi, hlt⟩ :=
        Place.movedBy_spec hm (by simpa using hmove.2) (by omega) hv
      refine ⟨hother, m', hm', ?_⟩
      unfold index? opened?
      dsimp only
      rw [if_neg (by omega), if_pos (by omega)]
      exact congrArg some (by omega)
    · rename_i hstay
      rw [if_neg hstay]
      refine ⟨rfl, m, hm, ?_⟩
      unfold index? opened?
      dsimp only
      rw [if_pos (by grind)]
  | remove axis start count =>
    unfold place Place.afterRemove Span.lastRemoved at hv ⊢
    change p.mark? axis = some m at hm
    change m.fixed = true → m.index < start at hfixed
    change count ≠ 0 at hc
    simp only [hm] at hv ⊢
    split at hv
    · rw [Place.isValid_invalidated] at hv
      contradiction
    · rename_i hout
      rw [if_neg hout]
      split at hv
      · rename_i hmove
        rw [if_pos hmove]
        obtain ⟨hother, m', hm', hi, -⟩ :=
          Place.movedBy_spec hm (by simpa using hmove.2) (by omega) hv
        refine ⟨hother, m', hm', ?_⟩
        unfold index? closed?
        dsimp only
        rw [if_neg (by omega), if_neg (by omega)]
        exact congrArg some (by omega)
      · rename_i hstay
        rw [if_neg hstay]
        refine ⟨rfl, m, hm, ?_⟩
        unfold index? closed?
        dsimp only
        rw [if_pos (by grind)]

/-- A whole line has no coordinate along the other axis, and stays as it is. -/
theorem place_of_none {e : Edit} {p : Place} (hm : p.mark? e.axis = none) : e.place p = p := by
  cases e with
  | insert axis start count =>
    unfold place Place.afterInsert
    change p.mark? axis = none at hm
    simp only [hm]
  | remove axis start count =>
    unfold place Place.afterRemove
    change p.mark? axis = none at hm
    simp only [hm]

end Edit

namespace Reference

theorem isValid_single (t : Target) : (single t).isValid = t.isValid := Bool.and_true _

theorem region?_single (t : Target) : (single t).region? = t.region? := by
  show (if (single t).isValid then t.region? else none) = t.region?
  rw [isValid_single]
  cases h : t.isValid with
  | true => rfl
  | false => exact (if_neg (by simp [h])).symm

end Reference

end Spreadsheet
