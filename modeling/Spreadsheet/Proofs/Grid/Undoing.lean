import Spreadsheet.Proofs.Grid.Following
import Spreadsheet.Proofs.Grid.Revising

/-! Insertions that a removal of the same lines undoes. What is stored comes back wherever nothing
was pushed off the grid. Spans come back too, those that grew included; a span to the end of the
grid only when the lines that came in have others behind them. A range comes back with its ends in
order, so it comes back as it was only if they were in order, as they are in all that is read. -/

namespace Spreadsheet

/-! ## Lines -/

namespace Span

/-- An insertion pushes nothing of the span off the grid, and if the span goes to the end of the
grid, then there are lines of it behind those that come in. -/
def Recovers (s : Span) (start count : Nat) : Prop :=
  s.Fits start count ∧ (s.last = endless → start + count ≤ endless)

instance (s : Span) (start count : Nat) : Decidable (s.Recovers start count) :=
  inferInstanceAs (Decidable (_ ∧ _))

variable {s t : Span} {start count : Nat}

theorem ext_ends (h : s.first = t.first) (h' : s.last = t.last) : s = t := by
  cases s
  cases t
  cases h
  cases h'
  rfl

theorem first_afterInsert (h : s.Fits start count) :
    (s.afterInsert start count).first = if start ≤ s.first then s.first + count else s.first := by
  have hle := s.first_le_last
  unfold Fits at h
  unfold afterInsert between pushed
  grind

theorem last_afterInsert (h : s.Fits start count) :
    (s.afterInsert start count).last =
      if start ≤ s.last ∧ s.last ≠ endless then s.last + count else s.last := by
  have hle := s.first_le_last
  unfold Fits at h
  unfold afterInsert between pushed
  grind

/-- A span comes back. -/
theorem afterRemove?_afterInsert (h : s.Recovers start count) :
    (s.afterInsert start count).afterRemove? start count = some s := by
  have hle := s.first_le_last
  have hfirst := first_afterInsert h.1
  have hlast := last_afterInsert h.1
  have hle' := (s.afterInsert start count).first_le_last
  unfold Recovers Fits at h
  by_cases hc : count = 0 ∨ s.last < start
  · have hsame : s.afterInsert start count = s := if_pos hc
    rw [hsame]
    exact if_pos hc
  · have hpulled : pulled (s.afterInsert start count).last count = s.last := by
      unfold pulled
      grind
    unfold afterRemove? lastRemoved
    dsimp only
    rw [if_neg (by grind), hpulled]
    split
    · exact congrArg some (ext_ends (by unfold between; grind) (by unfold between; grind))
    · rw [if_neg (by grind), if_pos (by grind)]
      exact congrArg some (ext_ends (by unfold between; grind) (by unfold between; grind))

theorem afterInsert_inj (hs : s.Recovers start count) (ht : t.Recovers start count)
    (h : s.afterInsert start count = t.afterInsert start count) : s = t := by
  have hback := afterRemove?_afterInsert hs
  rw [h, afterRemove?_afterInsert ht] at hback
  exact (Option.some.inj hback).symm

/-- An insertion brings no spans together. -/
theorem touches_of_afterInsert (hs : s.Fits start count) (ht : t.Fits start count)
    (h : (s.afterInsert start count).touches (t.afterInsert start count) = true) :
    s.touches t = true := by
  have hles := s.first_le_last
  have hlet := t.first_le_last
  unfold touches at h ⊢
  rw [first_afterInsert hs, first_afterInsert ht, last_afterInsert hs, last_afterInsert ht] at h
  unfold Fits at hs ht
  simp only [Bool.and_eq_true, decide_eq_true_eq] at h ⊢
  grind

end Span

namespace Edit

variable {axis : Axis} {start count : Nat}

theorem position?_remove {p q : Position} (h : (insert axis start count).position? p = some q) :
    (remove axis start count).position? q = some p := by
  obtain ⟨hi, ho⟩ := position?_eq_some.mp h
  exact position?_eq_some.mpr ⟨closed?_opened? hi, ho.symm⟩

theorem exists_position?_insert {p : Position}
    (h : start ≤ p.index axis → p.index axis + count < endless) :
    ∃ q, (insert axis start count).position? p = some q := by
  rw [← Option.isSome_iff_exists, position?_isSome]
  show (opened? start count (p.index axis)).isSome = true
  unfold opened?
  grind

end Edit

namespace Region

variable {r s : Region} {axis : Axis} {start count : Nat}

theorem afterRemove?_afterInsert (h : (r.span axis).Recovers start count) :
    (r.afterInsert axis start count).afterRemove? axis start count = some r := by
  unfold afterInsert afterRemove?
  rw [span_withSpan, Span.afterRemove?_afterInsert h, Option.map_some]
  refine congrArg some (ext_along axis (span_withSpan ..) ?_)
  rw [span_withSpan_other, span_withSpan_other]

/-- Regions form a larger one when they have the same lines along one axis and touch along the
other. -/
theorem merged?_isSome : (r.merged? s).isSome = true ↔
    ∃ axis : Axis, r.span axis.other = s.span axis.other ∧
      (r.span axis).touches (s.span axis) = true := by
  unfold merged?
  constructor
  · intro h
    split at h
    · next hor =>
      obtain h | h := hor
      · exact ⟨.row, h⟩
      · exact ⟨.column, h⟩
    · cases h
  · intro h
    obtain ⟨axis, h⟩ := h
    rw [if_pos]
    · rfl
    · cases axis with
      | row => exact .inl h
      | column => exact .inr h

/-- An insertion makes no two regions form a larger one that did not before. -/
theorem merged?_of_afterInsert (hr : (r.span axis).Recovers start count)
    (hs : (s.span axis).Recovers start count)
    (h : ((r.afterInsert axis start count).merged? (s.afterInsert axis start count)).isSome = true) :
    (r.merged? s).isSome = true := by
  obtain ⟨along, hother, htouch⟩ := merged?_isSome.mp h
  refine merged?_isSome.mpr ⟨along, ?_⟩
  unfold afterInsert at hother htouch
  by_cases haxis : along = axis
  · subst haxis
    rw [span_withSpan_other, span_withSpan_other] at hother
    rw [span_withSpan, span_withSpan] at htouch
    exact ⟨hother, Span.touches_of_afterInsert hr.1 hs.1 htouch⟩
  · obtain rfl := Axis.eq_other_of_ne haxis
    rw [Axis.other_other] at hother ⊢
    rw [span_withSpan, span_withSpan] at hother
    rw [span_withSpan_other, span_withSpan_other] at htouch
    exact ⟨Span.afterInsert_inj hr hs hother, htouch⟩

end Region

/-! ## Places -/

namespace Place

variable {p : Place} {axis : Axis} {start count : Nat} {m : Mark}

theorem withMark_withMark (p : Place) (axis : Axis) (m n : Mark) :
    (p.withMark axis m).withMark axis n = p.withMark axis n := by
  cases p <;> cases axis <;> rfl

theorem withMark_self (h : p.mark? axis = some m) (hfree : m.fixed = false) :
    p.withMark axis ⟨m.index, false⟩ = p := by
  obtain ⟨index, fixed⟩ := m
  cases hfree
  cases p <;> cases axis <;> cases h <;> rfl

theorem mark?_invalidated (p : Place) (axis : Axis) : p.invalidated.mark? axis = p.mark? axis := by
  cases p <;> cases axis <;> rfl

theorem afterRemove_afterInsert (hfree : ∀ m ∈ p.mark? axis, m.fixed = false)
    (hfits : ∀ m ∈ p.mark? axis, start ≤ m.index → m.index + count ≤ limit axis) (hc : count ≠ 0)
    (hstart : start ≤ endless) :
    (p.afterInsert axis start count).afterRemove axis start count = p := by
  cases hm : p.mark? axis with
  | none =>
    have hsame : p.afterInsert axis start count = p :=
      Edit.place_of_none (e := .insert axis start count) hm
    rw [hsame]
    exact Edit.place_of_none (e := .remove axis start count) hm
  | some m =>
    have hfixed := hfree m hm
    have hroom := hfits m hm
    have hlimit := limit_lt axis
    obtain ⟨index, fixed⟩ := m
    cases hfixed
    dsimp only at hroom
    by_cases hmoves : start ≤ index
    · have hinsert : p.afterInsert axis start count = p.withMark axis ⟨index + count, false⟩ := by
        simp only [afterInsert, movedBy, hm]
        rw [if_pos ⟨hmoves, by simp⟩, if_neg (by simp; omega), if_neg (by omega)]
        rfl
      rw [hinsert]
      simp only [afterRemove, movedBy, Span.lastRemoved, mark?_withMark hm]
      rw [if_neg (by omega), if_pos ⟨by omega, by simp⟩, if_neg (by simp; omega),
        if_neg (by omega), withMark_withMark]
      have hback : ((index + count : Nat) + -(count : Int)).toNat = index := by omega
      rw [hback]
      exact withMark_self hm rfl
    · have hinsert : p.afterInsert axis start count = p := by
        simp only [afterInsert, hm]
        exact if_neg fun h => hmoves h.1
      rw [hinsert]
      unfold afterRemove Span.lastRemoved
      rw [hm]
      dsimp only
      rw [if_neg (by omega), if_neg (by omega)]

end Place

/-! ## References -/

namespace Target

/-- The ends of a range are in order, as they are in all ranges that are read or made. -/
def IsSorted : Target → Prop
  | range a b => between a b = range a b
  | place _ | name _ => True

/-- No coordinate is pushed off the grid, and a range to the end of the grid has lines behind those
that come in. -/
def Recovers (axis : Axis) (start count : Nat) : Target → Prop
  | range a b => ∀ m ∈ a.mark? axis, ∀ n ∈ b.mark? axis,
      (Span.between m.index n.index).Recovers start count
  | place p => (place p).Fits axis start count
  | name _ => True

instance : DecidablePred IsSorted := fun t =>
  match t with
  | range a b => inferInstanceAs (Decidable (between a b = range a b))
  | place _ | name _ => isTrue trivial

instance (axis : Axis) (start count : Nat) : DecidablePred (Recovers axis start count) := fun t =>
  match t with
  | range a b => inferInstanceAs (Decidable (∀ m ∈ a.mark? axis, ∀ n ∈ b.mark? axis,
      (Span.between m.index n.index).Recovers start count))
  | place p => inferInstanceAs (Decidable ((place p).Fits axis start count))
  | name _ => isTrue trivial

variable {a b : Place} {axis : Axis} {start count : Nat} {m n : Mark} {t : Target}

theorem isSorted_range : (range a b).IsSorted ↔ ∀ axis, SortedAlong axis (a, b) :=
  between_eq_range_iff

theorem isSorted_between (a b : Place) : (between a b).IsSorted := by
  obtain ⟨p, q, hpq, -, hsorted⟩ := exists_between a b
  rw [hpq]
  exact isSorted_range.mpr hsorted

theorem isSorted_invalidated (h : t.IsSorted) : t.invalidated.IsSorted := by
  cases t with
  | range a b =>
    refine isSorted_range.mpr fun axis m n hm hn => ?_
    rw [Place.mark?_invalidated] at hm hn
    exact isSorted_range.mp h axis m n hm hn
  | place p => trivial
  | name n => trivial

/-- What a step leaves of a range is between sorted places again. -/
theorem isSorted_revised (v : Revision) (h : t.IsSorted) : (v.target t).IsSorted := by
  cases v with
  | copy rows columns =>
    cases t with
    | place p => trivial
    | range a b => exact isSorted_between _ _
    | name n => trivial
  | edit e =>
    unfold Revision.target
    dsimp only
    split
    · exact h
    · cases t with
      | place p =>
        rw [Edit.target_place]
        trivial
      | range a b =>
        obtain hr | hr | ⟨m, n, s, -, -, -, hr⟩ := e.target_range_cases a b
        · rwa [hr]
        · rw [hr]
          exact isSorted_invalidated h
        · rw [hr, stretched_eq]
          exact isSorted_between _ _
      | name n =>
        rw [Edit.target_name]
        trivial

/-- A sorted range with other ends along an axis, which are in order too, is between them. -/
theorem between_withMark (h : (range a b).IsSorted) (hm : a.mark? axis = some m)
    (hn : b.mark? axis = some n) {k l : Mark} (hkl : k.index ≤ l.index) :
    between (a.withMark axis k) (b.withMark axis l) =
      range (a.withMark axis k) (b.withMark axis l) := by
  refine isSorted_range.mpr fun along => ?_
  intro k' l' hk' hl'
  by_cases haxis : along = axis
  · subst haxis
    rw [Place.mark?_withMark hm] at hk'
    rw [Place.mark?_withMark hn] at hl'
    cases hk'
    cases hl'
    exact hkl
  · obtain rfl := Axis.eq_other_of_ne haxis
    rw [Place.mark?_withMark_other] at hk' hl'
    exact isSorted_range.mp h _ k' l' hk' hl'

/-- A free range comes back. -/
theorem afterRemove_afterInsert_range (hsorted : (range a b).IsSorted)
    (hm : a.mark? axis = some m) (hn : b.mark? axis = some n) (hfm : m.fixed = false)
    (hfn : n.fixed = false) (h : (Span.between m.index n.index).Recovers start count) :
    ((range a b).afterInsert axis start count).afterRemove axis start count = range a b := by
  have hle : m.index ≤ n.index := isSorted_range.mp hsorted axis m n hm hn
  have hfree {c : Place} {k : Mark} (hk : k.fixed = false) (i : Nat) :
      stretchedEnd c axis k i = c.withMark axis ⟨i, false⟩ := if_neg (by simp [hk])
  have hbetween {s : Span} : Span.between s.first s.last = s :=
    Span.ext_ends (Nat.min_eq_left s.first_le_last) (Nat.max_eq_right s.first_le_last)
  obtain ⟨s, hs⟩ : ∃ s, s = (Span.between m.index n.index).afterInsert start count := ⟨_, rfl⟩
  have hback : s.afterRemove? start count = some (Span.between m.index n.index) :=
    hs ▸ Span.afterRemove?_afterInsert h
  have hinsert : (range a b).afterInsert axis start count =
      range (a.withMark axis ⟨s.first, false⟩) (b.withMark axis ⟨s.last, false⟩) := by
    have ht : (range a b).afterInsert axis start count = stretched a b axis m n _ :=
      Edit.target_range (e := .insert axis start count) hm hn
    rw [ht, ← hs, stretched_eq, hfree hfm, hfree hfn]
    exact between_withMark hsorted hm hn s.first_le_last
  have hremove := Edit.target_range (e := .remove axis start count)
    (Place.mark?_withMark hm ⟨s.first, false⟩) (Place.mark?_withMark hn ⟨s.last, false⟩)
  have hspan : Edit.span? (.remove axis start count) (.between s.first s.last) =
      some (.between m.index n.index) := by
    rw [hbetween]
    exact hback
  have hfirst : (Span.between m.index n.index).first = m.index := Nat.min_eq_left hle
  have hlast : (Span.between m.index n.index).last = n.index := Nat.max_eq_right hle
  rw [hinsert]
  refine hremove.trans ?_
  rw [hspan]
  show stretched _ _ axis _ _ _ = _
  rw [stretched_eq, hfree rfl, hfree rfl, Place.withMark_withMark, Place.withMark_withMark, hfirst,
    hlast, Place.withMark_self hm hfm, Place.withMark_self hn hfn]
  exact hsorted

theorem afterRemove_afterInsert (hsorted : t.IsSorted) (hfree : t.FreeAlong axis)
    (h : t.Recovers axis start count) (hc : count ≠ 0) (hstart : start ≤ endless) :
    (t.afterInsert axis start count).afterRemove axis start count = t := by
  cases t with
  | place p => exact congrArg place (Place.afterRemove_afterInsert hfree h hc hstart)
  | name n => rfl
  | range a b =>
    obtain hnone | ⟨m, n, hm, hn⟩ := marks_cases a b axis
    · have hinsert : (range a b).afterInsert axis start count = range a b :=
        Edit.target_range_of_none (e := .insert axis start count) hnone
      rw [hinsert]
      exact Edit.target_range_of_none (e := .remove axis start count) hnone
    · exact afterRemove_afterInsert_range hsorted hm hn (hfree.1 m hm) (hfree.2 n hn)
        (h m hm n hn)

theorem isValid_afterInsert (hv : t.isValid = true) (h : t.Recovers axis start count) :
    (t.afterInsert axis start count).isValid = true := by
  cases t with
  | place p => exact isValid_afterInsert_place hv h
  | name n => rfl
  | range a b =>
    unfold afterInsert
    dsimp only
    split
    · rw [isValid_stretched]
      exact hv
    · exact hv

end Target

namespace Reference

/-- The ranges in the reference are sorted. -/
def IsSorted (r : Reference) : Prop := ∀ t ∈ r.targets, t.IsSorted

/-- The reference has no `$` on the edited axis, and nothing of it is pushed off the grid; or it is
gone already. -/
def Recovers (r : Reference) (axis : Axis) (start count : Nat) : Prop :=
  r.isValid = true → ∀ t ∈ r.targets, t.FreeAlong axis ∧ t.Recovers axis start count

instance : DecidablePred IsSorted := fun r =>
  inferInstanceAs (Decidable (∀ t ∈ r.targets, t.IsSorted))

instance (axis : Axis) (start count : Nat) : DecidablePred fun r : Reference =>
    r.Recovers axis start count := fun r =>
  inferInstanceAs (Decidable (r.isValid = true →
    ∀ t ∈ r.targets, t.FreeAlong axis ∧ t.Recovers axis start count))

variable {r : Reference} {axis : Axis} {start count : Nat}

theorem isSorted_revised (v : Revision) (h : r.IsSorted) : (v.reference r).IsSorted := by
  obtain hr | ⟨-, hr⟩ := v.reference_cases r
  · intro t ht
    rw [hr, targets_map] at ht
    obtain ⟨t', ht', rfl⟩ := List.mem_map.mp ht
    exact Target.isSorted_revised v (h t' ht')
  · rwa [hr]

/-- A reference comes back. -/
theorem afterRemove_afterInsert (hsorted : r.IsSorted) (h : r.Recovers axis start count)
    (hc : count ≠ 0) (hstart : start ≤ endless) :
    (r.afterInsert axis start count).afterRemove axis start count = r := by
  cases hv : r.isValid with
  | false =>
    have hinsert : r.afterInsert axis start count = r :=
      Edit.reference_of_not_valid (e := .insert axis start count) hv
    rw [hinsert]
    exact Edit.reference_of_not_valid (e := .remove axis start count) hv
  | true =>
    have hinsert : r.afterInsert axis start count = r.map (.afterInsert axis start count) :=
      Edit.reference_eq (e := .insert axis start count) hc hv
    have hvalid : (r.map (.afterInsert axis start count)).isValid = true := by
      rw [isValid, targets_map, List.all_map]
      exact List.all_eq_true.mpr fun t ht =>
        Target.isValid_afterInsert (List.all_eq_true.mp hv t ht) (h hv t ht).2
    rw [hinsert]
    refine (Edit.reference_eq (e := .remove axis start count) hc hvalid).trans ?_
    rw [map_map]
    exact map_eq_self r fun t ht => Target.afterRemove_afterInsert (hsorted t ht) (h hv t ht).1
      (h hv t ht).2 hc hstart

end Reference

end Spreadsheet
