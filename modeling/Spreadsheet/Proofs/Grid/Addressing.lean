import Spreadsheet.Proofs.Grid.Revising

/-! References whose coordinates are numbers that lines can have. Edits and copies keep them so,
valid or not, and no region that they stand for starts beyond the grid. -/

namespace Spreadsheet

namespace Place

/-- Each coordinate is a number that a line can have. -/
def Addressable (p : Place) : Prop := ∀ axis, ∀ m ∈ p.mark? axis, m.index ≤ endless

instance : DecidablePred Addressable := fun p =>
  decidable_of_iff
    ((∀ m ∈ p.mark? .row, m.index ≤ endless) ∧ ∀ m ∈ p.mark? .column, m.index ≤ endless)
    ⟨fun h axis => match axis with
      | .row => h.1
      | .column => h.2, fun h => ⟨h .row, h .column⟩⟩

theorem InGrid.addressable {p : Place} (h : p.InGrid) : p.Addressable := fun axis m hm =>
  (h.le_limit axis m hm).trans (limit_lt axis).le

namespace Addressable

variable {p q : Place}

theorem withMark (h : p.Addressable) {axis : Axis} {m : Mark} (hm : m.index ≤ endless) :
    (p.withMark axis m).Addressable := by
  intro other n hn
  obtain ⟨-, rfl⟩ | hn := mark?_withMark_eq_some hn
  · exact hm
  · exact h other n hn

theorem invalidated (h : p.Addressable) : p.invalidated.Addressable := by
  intro axis m hm
  have hsame : p.invalidated.mark? axis = p.mark? axis := by cases p <;> cases axis <;> rfl
  exact h axis m (hsame ▸ hm)

theorem becomes (h : p.Addressable) (hpq : p.Becomes q) : q.Addressable := by
  cases hpq with
  | same => exact h
  | lost => exact h.invalidated
  | @moved axis m n _ le => exact h.withMark (le.trans (limit_lt axis).le)

theorem shifted (h : p.Addressable) (rows columns : Int) : (p.shifted rows columns).Addressable :=
  (h.becomes (p.becomes_movedBy .row rows)).becomes (becomes_movedBy _ .column columns)

theorem cells (h : p.Addressable) (axis : Axis) : (p.cells.span axis).first ≤ endless := by
  cases p with
  | cell row column valid =>
    cases axis with
    | row => exact h .row row rfl
    | column => exact h .column column rfl
  | column column valid =>
    cases axis with
    | row => exact Nat.zero_le _
    | column => exact h .column column rfl
  | row row valid =>
    cases axis with
    | row => exact h .row row rfl
    | column => exact Nat.zero_le _

end Addressable

end Place

namespace Target

/-- The coordinates are numbers that lines can have. -/
def Addressable : Target → Prop
  | place p => p.Addressable
  | range a b => a.Addressable ∧ b.Addressable
  | name _ => True

instance : DecidablePred Addressable := fun t =>
  match t with
  | place p => inferInstanceAs (Decidable p.Addressable)
  | range a b => inferInstanceAs (Decidable (a.Addressable ∧ b.Addressable))
  | name _ => isTrue trivial

theorem addressable_between {a b : Place} (ha : a.Addressable) (hb : b.Addressable) :
    (between a b).Addressable := by
  obtain ⟨p, q, hpq, h, -⟩ := exists_between a b
  have hmarks axis := h.forall_mark (ha axis) (hb axis)
  rw [hpq]
  exact ⟨fun axis => (hmarks axis).1, fun axis => (hmarks axis).2⟩

theorem addressable_stretchedEnd {a : Place} (h : a.Addressable) (axis : Axis) (m : Mark) {i : Nat}
    (hi : i ≤ endless) : (stretchedEnd a axis m i).Addressable := by
  unfold stretchedEnd
  split
  · exact h
  · exact h.withMark hi

theorem Addressable.region? {t : Target} (h : t.Addressable) {g : Region} (hg : t.region? = some g)
    (axis : Axis) : (g.span axis).first ≤ endless := by
  unfold Target.region? at hg
  split at hg
  · cases t with
    | place p =>
      cases hg
      exact Place.Addressable.cells h axis
    | range a b =>
      cases hg
      rw [Region.span_hull]
      exact (Nat.min_le_left _ _).trans (h.1.cells axis)
    | name n => cases hg
  · cases hg

end Target

namespace Revision

theorem addressable_target (v : Revision) {t : Target} (h : t.Addressable) :
    (v.target t).Addressable := by
  cases v with
  | copy rows columns =>
    cases t with
    | place p => exact Place.Addressable.shifted h rows columns
    | range a b =>
      exact Target.addressable_between (h.1.shifted rows columns) (h.2.shifted rows columns)
    | name n => trivial
  | edit e =>
    rw [target]
    split
    · exact h
    · cases t with
      | place p =>
        rw [Edit.target_place]
        exact Place.Addressable.becomes h (e.becomes_place p)
      | range a b =>
        obtain hr | hr | ⟨m, n, s, hm, hn, hs, hr⟩ := e.target_range_cases a b
        · rw [hr]
          exact h
        · rw [hr]
          exact ⟨h.1.invalidated, h.2.invalidated⟩
        · have hlast : s.last ≤ endless :=
            (Edit.span?_last (Nat.max_le.mpr ⟨h.1 _ m hm, h.2 _ n hn⟩) hs).1
          rw [hr, Target.stretched_eq]
          exact Target.addressable_between
            (Target.addressable_stretchedEnd h.1 _ m (s.first_le_last.trans hlast))
            (Target.addressable_stretchedEnd h.2 _ n hlast)
      | name n => cases e <;> trivial

end Revision

namespace Reference

/-- The coordinates of all that the reference points at are numbers that lines can have. -/
def Addressable (r : Reference) : Prop := ∀ t ∈ r.targets, t.Addressable

instance : DecidablePred Addressable := fun r =>
  inferInstanceAs (Decidable (∀ t ∈ r.targets, t.Addressable))

theorem Addressable.revised {r : Reference} (h : r.Addressable) (v : Revision) :
    (v.reference r).Addressable := by
  obtain hr | ⟨-, hr⟩ := v.reference_cases r
  · rw [hr]
    intro t ht
    rw [targets_map, List.mem_map] at ht
    obtain ⟨t', ht', rfl⟩ := ht
    exact v.addressable_target (h t' ht')
  · rw [hr]
    exact h

/-- What is joined to a region leaves it no later start. -/
theorem first_hullOf?_le {start g : Region} {rs : List Reference} (h : hullOf? start rs = some g)
    (axis : Axis) : (g.span axis).first ≤ (start.span axis).first := by
  induction rs generalizing start with
  | nil =>
    cases h
    exact le_rfl
  | cons r rs ih =>
    obtain ⟨g', -, hrest⟩ := Option.bind_eq_some_iff.mp h
    refine (ih hrest).trans ?_
    rw [Region.span_hull]
    exact Nat.min_le_left _ _

theorem Addressable.first_hull? {g : Region} (axis : Axis) :
    ∀ {r : Reference}, r.Addressable → r.hull? = some g → (g.span axis).first ≤ endless
  | single t, h, hg => Target.Addressable.region? (h t (List.mem_singleton_self t)) hg axis
  | union [], _, hg => nomatch hg
  | union (r :: rest), h, hg => by
    obtain ⟨start, hstart, hrest⟩ := Option.bind_eq_some_iff.mp hg
    exact (first_hullOf?_le hrest axis).trans
      (first_hull? axis (fun t ht => h t (List.mem_append_left _ ht)) hstart)

theorem Addressable.region? {r : Reference} (h : r.Addressable) {g : Region}
    (hg : r.region? = some g) (axis : Axis) : (g.span axis).first ≤ endless := by
  unfold Reference.region? at hg
  split at hg
  · exact h.first_hull? axis hg
  · cases hg

end Reference

end Spreadsheet
