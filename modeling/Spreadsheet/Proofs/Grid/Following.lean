import Spreadsheet.Proofs.Grid.Carrying

/-! References that follow their cells. Where no coordinate is fixed and nothing is pushed against
the end of the grid, what a reference denotes after an edit is what is left of what it denoted
before, no cell more and no cell less. It is lost exactly if all of its lines are removed. -/

namespace Spreadsheet

namespace Region

@[simp] theorem span_withSpan (r : Region) (axis : Axis) (s : Span) :
    (r.withSpan axis s).span axis = s := by
  cases axis <;> rfl

@[simp] theorem span_withSpan_other (r : Region) (axis : Axis) (s : Span) :
    (r.withSpan axis s).span axis.other = r.span axis.other := by
  cases axis <;> rfl

theorem ext_along {r s : Region} (axis : Axis) (h : r.span axis = s.span axis)
    (h' : r.span axis.other = s.span axis.other) : r = s := by
  refine ext_span fun axis' => ?_
  cases axis <;> cases axis' <;> assumption

end Region

theorem Span.contains_single (i j : Nat) : (single i).contains j = true ↔ j = i := by
  unfold contains single
  simp only [Bool.and_eq_true, decide_eq_true_eq]
  omega

namespace Edit

/-- The cells of `g'` after the edit are those that were in `g` before. -/
def Follows (e : Edit) (g g' : Region) : Prop :=
  ∀ p q, p.OnGrid → e.position? p = some q → (g'.contains q = true ↔ g.contains p = true)

/-! ## Spans -/

variable {e : Edit} {s s' : Span} {start count : Nat}

theorem afterRemove?_contains {i j : Nat} (hc : count ≠ 0) (hs : s.last ≤ endless)
    (hs' : s.afterRemove? start count = some s') (hi : closed? start count i = some j)
    (hsi : s.contains i = true) : s'.contains j = true := by
  have hle := s.first_le_last
  have hij := closed?_eq_some hi
  have hcases := afterRemove?_cases hc hs hs'
  unfold Span.contains at hsi ⊢
  simp only [Bool.and_eq_true, decide_eq_true_eq] at hsi ⊢
  omega

theorem afterInsert_contains {i j : Nat} (hs : s.last ≤ endless)
    (hi : opened? start count i = some j) (hsi : s.contains i = true) :
    (s.afterInsert start count).contains j = true := by
  have hle := s.first_le_last
  unfold opened? at hi
  unfold Span.contains at hsi ⊢
  unfold Span.afterInsert Span.between Span.pushed
  simp only [Bool.and_eq_true, decide_eq_true_eq] at hsi ⊢
  grind

/-- A line is in a span afterwards exactly if it was in it before. -/
theorem contains_span?_iff {i j : Nat} (hc : e.count ≠ 0) (hs : s.last ≤ endless)
    (hroom : e.HasRoom s) (hgrid : i ≤ endless) (hs' : e.span? s = some s')
    (hi : e.index? i = some j) : s'.contains j = true ↔ s.contains i = true := by
  refine ⟨contains_of_span? hc hs hroom hgrid hs' hi, fun hsi => ?_⟩
  cases e with
  | insert axis start count =>
    cases hs'
    exact afterInsert_contains hs hi hsi
  | remove axis start count => exact afterRemove?_contains hc hs hs' hi hsi

/-- Nothing is left of a span exactly if all of it is removed. -/
theorem afterRemove?_eq_none (hc : count ≠ 0) (hs : s.last ≤ endless) :
    s.afterRemove? start count = none ↔
      ∀ i, s.contains i = true → start ≤ i ∧ i < start + count := by
  have hle := s.first_le_last
  have hall : (∀ i, s.contains i = true → start ≤ i ∧ i < start + count) ↔
      start ≤ s.first ∧ s.last < start + count := by
    simp only [Span.contains, Bool.and_eq_true, decide_eq_true_eq]
    constructor
    · intro h
      exact ⟨(h s.first ⟨Nat.le_refl _, hle⟩).1, (h s.last ⟨hle, Nat.le_refl _⟩).2⟩
    · intro h i hi
      omega
  rw [hall]
  cases hs' : s.afterRemove? start count with
  | none =>
    unfold Span.afterRemove? Span.lastRemoved at hs'
    dsimp only at hs'
    grind
  | some s' =>
    have hcases := afterRemove?_cases hc hs hs'
    simp only [reduceCtorEq, false_iff]
    omega

/-- To remove every line takes one line more than there are numbers for. -/
theorem not_removed_of_all (h : ∀ i, i ≤ endless → s.contains i = true) (hcount : count ≤ endless) :
    ¬ ∀ i, s.contains i = true → start ≤ i ∧ i < start + count := by
  intro hall
  have hfirst := hall 0 (h 0 (Nat.zero_le _))
  have hlast := hall endless (h endless (Nat.le_refl _))
  omega

/-- A region follows when its lines do. -/
theorem follows_of_span {g g' : Region} (hother : g'.span e.axis.other = g.span e.axis.other)
    (halong : ∀ i j, i ≤ endless → e.index? i = some j →
      ((g'.span e.axis).contains j = true ↔ (g.span e.axis).contains i = true)) :
    e.Follows g g' := by
  intro p q hp hpq
  obtain ⟨hi, ho⟩ := position?_eq_some.mp hpq
  rw [Region.contains_iff g' q e.axis, Region.contains_iff g p e.axis, hother, ho,
    halong _ _ (hp.index_le _) hi]

end Edit

/-! ## Targets -/

/-- What an insertion pushes on stays on the grid, except that a span to its end goes on to it. -/
def Span.Fits (s : Span) (start count : Nat) : Prop :=
  (start ≤ s.first → s.first + count < endless) ∧
    (start ≤ s.last → s.last = endless ∨ s.last + count < endless)

instance (s : Span) (start count : Nat) : Decidable (s.Fits start count) :=
  inferInstanceAs (Decidable (_ ∧ _))

namespace Target

/-- The coordinates along the axis have no `$`. -/
def FreeAlong (axis : Axis) : Target → Prop
  | place p => ∀ m ∈ p.mark? axis, m.fixed = false
  | range a b =>
    (∀ m ∈ a.mark? axis, m.fixed = false) ∧ ∀ m ∈ b.mark? axis, m.fixed = false
  | name _ => True

/-- The coordinates along the axis are numbers that a line can have, and a single place is in no
column without a name. -/
def OnGrid (axis : Axis) : Target → Prop
  | place p => ∀ m ∈ p.mark? axis, m.index ≤ endless ∧ (axis = .column → m.index ≤ lastColumn)
  | range a b => (∀ m ∈ a.mark? axis, m.index ≤ endless) ∧ ∀ m ∈ b.mark? axis, m.index ≤ endless
  | name _ => True

/-- No coordinate is pushed off the grid when `count` lines come in at line `start`. -/
def Fits (axis : Axis) (start count : Nat) : Target → Prop
  | place p => ∀ m ∈ p.mark? axis, start ≤ m.index → m.index + count ≤ Place.limit axis
  | range a b => ∀ m ∈ a.mark? axis, ∀ n ∈ b.mark? axis,
      (Span.between m.index n.index).Fits start count
  | name _ => True

instance (axis : Axis) : DecidablePred (FreeAlong axis) := fun t =>
  match t with
  | place p => inferInstanceAs (Decidable (∀ m ∈ p.mark? axis, m.fixed = false))
  | range a b => inferInstanceAs (Decidable
      ((∀ m ∈ a.mark? axis, m.fixed = false) ∧ ∀ m ∈ b.mark? axis, m.fixed = false))
  | name _ => isTrue trivial

instance (axis : Axis) : DecidablePred (OnGrid axis) := fun t =>
  match t with
  | place p => inferInstanceAs (Decidable
      (∀ m ∈ p.mark? axis, m.index ≤ endless ∧ (axis = .column → m.index ≤ lastColumn)))
  | range a b => inferInstanceAs (Decidable
      ((∀ m ∈ a.mark? axis, m.index ≤ endless) ∧ ∀ m ∈ b.mark? axis, m.index ≤ endless))
  | name _ => isTrue trivial

instance (axis : Axis) (start count : Nat) : DecidablePred (Fits axis start count) := fun t =>
  match t with
  | place p => inferInstanceAs
    (Decidable (∀ m ∈ p.mark? axis, start ≤ m.index → m.index + count ≤ Place.limit axis))
  | range a b => inferInstanceAs (Decidable (∀ m ∈ a.mark? axis, ∀ n ∈ b.mark? axis,
      (Span.between m.index n.index).Fits start count))
  | name _ => isTrue trivial

variable {a b : Place} {axis : Axis} {m n : Mark} {g : Region}

theorem span_hull_cells (hm : a.mark? axis = some m) (hn : b.mark? axis = some n) :
    (a.cells.hull b.cells).span axis = .between m.index n.index := by
  rw [Region.span_hull, Place.span_cells, Place.span_cells, hm, hn]
  exact Span.hull_single ..

/-- A range between free ends is stretched to the lines of a span exactly. -/
theorem region?_stretched (hm : a.mark? axis = some m) (hn : b.mark? axis = some n)
    (hfm : m.fixed = false) (hfn : n.fixed = false) (hg : (range a b).region? = some g) (s : Span) :
    (stretched a b axis m n s).region? = some (g.withSpan axis s) := by
  have hle := s.first_le_last
  have hvalid : (a.isValid && b.isValid) = true := (Option.ite_none_right_eq_some.mp hg).1
  have hends : stretched a b axis m n s =
      between (a.withMark axis ⟨s.first, false⟩) (b.withMark axis ⟨s.last, false⟩) := by
    simp [stretched, hfm, hfn]
  have hspan : Span.between s.first s.last = s := by
    simp only [Span.between, Nat.min_eq_left hle, Nat.max_eq_right hle]
  rw [hends, region?_between, region?_range, Place.isValid_withMark, Place.isValid_withMark,
    if_pos hvalid, eq_hull_of_region? hg]
  refine congrArg some (Region.ext_along axis ?_ ?_)
  · rw [Region.span_withSpan, Region.span_hull, Place.span_cells, Place.span_cells,
      Place.mark?_withMark hm, Place.mark?_withMark hn]
    exact (Span.hull_single ..).trans hspan
  · rw [Region.span_withSpan_other, Region.span_hull, Region.span_hull]
    simp only [Place.span_cells, Place.mark?_withMark_other]

end Target

/-! ## Edits -/

namespace Edit

variable {e : Edit} {a b p : Place} {m n : Mark} {g : Region}

/-- What is on every line is there before and after. -/
theorem follows_of_all (h : ∀ i, i ≤ endless → (g.span e.axis).contains i = true) :
    e.Follows g g :=
  follows_of_span rfl fun i j hi hij => iff_of_true (h j (index?_le hij hi)) (h i hi)

theorem leavesFixed (h : m.fixed = false) : e.LeavesFixed m := fun hf => by
  rw [h] at hf
  contradiction

/-- A free place that is not lost follows its cells. -/
theorem place_follows (hc : e.count ≠ 0) (hgrid : ∀ m ∈ p.mark? e.axis, m.index ≤ endless)
    (hfree : ∀ m ∈ p.mark? e.axis, m.fixed = false) (hv : (e.place p).isValid = true) :
    e.Follows p.cells (e.place p).cells := by
  cases hm : p.mark? e.axis with
  | none =>
    rw [place_of_none hm]
    exact follows_of_all fun i hi => Place.contains_of_none hm hi
  | some m =>
    obtain ⟨hother, m', hm', hi⟩ :=
      place_spec hc hm (hgrid m hm) (leavesFixed (hfree m hm)) hv
    refine follows_of_span ?_ fun i j _ hij => ?_
    · rw [Place.span_cells, Place.span_cells, hother]
    · rw [Place.span_cells, Place.span_cells, hm, hm']
      dsimp only
      rw [Span.contains_single, Span.contains_single]
      constructor
      · intro h
        exact index?_inj (h ▸ hij) hi
      · intro h
        rw [h, hi] at hij
        exact (Option.some.inj hij).symm

/-- A range between free ends that is not lost follows its cells. -/
theorem range_follows {s : Span} (hc : e.count ≠ 0) (hm : a.mark? e.axis = some m)
    (hn : b.mark? e.axis = some n) (hgm : m.index ≤ endless) (hgn : n.index ≤ endless)
    (hroom : e.HasRoom (.between m.index n.index))
    (hs : e.span? (.between m.index n.index) = some s) :
    e.Follows (a.cells.hull b.cells) ((a.cells.hull b.cells).withSpan e.axis s) := by
  have hspan := Target.span_hull_cells hm hn
  have hlast : (Span.between m.index n.index).last ≤ endless := Nat.max_le.mpr ⟨hgm, hgn⟩
  refine follows_of_span (Region.span_withSpan_other ..) fun i j hi hij => ?_
  rw [Region.span_withSpan, hspan]
  exact contains_span?_iff hc hlast hroom hi hs hij

end Edit

namespace Target

variable {t : Target} {g : Region} {axis : Axis} {start count : Nat}

/-- A free place of the grid is lost exactly if its line is removed. -/
theorem isValid_afterRemove_place {p : Place} {m : Mark} (hm : p.mark? axis = some m)
    (hv : p.isValid = true) (hfree : m.fixed = false) (hc : count ≠ 0)
    (hgrid : m.index ≤ endless ∧ (axis = .column → m.index ≤ lastColumn)) :
    (p.afterRemove axis start count).isValid = true ↔
      ¬ (start ≤ m.index ∧ m.index < start + count) := by
  have hlimit : m.index ≤ Place.limit axis + 1 := by
    cases axis with
    | row => exact hgrid.1
    | column => exact Nat.le_succ_of_le (hgrid.2 rfl)
  unfold Place.afterRemove Place.movedBy Span.lastRemoved
  simp only [hm, hfree]
  split
  · rw [Place.isValid_invalidated]
    simp only [Bool.false_eq_true, false_iff]
    omega
  · split
    · rw [if_neg (by simp; omega), if_neg (by omega), Place.isValid_withMark, hv]
      simp only [true_iff]
      omega
    · rw [hv]
      simp only [true_iff]
      omega

theorem isValid_afterInsert_place {p : Place} (hv : p.isValid = true)
    (hfits : ∀ m ∈ p.mark? axis, start ≤ m.index → m.index + count ≤ Place.limit axis) :
    (p.afterInsert axis start count).isValid = true := by
  unfold Place.afterInsert Place.movedBy
  cases hm : p.mark? axis with
  | none => exact hv
  | some m =>
    have hroom := hfits m hm
    dsimp only
    split
    · split
      · exact hv
      · rw [if_neg (by omega), Place.isValid_withMark, hv]
    · exact hv

/-- A reference is lost with the last of the lines of its region, and until then denotes the cells
that a removal leaves of it. -/
def FollowsRemoval (t : Target) (g : Region) (axis : Axis) (start count : Nat) : Prop :=
  (∀ i, (g.span axis).contains i = true → start ≤ i ∧ i < start + count) ∧
      (t.afterRemove axis start count).isValid = false ∨
    (¬ ∀ i, (g.span axis).contains i = true → start ≤ i ∧ i < start + count) ∧
      ∃ g', (t.afterRemove axis start count).region? = some g' ∧
        (Edit.remove axis start count).Follows g g'

/-- What runs along the whole axis stays, whatever is removed. -/
theorem followsRemoval_of_all (hg : t.region? = some g) (hcount : count ≤ endless)
    (hall : ∀ i, i ≤ endless → (g.span axis).contains i = true)
    (ht : t.afterRemove axis start count = t) : t.FollowsRemoval g axis start count := by
  unfold FollowsRemoval
  rw [ht]
  exact .inr ⟨Edit.not_removed_of_all hall hcount, g, hg, Edit.follows_of_all hall⟩

theorem followsRemoval_place {p : Place} {m : Mark} (hv : p.isValid = true)
    (hm : p.mark? axis = some m) (hfree : (place p).FreeAlong axis)
    (hgrid : (place p).OnGrid axis) (hc : count ≠ 0) :
    (place p).FollowsRemoval p.cells axis start count := by
  have hiff : (p.afterRemove axis start count).isValid = true ↔
      ¬ (start ≤ m.index ∧ m.index < start + count) :=
    isValid_afterRemove_place hm hv (hfree m hm) hc (hgrid m hm)
  have hlines : (∀ i, (p.cells.span axis).contains i = true → start ≤ i ∧ i < start + count) ↔
      start ≤ m.index ∧ m.index < start + count := by
    rw [Place.span_cells, hm]
    simp [Span.contains_single]
  unfold FollowsRemoval
  rw [hlines]
  cases hvalid : (p.afterRemove axis start count).isValid with
  | false => exact .inl ⟨by simpa [hvalid] using hiff, hvalid⟩
  | true =>
    exact .inr ⟨hiff.mp hvalid, _, if_pos hvalid,
      Edit.place_follows (e := .remove axis start count) hc (fun m hm => (hgrid m hm).1) hfree
        hvalid⟩

theorem followsRemoval_range {a b : Place} {m n : Mark} (hg : (range a b).region? = some g)
    (hm : a.mark? axis = some m) (hn : b.mark? axis = some n) (hfree : (range a b).FreeAlong axis)
    (hgrid : (range a b).OnGrid axis) (hc : count ≠ 0) :
    (range a b).FollowsRemoval g axis start count := by
  cases eq_hull_of_region? hg
  have hgm := hgrid.1 m hm
  have hgn := hgrid.2 n hn
  have ht := Edit.target_range (e := .remove axis start count) hm hn
  have hends : (Span.between m.index n.index).last ≤ endless := Nat.max_le.mpr ⟨hgm, hgn⟩
  have hremoved : (Span.between m.index n.index).afterRemove? start count = none ↔ _ :=
    Edit.afterRemove?_eq_none hc hends
  unfold FollowsRemoval
  rw [span_hull_cells hm hn, ← hremoved]
  cases hs : (Span.between m.index n.index).afterRemove? start count with
  | none =>
    refine .inl ⟨rfl, ?_⟩
    have hlost : (range a b).afterRemove axis start count = (range a b).invalidated := by
      rw [show Edit.span? (.remove axis start count) _ = none from hs] at ht
      exact ht
    rw [hlost]
    exact isValid_invalidated_range a b
  | some s =>
    have hleft : (range a b).afterRemove axis start count = stretched a b axis m n s := by
      rw [show Edit.span? (.remove axis start count) _ = some s from hs] at ht
      exact ht
    rw [hleft, region?_stretched hm hn (hfree.1 m hm) (hfree.2 n hn) hg]
    exact .inr ⟨nofun, _, rfl,
      Edit.range_follows (e := .remove axis start count) hc hm hn hgm hgn trivial hs⟩

/-- A free reference follows a removal. -/
theorem followsRemoval (hg : t.region? = some g) (hfree : t.FreeAlong axis)
    (hgrid : t.OnGrid axis) (hc : count ≠ 0) (hcount : count ≤ endless) :
    t.FollowsRemoval g axis start count := by
  have hv : t.isValid = true := (Option.ite_none_right_eq_some.mp hg).1
  cases t with
  | name n => cases (Option.ite_none_right_eq_some.mp hg).2
  | place p =>
    cases (Option.ite_none_right_eq_some.mp hg).2
    cases hm : p.mark? axis with
    | none =>
      exact followsRemoval_of_all hg hcount (fun i hi => Place.contains_of_none hm hi)
        (congrArg place (Edit.place_of_none (e := .remove axis start count) hm))
    | some m => exact followsRemoval_place hv hm hfree hgrid hc
  | range a b =>
    obtain hnone | ⟨m, n, hm, hn⟩ := marks_cases a b axis
    · cases eq_hull_of_region? hg
      exact followsRemoval_of_all hg hcount (fun i hi => contains_of_none hnone hi)
        (Edit.target_range_of_none (e := .remove axis start count) hnone)
    · exact followsRemoval_range hg hm hn hfree hgrid hc

/-- A free reference that nothing pushes off the grid denotes the same cells after an insertion. -/
theorem follows_afterInsert (hg : t.region? = some g) (hfree : t.FreeAlong axis)
    (hgrid : t.OnGrid axis) (hc : count ≠ 0) (hfits : t.Fits axis start count) :
    ∃ g', (t.afterInsert axis start count).region? = some g' ∧
      (Edit.insert axis start count).Follows g g' := by
  have hv : t.isValid = true := (Option.ite_none_right_eq_some.mp hg).1
  cases t with
  | name n => cases (Option.ite_none_right_eq_some.mp hg).2
  | place p =>
    cases (Option.ite_none_right_eq_some.mp hg).2
    have hvalid := isValid_afterInsert_place hv hfits
    exact ⟨_, if_pos hvalid, Edit.place_follows (e := .insert axis start count) hc
      (fun m hm => (hgrid m hm).1) hfree hvalid⟩
  | range a b =>
    cases eq_hull_of_region? hg
    obtain hnone | ⟨m, n, hm, hn⟩ := marks_cases a b axis
    · have ht : (range a b).afterInsert axis start count = range a b :=
        Edit.target_range_of_none (e := .insert axis start count) hnone
      rw [ht]
      exact ⟨_, hg, Edit.follows_of_all fun i hi => contains_of_none hnone hi⟩
    · have ht : (range a b).afterInsert axis start count = stretched a b axis m n _ :=
        Edit.target_range (e := .insert axis start count) hm hn
      rw [ht, region?_stretched hm hn (hfree.1 m hm) (hfree.2 n hn) hg]
      exact ⟨_, rfl, Edit.range_follows (e := .insert axis start count) hc hm hn (hgrid.1 m hm)
        (hgrid.2 n hn) (fun h => .inr ((hfits m hm n hn).1 h)) rfl⟩

end Target

end Spreadsheet
