import Spreadsheet.Proofs.Grid.Exchanging

/-! References that move with their cells. After an edit of the grid such a reference denotes no
cell but those that it denoted where they were before. That is so for free coordinates, and for
fixed ones in front of the lines that move; a fixed coordinate behind them stays where other cells
come to lie. -/

namespace Spreadsheet

namespace Edit

/-- The reference denotes nothing after the edit that it did not denote before. -/
def Carries (e : Edit) (r : Reference) : Prop :=
  ∀ p q, p.OnGrid → e.position? p = some q → ∀ g ∈ (e.reference r).regions,
    g.contains q = true → ∃ g ∈ r.regions, g.contains p = true

/-- All coordinates move with their lines. -/
def KeepsTarget (e : Edit) : Target → Prop
  | .place p => ∀ m ∈ p.mark? e.axis, m.index ≤ endless ∧ e.LeavesFixed m
  | .range a b => ∀ m ∈ a.mark? e.axis, ∀ n ∈ b.mark? e.axis,
    m.index ≤ endless ∧ n.index ≤ endless ∧ e.LeavesFixed m ∧ e.LeavesFixed n ∧
      e.HasRoom (.between m.index n.index)
  | .name _ => True

/-- All coordinates move with their lines. A reference part of which is gone does not move at all,
so nothing may be left of it. -/
structure Keeps (e : Edit) (r : Reference) : Prop where
  valid : r.isValid = true → ∀ t ∈ r.targets, e.KeepsTarget t
  invalid : r.isValid = false → r.regions = []

instance (e : Edit) : DecidablePred e.KeepsTarget := fun t =>
  match t with
  | .place p => inferInstanceAs
    (Decidable (∀ m ∈ p.mark? e.axis, m.index ≤ endless ∧ e.LeavesFixed m))
  | .range a b => inferInstanceAs (Decidable (∀ m ∈ a.mark? e.axis, ∀ n ∈ b.mark? e.axis,
    m.index ≤ endless ∧ n.index ≤ endless ∧ e.LeavesFixed m ∧ e.LeavesFixed n ∧
      e.HasRoom (.between m.index n.index)))
  | .name _ => isTrue trivial

instance (e : Edit) : DecidablePred e.Keeps := fun r =>
  decidable_of_iff ((r.isValid = true → ∀ t ∈ r.targets, e.KeepsTarget t) ∧
    (r.isValid = false → r.regions = [])) ⟨fun h => ⟨h.1, h.2⟩, fun h => ⟨h.valid, h.invalid⟩⟩

end Edit

/-! ## Targets -/

theorem Region.contains_iff (r : Region) (p : Position) (axis : Axis) :
    r.contains p = true ↔ (r.span axis).contains (p.index axis) = true ∧
      (r.span axis.other).contains (p.index axis.other) = true := by
  unfold contains
  rw [Bool.and_eq_true]
  cases axis with
  | row => rfl
  | column => exact and_comm

theorem Region.span_hull (r s : Region) (axis : Axis) :
    (r.hull s).span axis = (r.span axis).hull (s.span axis) := by
  cases axis <;> rfl

theorem Region.ext_span {r s : Region} (h : ∀ axis, r.span axis = s.span axis) : r = s := by
  obtain ⟨rows, columns⟩ := r
  obtain ⟨rows', columns'⟩ := s
  cases h .row
  cases h .column
  rfl

theorem Span.contains_all {i : Nat} (h : i ≤ endless) : all.contains i = true := by
  unfold contains all
  simpa using h

theorem Span.contains_hull {s t : Span} {i : Nat} (h : s.contains i = true ∨ t.contains i = true) :
    (s.hull t).contains i = true := by
  unfold contains at h ⊢
  unfold hull
  simp only [Bool.and_eq_true, decide_eq_true_eq] at h ⊢
  omega

theorem Span.hull_single (i j : Nat) : (single i).hull (single j) = between i j := rfl

theorem Span.between_contains_left (i j : Nat) : (between i j).contains i = true := by
  unfold contains between
  simp only [Bool.and_eq_true, decide_eq_true_eq]
  omega

theorem Span.between_contains_right (i j : Nat) : (between i j).contains j = true := by
  unfold contains between
  simp only [Bool.and_eq_true, decide_eq_true_eq]
  omega

/-- A place without a coordinate along an axis is there on every line. -/
theorem Place.contains_of_none {p : Place} {axis : Axis} {i : Nat} (h : p.mark? axis = none)
    (hi : i ≤ endless) : (p.cells.span axis).contains i = true := by
  rw [span_cells, h]
  exact Span.contains_all hi

/-- A span around two lines of another is within it. -/
theorem Span.contains_of_between {s : Span} {i j k : Nat} (hi : s.contains i = true)
    (hj : s.contains j = true) (hk : (between i j).contains k = true) : s.contains k = true := by
  unfold contains between at *
  simp only [Bool.and_eq_true, decide_eq_true_eq] at *
  omega

theorem Span.hull_comm (s t : Span) : s.hull t = t.hull s := by
  unfold hull
  simp [Nat.min_comm, Nat.max_comm]

/-- A range covers the same cells with the coordinates of its ends exchanged. -/
theorem Place.Exchanged.hull_cells {a b p q : Place} (h : Exchanged a b p q) :
    p.cells.hull q.cells = a.cells.hull b.cells := by
  refine Region.ext_span fun axis => ?_
  simp only [Region.span_hull, span_cells]
  obtain ⟨hp, hq⟩ | ⟨hp, hq⟩ := h.marks axis
  · rw [hp, hq]
  · rw [hp, hq, Span.hull_comm]

namespace Target

theorem region?_range (a b : Place) :
    (range a b).region? = if a.isValid && b.isValid then some (a.cells.hull b.cells) else none := rfl

theorem eq_hull_of_region? {a b : Place} {g : Region} (h : (range a b).region? = some g) :
    g = a.cells.hull b.cells := by
  rw [region?_range, Option.ite_none_right_eq_some] at h
  exact (Option.some.inj h.2).symm

theorem region?_invalidated (t : Target) : t.invalidated.region? = none := by
  cases t with
  | name n => rfl
  | place p => exact if_neg (by simp [invalidated, isValid, Place.isValid_invalidated])
  | range a b => exact if_neg (by simp [invalidated, isValid, Place.isValid_invalidated])

theorem isValid_invalidated_range (a b : Place) : (range a b).invalidated.isValid = false := by
  simp [invalidated, isValid, Place.isValid_invalidated]

theorem region?_between (a b : Place) : (between a b).region? = (range a b).region? := by
  obtain ⟨p, q, hpq, h, -⟩ := exists_between a b
  rw [hpq, region?_range, region?_range, h.valid.1, h.valid.2, h.hull_cells]

theorem contains_of_none {a b : Place} {axis : Axis} {i : Nat}
    (h : a.mark? axis = none ∨ b.mark? axis = none) (hi : i ≤ endless) :
    ((a.cells.hull b.cells).span axis).contains i = true := by
  rw [Region.span_hull]
  exact Span.contains_hull (h.imp (Place.contains_of_none · hi) (Place.contains_of_none · hi))

/-- The coordinate of an end whose free coordinate has moved to `i`. -/
theorem mark?_stretched {a : Place} {axis : Axis} {m : Mark} (hm : a.mark? axis = some m) (i : Nat) :
    ∃ m', (if m.fixed then a else a.withMark axis ⟨i, false⟩).mark? axis = some m' ∧
      (m' = m ∧ m.fixed = true ∨ m'.index = i) := by
  split
  · rename_i hf
    exact ⟨m, hm, Or.inl ⟨rfl, hf⟩⟩
  · exact ⟨_, Place.mark?_withMark hm _, Or.inr rfl⟩

theorem mark?_stretched_other (a : Place) (axis : Axis) (m : Mark) (i : Nat) :
    (if m.fixed then a else a.withMark axis ⟨i, false⟩).mark? axis.other = a.mark? axis.other := by
  split
  · rfl
  · exact Place.mark?_withMark_other ..

/-- A range that is stretched along an axis lies within the span it is stretched to, once its fixed
ends do. -/
theorem stretched_spec {a b : Place} {axis : Axis} {m n : Mark} {s : Span} {g : Region}
    (hm : a.mark? axis = some m) (hn : b.mark? axis = some n)
    (hfm : m.fixed = true → s.contains m.index = true)
    (hfn : n.fixed = true → s.contains n.index = true)
    (hg : (stretched a b axis m n s).region? = some g) :
    g.span axis.other = (a.cells.hull b.cells).span axis.other ∧
      ∀ i, (g.span axis).contains i = true → s.contains i = true := by
  have hle := s.first_le_last
  have hfirst : s.contains s.first = true := by unfold Span.contains; simpa using hle
  have hlast : s.contains s.last = true := by unfold Span.contains; simpa using hle
  obtain ⟨m', hm', hmi⟩ := mark?_stretched hm s.first
  obtain ⟨n', hn', hni⟩ := mark?_stretched hn s.last
  have hmo := mark?_stretched_other a axis m s.first
  have hno := mark?_stretched_other b axis n s.last
  unfold stretched at hg
  rw [region?_between] at hg
  rw [eq_hull_of_region? hg, Region.span_hull, Region.span_hull, Region.span_hull]
  simp only [Place.span_cells, hm', hn', hmo, hno, true_and]
  intro i hi
  refine Span.contains_of_between ?_ ?_ hi
  · rcases hmi with ⟨rfl, hf⟩ | hmi
    · exact hfm hf
    · rwa [hmi]
  · rcases hni with ⟨rfl, hf⟩ | hni
    · exact hfn hf
    · rwa [hni]

/-- A range runs along a whole axis or has two ends on it. -/
theorem marks_cases (a b : Place) (axis : Axis) :
    (a.mark? axis = none ∨ b.mark? axis = none) ∨
      ∃ m n, a.mark? axis = some m ∧ b.mark? axis = some n := by
  cases hm : a.mark? axis with
  | none => exact .inl (.inl rfl)
  | some m =>
    cases hn : b.mark? axis with
    | none => exact .inl (.inr rfl)
    | some n => exact .inr ⟨m, n, rfl, rfl⟩

end Target

namespace Edit

def target : Edit → Target → Target
  | insert axis start count, t => t.afterInsert axis start count
  | remove axis start count, t => t.afterRemove axis start count

theorem target_place (e : Edit) (p : Place) : e.target (.place p) = .place (e.place p) := by
  cases e <;> rfl

theorem target_name (e : Edit) (n : String) : e.target (.name n) = .name n := by
  cases e <;> rfl

theorem target_range {e : Edit} {a b : Place} {m n : Mark} (hm : a.mark? e.axis = some m)
    (hn : b.mark? e.axis = some n) :
    e.target (.range a b) = match e.span? (.between m.index n.index) with
      | some s => .stretched a b e.axis m n s
      | none => (Target.range a b).invalidated := by
  cases e with
  | insert axis start count =>
    change a.mark? axis = some m at hm
    change b.mark? axis = some n at hn
    unfold target Target.afterInsert
    simp only [hm, hn]
    rfl
  | remove axis start count =>
    change a.mark? axis = some m at hm
    change b.mark? axis = some n at hn
    unfold target Target.afterRemove
    simp only [hm, hn]
    rfl

theorem target_range_of_none {e : Edit} {a b : Place}
    (h : a.mark? e.axis = none ∨ b.mark? e.axis = none) : e.target (.range a b) = .range a b := by
  cases e with
  | insert axis start count =>
    unfold target Target.afterInsert
    change a.mark? axis = none ∨ b.mark? axis = none at h
    dsimp only
    split
    · rename_i hm hn
      rw [hm, hn] at h
      rcases h with h | h <;> contradiction
    · rfl
  | remove axis start count =>
    unfold target Target.afterRemove
    change a.mark? axis = none ∨ b.mark? axis = none at h
    dsimp only
    split
    · rename_i hm hn
      rw [hm, hn] at h
      rcases h with h | h <;> contradiction
    · rfl

variable {e : Edit} {p q : Position}

/-- A cell is in a region if its line is, along the edited axis and along the other one. -/
theorem contains_of_moved {g g' : Region} (hpq : e.position? p = some q)
    (hother : g'.span e.axis.other = g.span e.axis.other)
    (haxis : ∀ j, (g'.span e.axis).contains j = true → e.index? (p.index e.axis) = some j →
      (g.span e.axis).contains (p.index e.axis) = true)
    (hq : g'.contains q = true) : g.contains p = true := by
  obtain ⟨hi, ho⟩ := position?_eq_some.mp hpq
  obtain ⟨hqa, hqo⟩ := (Region.contains_iff g' q e.axis).mp hq
  refine (Region.contains_iff g p e.axis).mpr ⟨haxis _ hqa hi, ?_⟩
  rwa [ho, ← hother]

theorem carries_place {a : Place} {g' : Region} (hc : e.count ≠ 0) (hk : e.KeepsTarget (.place a))
    (hv : (Target.place a).isValid = true) (hp : p.OnGrid) (hpq : e.position? p = some q)
    (hg : (e.target (.place a)).region? = some g') (hq : g'.contains q = true) :
    ∃ g, (Target.place a).region? = some g ∧ g.contains p = true := by
  refine ⟨a.cells, if_pos hv, ?_⟩
  rw [target_place] at hg
  obtain ⟨hvalid, hcells⟩ := Option.ite_none_right_eq_some.mp hg
  cases hcells
  cases hm : a.mark? e.axis with
  | none =>
    rw [place_of_none hm] at hq
    exact contains_of_moved hpq rfl (fun _ _ _ => Place.contains_of_none hm (hp.index_le _)) hq
  | some m =>
    obtain ⟨hgrid, hfixed⟩ := hk m hm
    obtain ⟨hother, m', hm', hi⟩ := place_spec hc hm hgrid hfixed hvalid
    refine contains_of_moved hpq (by rw [Place.span_cells, Place.span_cells, hother])
      (fun j hj hpj => ?_) hq
    rw [Place.span_cells, hm'] at hj
    have hjm : j = m'.index := by
      unfold Span.contains Span.single at hj
      simp only [Bool.and_eq_true, decide_eq_true_eq] at hj
      omega
    rw [Place.span_cells, hm]
    have hpm : p.index e.axis = m.index := index?_inj hpj (hjm ▸ hi)
    dsimp only
    rw [hpm]
    simp [Span.contains, Span.single]

theorem carries_range {a b : Place} {g' : Region} (hc : e.count ≠ 0)
    (hk : e.KeepsTarget (.range a b)) (hv : (Target.range a b).isValid = true) (hp : p.OnGrid)
    (hpq : e.position? p = some q) (hg : (e.target (.range a b)).region? = some g')
    (hq : g'.contains q = true) :
    ∃ g, (Target.range a b).region? = some g ∧ g.contains p = true := by
  refine ⟨a.cells.hull b.cells, if_pos hv, ?_⟩
  obtain hnone | ⟨m, n, hm, hn⟩ := Target.marks_cases a b e.axis
  · rw [target_range_of_none hnone] at hg
    rw [Target.eq_hull_of_region? hg] at hq
    exact contains_of_moved hpq rfl
      (fun _ _ _ => Target.contains_of_none hnone (hp.index_le _)) hq
  · obtain ⟨hgm, hgn, hfm, hfn, hroom⟩ := hk m hm n hn
    rw [target_range hm hn] at hg
    have hlast : (Span.between m.index n.index).last ≤ endless := by
      unfold Span.between
      dsimp only
      omega
    cases hs : e.span? (.between m.index n.index) with
    | none =>
      rw [hs] at hg
      exact absurd ((Target.region?_invalidated _).symm.trans hg) nofun
    | some s =>
      rw [hs] at hg
      have hstays {k : Mark} (hf : e.LeavesFixed k)
          (hin : (Span.between m.index n.index).contains k.index = true) (hfixed : k.fixed = true) :
          s.contains k.index = true := span?_contains_fixed hc hlast (hf hfixed) hin hs
      obtain ⟨hother, hwithin⟩ := Target.stretched_spec hm hn
        (hstays hfm (Span.between_contains_left ..)) (hstays hfn (Span.between_contains_right ..)) hg
      refine contains_of_moved hpq hother (fun j hj hpj => ?_) hq
      rw [Region.span_hull, Place.span_cells, Place.span_cells, hm, hn, Span.hull_single]
      exact contains_of_span? hc hlast hroom (hp.index_le _) hs hpj (hwithin j hj)

/-! ## References -/

theorem reference_eq {r : Reference} (hc : e.count ≠ 0) (hr : r.isValid = true) :
    e.reference r = r.map e.target := by
  cases e with
  | insert axis start count =>
    change count ≠ 0 at hc
    unfold reference Reference.afterInsert
    dsimp only
    rw [if_neg (by simp [hc, hr])]
    rfl
  | remove axis start count =>
    change count ≠ 0 at hc
    unfold reference Reference.afterRemove
    dsimp only
    rw [if_neg (by simp [hc, hr])]
    rfl

theorem reference_of_count_eq_zero {r : Reference} (hc : e.count = 0) : e.reference r = r := by
  cases e with
  | insert axis start count => exact if_pos (by simp [show count = 0 from hc])
  | remove axis start count => exact if_pos (by simp [show count = 0 from hc])

theorem reference_of_not_valid {r : Reference} (hr : r.isValid = false) : e.reference r = r := by
  cases e with
  | insert axis start count =>
    unfold reference Reference.afterInsert
    dsimp only
    rw [if_pos (by simp [hr])]
  | remove axis start count =>
    unfold reference Reference.afterRemove
    dsimp only
    rw [if_pos (by simp [hr])]

end Edit

namespace Reference

mutual
theorem targets_map (f : Target → Target) : ∀ r : Reference, (r.map f).targets = r.targets.map f
  | single _ => rfl
  | union parts => targetsOf_mapAll f parts
theorem targetsOf_mapAll (f : Target → Target) :
    ∀ rs : List Reference, targetsOf (mapAll f rs) = (targetsOf rs).map f
  | [] => rfl
  | r :: rest => by
    simp only [mapAll, targetsOf, List.map_append, targets_map f r, targetsOf_mapAll f rest]
end

mutual
/-- A change that does nothing to what a reference points at does nothing to the reference. -/
theorem map_eq_self {f : Target → Target} : ∀ r : Reference, (∀ t ∈ r.targets, f t = t) → r.map f = r
  | single t, h => congrArg single (h t List.mem_cons_self)
  | union parts, h => congrArg union (mapAll_eq_self parts h)
theorem mapAll_eq_self {f : Target → Target} :
    ∀ rs : List Reference, (∀ t ∈ targetsOf rs, f t = t) → mapAll f rs = rs
  | [], _ => rfl
  | r :: rest, h =>
    congrArg₂ List.cons (map_eq_self r fun t ht => h t (List.mem_append_left _ ht))
      (mapAll_eq_self rest fun t ht => h t (List.mem_append_right _ ht))
end

theorem map_id (r : Reference) : r.map id = r := map_eq_self r fun _ _ => rfl

mutual
theorem map_map (f g : Target → Target) : ∀ r : Reference, (r.map f).map g = r.map (g ∘ f)
  | single _ => rfl
  | union parts => congrArg union (mapAll_mapAll f g parts)
theorem mapAll_mapAll (f g : Target → Target) :
    ∀ rs : List Reference, mapAll g (mapAll f rs) = mapAll (g ∘ f) rs
  | [] => rfl
  | r :: rest => congrArg₂ List.cons (map_map f g r) (mapAll_mapAll f g rest)
end

end Reference

/-- A reference all of whose coordinates move with their lines denotes nothing new. -/
theorem Edit.Keeps.carries {e : Edit} {r : Reference} (hc : e.count ≠ 0) (hk : e.Keeps r) :
    e.Carries r := by
  intro p q hp hpq g' hg hq
  cases hvalid : r.isValid with
  | false =>
    rw [reference_of_not_valid hvalid, hk.invalid hvalid] at hg
    exact absurd hg List.not_mem_nil
  | true =>
    rw [reference_eq hc hvalid] at hg
    unfold Reference.regions at hg
    rw [Reference.targets_map, List.filterMap_map, List.mem_filterMap] at hg
    obtain ⟨t, ht, hg⟩ := hg
    have hkt := hk.valid hvalid t ht
    have htv : t.isValid = true := List.all_eq_true.mp hvalid t ht
    obtain ⟨g, hg', hgp⟩ : ∃ g, t.region? = some g ∧ g.contains p = true := by
      cases t with
      | place a => exact carries_place hc hkt htv hp hpq hg hq
      | range a b => exact carries_range hc hkt htv hp hpq hg hq
      | name n =>
        rw [Function.comp_apply, target_name] at hg
        contradiction
    exact ⟨g, List.mem_filterMap.mpr ⟨t, ht, hg'⟩, hgp⟩

end Spreadsheet
