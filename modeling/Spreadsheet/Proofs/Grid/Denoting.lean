import Spreadsheet.Proofs.Store.Extent

/-! References to the same cells. What an edit leaves of a free range is settled by the region that
it denotes, and so it is for a single place, up to the last line that places can have. Past that
line the two part: the place is lost, and the range goes on. -/

namespace Spreadsheet

namespace Edit

/-- The line that line `i` is moved to. -/
def line : Edit → Nat → Nat
  | insert _ start count, i => if start ≤ i then i + count else i
  | remove _ start count, i => if start + count ≤ i then i - count else i

/-- Line `i` is not moved, or not past the last line of a place. -/
def Reaches (e : Edit) (i : Nat) : Prop := e.line i = i ∨ e.line i ≤ Place.limit e.axis

/-- No place is moved past the last line of a place. -/
def Takes (e : Edit) : Target → Prop
  | .place p => ∀ m ∈ p.mark? e.axis, e.Reaches m.index
  | .range .. | .name _ => True

instance (e : Edit) : DecidablePred e.Reaches := fun i =>
  inferInstanceAs (Decidable (e.line i = i ∨ e.line i ≤ Place.limit e.axis))

instance (e : Edit) : DecidablePred e.Takes := fun t =>
  match t with
  | .place p => inferInstanceAs (Decidable (∀ m ∈ p.mark? e.axis, e.Reaches m.index))
  | .range .. | .name _ => isTrue trivial

/-- What is left of the region of a reference: whole lines have no end that could move. -/
def left? (e : Edit) (g : Region) : Option Region :=
  if g.span e.axis = .all then some g else e.region? g

variable {e : Edit} {i : Nat} {g : Region}

/-! ## Spans -/

theorem region?_eq (e : Edit) (g : Region) :
    e.region? g = (e.span? (g.span e.axis)).map (g.withSpan e.axis) := by
  cases e <;> rfl

theorem left?_of_all (h : g.span e.axis = .all) : e.left? g = some g := if_pos h

theorem left?_of_last_lt (h : (g.span e.axis).last < endless) :
    e.left? g = (e.span? (g.span e.axis)).map (g.withSpan e.axis) := by
  unfold left?
  rw [if_neg, region?_eq]
  intro hall
  rw [hall] at h
  exact Nat.lt_irrefl _ h

theorem span?_of_count_eq_zero (hc : e.count = 0) (s : Span) : e.span? s = some s := by
  cases e with
  | insert axis start count =>
    cases (show count = 0 from hc)
    simp [span?, Span.afterInsert]
  | remove axis start count =>
    cases (show count = 0 from hc)
    simp [span?, Span.afterRemove?]

theorem index?_of_count_eq_zero (hc : e.count = 0) (i : Nat) : e.index? i = some i := by
  cases e with
  | insert axis start count =>
    cases (show count = 0 from hc)
    simp [index?, opened?]
  | remove axis start count =>
    cases (show count = 0 from hc)
    unfold index? closed?
    grind

theorem region?_of_count_eq_zero (hc : e.count = 0) (g : Region) : e.region? g = some g := by
  rw [region?_eq, span?_of_count_eq_zero hc, Option.map_some, Region.withSpan_eq_self_iff.mpr rfl]

theorem left?_of_count_eq_zero (hc : e.count = 0) (g : Region) : e.left? g = some g := by
  unfold left?
  rw [region?_of_count_eq_zero hc, ite_self]

/-- A span of one line goes where the line goes. -/
theorem span?_single (hc : e.count ≠ 0) (hi : i < endless) (h : e.Reaches i) :
    e.span? (.single i) = (e.index? i).map .single := by
  cases e with
  | insert axis start count =>
    have hroom : start ≤ i → i + count < endless := fun hmove => by
      have hlimit := Place.limit_lt axis
      have hline : line (.insert axis start count) i = i + count := if_pos hmove
      unfold Reaches at h
      rw [hline] at h
      simp only [Edit.axis] at h
      omega
    unfold span? index? Span.afterInsert opened? Span.single Span.between Span.pushed
    dsimp only
    grind
  | remove axis start count =>
    have hlast : (Span.single i).last ≤ endless := Nat.le_of_lt hi
    replace hc : count ≠ 0 := hc
    change (Span.single i).afterRemove? start count = (closed? start count i).map .single
    cases hs : (Span.single i).afterRemove? start count with
    | none =>
      have hgone := (afterRemove?_eq_none hc hlast).mp hs i ((Span.contains_single i i).mpr rfl)
      unfold closed?
      rw [if_neg (by omega), if_pos hgone.2]
      rfl
    | some s =>
      have hcases := afterRemove?_cases hc hlast hs
      obtain ⟨first, last, hle⟩ := s
      unfold closed?
      unfold Span.single at hcases ⊢
      dsimp only at hcases
      grind

/-- Only removed lines are lost, so a line that goes too far is not. -/
theorem isSome_span?_of_not_reaches (hc : e.count ≠ 0) (hi : i < endless) (h : ¬ e.Reaches i) :
    (e.span? (.single i)).isSome = true := by
  cases e with
  | insert axis start count => rfl
  | remove axis start count =>
    have hmoved : start + count ≤ i := by
      by_contra hstay
      exact h (.inl (if_neg hstay))
    replace hc : count ≠ 0 := hc
    rw [Option.isSome_iff_ne_none]
    intro hgone
    have hremoved := (afterRemove?_eq_none hc (Nat.le_of_lt hi)).mp hgone i
      ((Span.contains_single i i).mpr rfl)
    omega

end Edit

/-! ## Places -/

theorem Place.isValid_movedBy {p : Place} {axis : Axis} {m : Mark} {offset : Int}
    (hm : p.mark? axis = some m) (hfree : m.fixed = false) (hzero : offset ≠ 0)
    (hv : p.isValid = true) :
    (p.movedBy axis offset).isValid = true ↔
      0 ≤ m.index + offset ∧ m.index + offset ≤ limit axis := by
  unfold movedBy
  rw [hm]
  dsimp only
  rw [if_neg (by simp [hzero, hfree])]
  split
  · rw [isValid_invalidated]
    simp only [Bool.false_eq_true, false_iff]
    omega
  · rw [isValid_withMark, hv]
    simp only [true_iff]
    omega

namespace Edit

variable {e : Edit} {p : Place} {m : Mark}

/-- A free place is lost with its line, or when it would go too far. -/
theorem isValid_place (hm : p.mark? e.axis = some m) (hv : p.isValid = true)
    (hfree : m.fixed = false) (hc : e.count ≠ 0) (hi : m.index < endless) :
    (e.place p).isValid = true ↔ (e.index? m.index).isSome = true ∧ e.Reaches m.index := by
  have hlimit := Place.limit_lt e.axis
  cases e with
  | insert axis start count =>
    replace hm : p.mark? axis = some m := hm
    replace hc : count ≠ 0 := hc
    have hplace : place (.insert axis start count) p =
        if start ≤ m.index then p.movedBy axis count else p := by
      simp [place, Place.afterInsert, hm, hfree]
    have hmoved := Place.isValid_movedBy hm hfree (Int.natCast_ne_zero.mpr hc) hv
    rw [hplace, apply_ite Place.isValid]
    unfold Reaches line index? opened?
    simp only [Edit.axis] at hlimit ⊢
    grind
  | remove axis start count =>
    replace hm : p.mark? axis = some m := hm
    replace hc : count ≠ 0 := hc
    have hplace : place (.remove axis start count) p =
        if start ≤ m.index ∧ m.index ≤ Span.lastRemoved start count then p.invalidated
        else if Span.lastRemoved start count < m.index then p.movedBy axis (-count) else p := by
      simp [place, Place.afterRemove, hm, hfree]
    have hmoved := Place.isValid_movedBy hm hfree (by omega : -(count : Int) ≠ 0) hv
    have hlost := Place.isValid_invalidated p
    rw [hplace, apply_ite Place.isValid, apply_ite Place.isValid]
    unfold Span.lastRemoved Reaches line index? closed?
    simp only [Edit.axis] at hlimit ⊢
    grind

theorem region?_place_of_reaches (hm : p.mark? e.axis = some m) (hv : p.isValid = true)
    (hfree : m.fixed = false) (hc : e.count ≠ 0) (hi : m.index < endless)
    (h : e.Reaches m.index) : (e.target (.place p)).region? = e.left? p.cells := by
  have hspan : p.cells.span e.axis = .single m.index := by rw [Place.span_cells, hm]
  have hvalid := isValid_place hm hv hfree hc hi
  rw [left?_of_last_lt (by rw [hspan]; exact hi), hspan, span?_single hc hi h, target_place]
  cases hq : (e.place p).isValid with
  | false =>
    have hlost : e.index? m.index = none := by simpa [hq, h] using hvalid
    rw [hlost]
    exact if_neg (by simp [Target.isValid, hq])
  | true =>
    obtain ⟨hother, m', hm', hmoved⟩ := place_spec hc hm (Nat.le_of_lt hi) (leavesFixed hfree) hq
    rw [hmoved]
    refine (if_pos hq).trans (congrArg some (Region.ext_along e.axis ?_ ?_))
    · rw [Region.span_withSpan, Place.span_cells, hm']
    · rw [Region.span_withSpan_other, Place.span_cells, Place.span_cells, hother]

end Edit

/-! ## Targets -/

namespace Target

/-- The lines of the coordinates along the axis come before the end of the grid. -/
def OnLines (axis : Axis) : Target → Prop
  | place p => ∀ m ∈ p.mark? axis, m.index < endless
  | range a b => (∀ m ∈ a.mark? axis, m.index < endless) ∧ ∀ m ∈ b.mark? axis, m.index < endless
  | name _ => True

instance (axis : Axis) : DecidablePred (OnLines axis) := fun t =>
  match t with
  | place p => inferInstanceAs (Decidable (∀ m ∈ p.mark? axis, m.index < endless))
  | range a b => inferInstanceAs (Decidable
      ((∀ m ∈ a.mark? axis, m.index < endless) ∧ ∀ m ∈ b.mark? axis, m.index < endless))
  | name _ => isTrue trivial

def isRange : Target → Bool
  | range .. => true
  | place _ | name _ => false

variable {e : Edit} {t u : Target} {g : Region} {a b : Place} {axis : Axis}

theorem span_hull_of_none (h : a.mark? axis = none ∨ b.mark? axis = none)
    (hlines : (range a b).OnLines axis) : (a.cells.hull b.cells).span axis = .all := by
  rw [Region.span_hull, Place.span_cells, Place.span_cells]
  obtain ⟨ha, hb⟩ := hlines
  cases hm : a.mark? axis with
  | none =>
    cases hn : b.mark? axis with
    | none => rfl
    | some n =>
      have hle := Nat.le_of_lt (hb n hn)
      simp [Span.hull, Span.all, Span.single, hle]
  | some m =>
    have hn : b.mark? axis = none := by simpa [hm] using h
    have hle := Nat.le_of_lt (ha m hm)
    rw [hn]
    simp [Span.hull, Span.all, Span.single, hle]

/-- A free range keeps what is left of its region. -/
theorem region?_target_range (hg : (range a b).region? = some g)
    (hfree : (range a b).FreeAlong e.axis) (hlines : (range a b).OnLines e.axis) :
    (e.target (range a b)).region? = e.left? g := by
  cases eq_hull_of_region? hg
  obtain hnone | ⟨m, n, hm, hn⟩ := marks_cases a b e.axis
  · rw [Edit.target_range_of_none hnone, Edit.left?_of_all (span_hull_of_none hnone hlines), hg]
  · have hspan := span_hull_cells hm hn
    have hlast : ((a.cells.hull b.cells).span e.axis).last < endless := by
      rw [hspan]
      exact Nat.max_lt.mpr ⟨hlines.1 m hm, hlines.2 n hn⟩
    rw [Edit.target_range hm hn, Edit.left?_of_last_lt hlast, hspan]
    cases e.span? (.between m.index n.index) with
    | none => exact region?_invalidated _
    | some s => exact region?_stretched hm hn (hfree.1 m hm) (hfree.2 n hn) hg s

/-- A free target that is not moved too far keeps what is left of its region. -/
theorem region?_target (hg : t.region? = some g) (hfree : t.FreeAlong e.axis)
    (hlines : t.OnLines e.axis) (hc : e.count ≠ 0) (htakes : e.Takes t) :
    (e.target t).region? = e.left? g := by
  have hv : t.isValid = true := (Option.ite_none_right_eq_some.mp hg).1
  cases t with
  | name n => cases (Option.ite_none_right_eq_some.mp hg).2
  | range a b => exact region?_target_range hg hfree hlines
  | place p =>
    cases (Option.ite_none_right_eq_some.mp hg).2
    cases hm : p.mark? e.axis with
    | none =>
      have hall : p.cells.span e.axis = .all := by rw [Place.span_cells, hm]
      rw [Edit.target_place, Edit.place_of_none hm, Edit.left?_of_all hall, hg]
    | some m =>
      exact Edit.region?_place_of_reaches hm hv (hfree m hm) hc (hlines m hm) (htakes m hm)

theorem isSome_region? (h : ∀ n, t ≠ name n) : t.region?.isSome = t.isValid := by
  cases t with
  | name n => exact absurd rfl (h n)
  | place p => cases hv : p.isValid <;> simp [region?, isValid, hv]
  | range a b => cases hv : a.isValid && b.isValid <;> simp [region?, isValid, hv]

/-- All that is valid and denotes no cells is a name. -/
theorem eq_name (hv : t.isValid = true) (hg : t.region? = none) : ∃ n, t = name n := by
  by_contra h
  have hsome := isSome_region? (not_exists.mp h)
  rw [hv, hg] at hsome
  cases hsome

theorem ne_name_of_region? (hg : t.region? = some g) (n : String) : t ≠ name n := by
  rintro rfl
  cases hg

theorem target_ne_name (h : ∀ n, t ≠ name n) (n : String) : e.target t ≠ name n := by
  cases t with
  | name k => exact absurd rfl (h k)
  | place p =>
    rw [Edit.target_place]
    nofun
  | range a b =>
    obtain hnone | ⟨m, k, hm, hk⟩ := marks_cases a b e.axis
    · rw [Edit.target_range_of_none hnone]
      nofun
    · rw [Edit.target_range hm hk]
      cases e.span? (.between m.index k.index) <;> nofun

theorem isValid_target (hg : t.region? = some g) :
    (e.target t).isValid = (e.target t).region?.isSome :=
  (isSome_region? (target_ne_name (ne_name_of_region? hg))).symm

/-- Nothing becomes a name, and names stay. -/
theorem region?_target_of_name (n : String) : (e.target (name n)).region? = none := by
  rw [Edit.target_name]
  rfl

end Target

/-! ## References -/

namespace Reference

/-- The references denote the same region, and do so by the same parts. -/
structure SameRegions (r s : Reference) : Prop where
  whole : r.region? = s.region?
  parts : ∀ g, g ∈ r.regions ↔ g ∈ s.regions

variable {r s : Reference} {g : Region}

mutual
/-- The region of a reference is the least one around its parts. -/
theorem covers_hull?_iff {g : Region} (h : Region) : ∀ {r : Reference}, r.hull? = some g →
    (h.covers g = true ↔ ∀ x ∈ r.regions, h.covers x = true)
  | single t, hg => by
    have hregions : (single t).regions = [g] :=
      List.filterMap_cons_some (show t.region? = some g from hg)
    rw [hregions, List.forall_mem_singleton]
  | union (r :: rest), hg => by
    obtain ⟨start, hstart, hrest⟩ := Option.bind_eq_some_iff.mp hg
    have hparts : (union (r :: rest)).regions =
        r.regions ++ (targetsOf rest).filterMap Target.region? := List.filterMap_append ..
    rw [covers_hullOf?_iff h hrest, covers_hull?_iff h hstart, hparts, List.forall_mem_append]
theorem covers_hullOf?_iff {start g : Region} (h : Region) : ∀ {rs : List Reference},
    hullOf? start rs = some g → (h.covers g = true ↔
      h.covers start = true ∧ ∀ x ∈ (targetsOf rs).filterMap Target.region?, h.covers x = true)
  | [], hg => by
    cases hg
    simp [targetsOf]
  | r :: rest, hg => by
    obtain ⟨part, hpart, hrest⟩ := Option.bind_eq_some_iff.mp hg
    have hparts : (targetsOf (r :: rest)).filterMap Target.region? =
        r.regions ++ (targetsOf rest).filterMap Target.region? := List.filterMap_append ..
    rw [covers_hullOf?_iff h hrest, Region.covers_hull_iff, covers_hull?_iff h hpart, hparts,
      List.forall_mem_append, and_assoc]
end

/-- The same parts have the same region around them. -/
theorem region?_congr (hsome : r.region?.isSome = s.region?.isSome)
    (hparts : ∀ g, g ∈ r.regions ↔ g ∈ s.regions) : r.region? = s.region? := by
  cases hr : r.region? with
  | none =>
    rw [hr] at hsome
    exact (Option.not_isSome_iff_eq_none.mp (by rw [← hsome]; nofun)).symm
  | some g =>
    obtain ⟨g', hs⟩ : ∃ g', s.region? = some g' :=
      Option.isSome_iff_exists.mp (by rw [← hsome, hr]; rfl)
    have hr' := (Option.ite_none_right_eq_some.mp hr).2
    have hs' := (Option.ite_none_right_eq_some.mp hs).2
    have hcovers (h : Region) : h.covers g = true ↔ h.covers g' = true := by
      rw [covers_hull?_iff h hr', covers_hull?_iff h hs']
      exact forall_congr' fun x => by rw [hparts x]
    rw [hs, Region.covers_antisymm ((hcovers g).mp g.covers_self) ((hcovers g').mpr g'.covers_self)]

theorem isSome_bind_congr {α β : Type} {x y : Option α} {f g : α → Option β}
    (h : x.isSome = y.isSome) (hfg : ∀ a b, (f a).isSome = (g b).isSome) :
    (x.bind f).isSome = (y.bind g).isSome := by
  cases x <;> cases y <;> first | rfl | contradiction | exact hfg _ _

mutual
theorem isSome_hull?_map {f : Target → Target} : ∀ r : Reference,
    (∀ t ∈ r.targets, (f t).region?.isSome = t.region?.isSome) →
      (r.map f).hull?.isSome = r.hull?.isSome
  | single t, h => h t List.mem_cons_self
  | union [], _ => rfl
  | union (r :: rest), h =>
    isSome_bind_congr (isSome_hull?_map r fun t ht => h t (List.mem_append_left _ ht))
      (isSome_hullOf?_map rest fun t ht => h t (List.mem_append_right _ ht))
theorem isSome_hullOf?_map {f : Target → Target} : ∀ rs : List Reference,
    (∀ t ∈ targetsOf rs, (f t).region?.isSome = t.region?.isSome) →
      ∀ start start' : Region, (hullOf? start (mapAll f rs)).isSome = (hullOf? start' rs).isSome
  | [], _, _, _ => rfl
  | r :: rest, h, start, start' =>
    isSome_bind_congr (isSome_hull?_map r fun t ht => h t (List.mem_append_left _ ht))
      fun g g' => isSome_hullOf?_map rest (fun t ht => h t (List.mem_append_right _ ht))
        (start.hull g) (start'.hull g')
end

variable {e : Edit}

/-- What an edit leaves of a reference is what it leaves of its parts. -/
theorem regions_reference (hr : r.isValid = true) (free : ∀ t ∈ r.targets, t.FreeAlong e.axis)
    (lines : ∀ t ∈ r.targets, t.OnLines e.axis) (takes : ∀ t ∈ r.targets, e.Takes t) :
    (e.reference r).regions = r.regions.filterMap e.left? := by
  by_cases hc : e.count = 0
  · rw [Edit.reference_of_count_eq_zero hc, funext (Edit.left?_of_count_eq_zero hc)]
    exact (List.filterMap_some).symm
  · rw [Edit.reference_eq hc hr]
    unfold regions
    rw [targets_map, List.filterMap_map, List.filterMap_filterMap]
    refine List.filterMap_congr fun t ht => ?_
    cases hg : t.region? with
    | some g => exact Target.region?_target hg (free t ht) (lines t ht) hc (takes t ht)
    | none =>
      obtain ⟨n, rfl⟩ := Target.eq_name (List.all_eq_true.mp hr t ht) hg
      exact Target.region?_target_of_name n

/-- An edit loses a reference exactly if nothing is left of one of its parts. -/
theorem isValid_reference (hr : r.isValid = true) (free : ∀ t ∈ r.targets, t.FreeAlong e.axis)
    (lines : ∀ t ∈ r.targets, t.OnLines e.axis) (takes : ∀ t ∈ r.targets, e.Takes t) :
    (e.reference r).isValid = true ↔ ∀ g ∈ r.regions, (e.left? g).isSome = true := by
  by_cases hc : e.count = 0
  · rw [Edit.reference_of_count_eq_zero hc, funext (Edit.left?_of_count_eq_zero hc)]
    exact iff_of_true hr fun _ _ => rfl
  · rw [Edit.reference_eq hc hr, isValid, targets_map, List.all_map, List.all_eq_true]
    unfold regions
    simp only [List.forall_mem_filterMap, Function.comp_apply]
    refine forall₂_congr fun t ht => ?_
    cases hg : t.region? with
    | some g =>
      rw [Target.isValid_target hg,
        Target.region?_target hg (free t ht) (lines t ht) hc (takes t ht)]
      simp
    | none =>
      obtain ⟨n, rfl⟩ := Target.eq_name (List.all_eq_true.mp hr t ht) hg
      rw [Edit.target_name]
      simp [Target.isValid]

/-- An edit turns no name into a region and leaves no region a name. -/
theorem isSome_region?_reference (hr : r.isValid = true)
    (hv : (e.reference r).isValid = true) :
    (e.reference r).region?.isSome = r.region?.isSome := by
  unfold region?
  rw [if_pos hv, if_pos hr]
  by_cases hc : e.count = 0
  · rw [Edit.reference_of_count_eq_zero hc]
  · rw [Edit.reference_eq hc hr] at hv ⊢
    rw [isValid, targets_map, List.all_map, List.all_eq_true] at hv
    refine isSome_hull?_map r fun t ht => ?_
    cases hg : t.region? with
    | some g => exact (Target.isValid_target hg).symm.trans (hv t ht)
    | none =>
      obtain ⟨n, rfl⟩ := Target.eq_name (List.all_eq_true.mp hr t ht) hg
      rw [Target.region?_target_of_name]

end Reference

namespace Edit

variable {e : Edit} {r s : Reference} {t u : Target} {g : Region}

/-- The edit loses both references, or leaves both and leaves them to the same region. -/
def KeepsTogether (e : Edit) (r s : Reference) : Prop :=
  (e.reference r).isValid = (e.reference s).isValid ∧
    ((e.reference r).isValid = true → (e.reference r).SameRegions (e.reference s))

theorem keepsTogether_of_takes (hr : r.isValid = true) (hs : s.isValid = true)
    (free : ∀ t ∈ r.targets ++ s.targets, t.FreeAlong e.axis)
    (lines : ∀ t ∈ r.targets ++ s.targets, t.OnLines e.axis)
    (takes : ∀ t ∈ r.targets ++ s.targets, e.Takes t) (same : r.SameRegions s) :
    e.KeepsTogether r s := by
  rw [List.forall_mem_append] at free lines takes
  have hvr := Reference.isValid_reference hr free.1 lines.1 takes.1
  have hvs := Reference.isValid_reference hs free.2 lines.2 takes.2
  have hvalid : (e.reference r).isValid = (e.reference s).isValid := by
    rw [Bool.eq_iff_iff, hvr, hvs]
    exact forall_congr' fun g => by rw [same.parts g]
  have hparts (g : Region) : g ∈ (e.reference r).regions ↔ g ∈ (e.reference s).regions := by
    rw [Reference.regions_reference hr free.1 lines.1 takes.1,
      Reference.regions_reference hs free.2 lines.2 takes.2, List.mem_filterMap,
      List.mem_filterMap]
    exact exists_congr fun g => by rw [same.parts g]
  refine ⟨hvalid, fun hv => ⟨Reference.region?_congr ?_ hparts, hparts⟩⟩
  rw [Reference.isSome_region?_reference hr hv,
    Reference.isSome_region?_reference hs (hvalid ▸ hv), same.whole]

/-! ## Pairs -/

theorem reference_single (hc : e.count ≠ 0) (hv : t.isValid = true) :
    e.reference (.single t) = .single (e.target t) :=
  reference_eq hc (by rwa [Reference.isValid_single])

/-- What moves past the last line of a place is lost as a place and goes on as a range. -/
theorem isValid_target_of_not_takes (hg : t.region? = some g) (hfree : t.FreeAlong e.axis)
    (hlines : t.OnLines e.axis) (hc : e.count ≠ 0) (h : ¬ e.Takes t) :
    (e.target t).isValid = false ∧ (e.left? g).isSome = true := by
  cases t with
  | name n => exact absurd trivial h
  | range a b => exact absurd trivial h
  | place p =>
    have hv : p.isValid = true := (Option.ite_none_right_eq_some.mp hg).1
    cases (Option.ite_none_right_eq_some.mp hg).2
    unfold Takes at h
    simp only [not_forall] at h
    obtain ⟨m, hm, hfar⟩ := h
    have hspan : p.cells.span e.axis = .single m.index := by rw [Place.span_cells, hm]
    refine ⟨?_, ?_⟩
    · rw [target_place]
      exact Bool.eq_false_iff.mpr fun hvalid =>
        hfar ((isValid_place hm hv (hfree m hm) hc (hlines m hm)).mp hvalid).2
    · rw [left?_of_last_lt (by rw [hspan]; exact hlines m hm), hspan, Option.isSome_map]
      exact isSome_span?_of_not_reaches hc (hlines m hm) hfar

theorem reaches_of_count_eq_zero (hc : e.count = 0) (i : Nat) : e.Reaches i := by
  refine .inl ?_
  cases e <;> cases hc <;> simp [line]

theorem isRange_of_not_takes (h : ¬ e.Takes t) : t.isRange = false := by
  cases t with
  | place p => rfl
  | range a b => exact absurd trivial h
  | name n => exact absurd trivial h

/-- Two places in the same cells go equally far. -/
theorem takes_of_cells_eq {p q : Place} (hcells : p.cells = q.cells) (h : e.Takes (.place p)) :
    e.Takes (.place q) := by
  intro n hn
  have hspan : p.cells.span e.axis = .single n.index := by rw [hcells, Place.span_cells, hn]
  rw [Place.span_cells] at hspan
  cases hm : p.mark? e.axis with
  | none =>
    rw [hm] at hspan
    have hends : (0 : Nat) = endless :=
      (congrArg Span.first hspan).trans (congrArg Span.last hspan).symm
    cases hends
  | some m =>
    rw [hm] at hspan
    have hindex : m.index = n.index := congrArg Span.first hspan
    exact hindex ▸ h m hm

theorem KeepsTogether.symm (h : e.KeepsTogether r s) : e.KeepsTogether s r :=
  ⟨h.1.symm, fun hv =>
    have same := h.2 (h.1.trans hv)
    ⟨same.whole.symm, fun g => (same.parts g).symm⟩⟩

/-- A place that goes too far does not stay with a range. -/
theorem not_keepsTogether (hc : e.count ≠ 0) (hg : t.region? = some g) (hg' : u.region? = some g)
    (free : t.FreeAlong e.axis ∧ u.FreeAlong e.axis)
    (lines : t.OnLines e.axis ∧ u.OnLines e.axis) (ht : ¬ e.Takes t) (hu : e.Takes u) :
    ¬ e.KeepsTogether (.single t) (.single u) ∧ t.isRange ≠ u.isRange := by
  obtain ⟨hlost, hleft⟩ := isValid_target_of_not_takes hg free.1 lines.1 hc ht
  have hkept : (e.target u).isValid = true := by
    rw [Target.isValid_target hg', Target.region?_target hg' free.2 lines.2 hc hu, hleft]
  constructor
  · intro h
    have hvalid := h.1
    rw [reference_single hc (Option.ite_none_right_eq_some.mp hg).1,
      reference_single hc (Option.ite_none_right_eq_some.mp hg').1, Reference.isValid_single,
      Reference.isValid_single, hlost, hkept] at hvalid
    cases hvalid
  · rw [isRange_of_not_takes ht]
    cases u with
    | range a b => nofun
    | name n => cases hg'
    | place q =>
      cases t with
      | range a b => exact absurd trivial ht
      | name n => cases hg
      | place p =>
        have hcells : q.cells = p.cells := Option.some.inj
          (((Option.ite_none_right_eq_some.mp hg').2).trans
            ((Option.ite_none_right_eq_some.mp hg).2).symm)
        exact absurd (takes_of_cells_eq hcells hu) ht

/-- Two targets in the same region stay together, except that a place which goes too far is lost
and a range is not. -/
theorem keepsTogether_single_iff (hg : t.region? = some g) (hg' : u.region? = some g)
    (free : t.FreeAlong e.axis ∧ u.FreeAlong e.axis)
    (lines : t.OnLines e.axis ∧ u.OnLines e.axis)
    (takes : e.Takes t → e.Takes u → e.KeepsTogether (.single t) (.single u)) :
    e.KeepsTogether (.single t) (.single u) ↔
      t.isRange = u.isRange ∨ e.Takes t ∧ e.Takes u := by
  by_cases hc : e.count = 0
  · have hall (t : Target) : e.Takes t := by
      cases t with
      | place p => exact fun m _ => reaches_of_count_eq_zero hc m.index
      | range a b => trivial
      | name n => trivial
    exact iff_of_true (takes (hall t) (hall u)) (.inr ⟨hall t, hall u⟩)
  by_cases ht : e.Takes t <;> by_cases hu : e.Takes u
  · exact iff_of_true (takes ht hu) (.inr ⟨ht, hu⟩)
  · obtain ⟨hparted, hforms⟩ := not_keepsTogether hc hg' hg free.symm lines.symm hu ht
    exact iff_of_false (fun h => hparted h.symm) (by rintro (h | h); exacts [hforms h.symm, hu h.2])
  · obtain ⟨hparted, hforms⟩ := not_keepsTogether hc hg hg' free lines ht hu
    exact iff_of_false hparted (by rintro (h | h); exacts [hforms h, ht h.1])
  · have hlost := (isValid_target_of_not_takes hg free.1 lines.1 hc ht).1
    have hlost' := (isValid_target_of_not_takes hg' free.2 lines.2 hc hu).1
    refine iff_of_true ?_ (.inl ((isRange_of_not_takes ht).trans (isRange_of_not_takes hu).symm))
    unfold KeepsTogether
    rw [reference_single hc (Option.ite_none_right_eq_some.mp hg).1,
      reference_single hc (Option.ite_none_right_eq_some.mp hg').1, Reference.isValid_single,
      Reference.isValid_single, hlost, hlost']
    exact ⟨rfl, nofun⟩

/-- References without `$` to the same region stay together under an edit, as long as no single
place of theirs is moved past the last line of a place. Two single places or ranges stay together
exactly if they are of one form or no place is moved so far: there the place is lost and the range
is not. -/
theorem denotation_kept (hr : r.isValid = true) (hs : s.isValid = true)
    (free : ∀ t ∈ r.targets ++ s.targets, t.FreeAlong e.axis)
    (lines : ∀ t ∈ r.targets ++ s.targets, t.OnLines e.axis) (same : r.SameRegions s) :
    ((∀ t ∈ r.targets ++ s.targets, e.Takes t) → e.KeepsTogether r s) ∧
      ∀ t u, r = .single t → s = .single u → r.region?.isSome = true →
        (e.KeepsTogether r s ↔ t.isRange = u.isRange ∨ e.Takes t ∧ e.Takes u) := by
  refine ⟨fun takes => keepsTogether_of_takes hr hs free lines takes same, ?_⟩
  rintro t u rfl rfl hsome
  obtain ⟨g, hg⟩ := Option.isSome_iff_exists.mp hsome
  have hg' := same.whole.symm.trans hg
  rw [Reference.region?_single] at hg hg'
  have hpair {P : Target → Prop} (h : ∀ x ∈ [t] ++ [u], P x) : P t ∧ P u :=
    ⟨h t List.mem_cons_self, h u (List.mem_cons_of_mem _ List.mem_cons_self)⟩
  refine keepsTogether_single_iff hg hg' (hpair free) (hpair lines) fun ht hu => ?_
  refine keepsTogether_of_takes hr hs free lines ?_ same
  intro x hx
  obtain rfl | hx := List.mem_cons.mp hx
  · exact ht
  · exact List.mem_singleton.mp hx ▸ hu

theorem denotation_kept_up_to_last_column :
    let r : Reference := .union [.ofPosition ⟨4, 2⟩, .ofCorners ⟨1, 0⟩ ⟨2, 1⟩]
    let s : Reference := .union [.ofCorners ⟨2, 1⟩ ⟨1, 0⟩, .ofCorners ⟨4, 2⟩ ⟨4, 2⟩]
    let place := Target.place (.ofPosition ⟨4, 2⟩)
    let range := Target.between (.ofPosition ⟨4, 2⟩) (.ofPosition ⟨4, 2⟩)
    (insert .column 1 16381).KeepsTogether r s ∧
      ¬ (insert .column 1 16382).KeepsTogether (.single place) (.single range) := by
  intro r s place range
  have hsame : r.SameRegions s := by
    have hr : r.regions = [.corners 4 2 4 2, .corners 1 0 2 1] := by decide
    have hs : s.regions = [.corners 1 0 2 1, .corners 4 2 4 2] := by decide
    refine ⟨by decide, fun g => ?_⟩
    rw [hr, hs]
    simp [or_comm]
  have hpair : (Reference.single place).SameRegions (.single range) := ⟨by decide, fun _ => Iff.rfl⟩
  have htogether := (denotation_kept (e := insert .column 1 16381) (by decide) (by decide)
    (by decide) (by decide) hsame).1 (by decide)
  have hparted := (denotation_kept (e := insert .column 1 16382) (by decide) (by decide)
    (by decide) (by decide) hpair).2 place range rfl rfl (by decide)
  exact ⟨htogether, fun h => absurd (hparted.mp h) (by decide)⟩

/-- The cell and the range of the one cell denote the same. Pushed on past the last column that has
a name, the cell is lost, as anything pushed off the grid, and the range is not. -/
theorem place_parted_from_range :
    let cell := Reference.ofPosition ⟨4, 2⟩
    let range := Reference.ofCorners ⟨4, 2⟩ ⟨4, 2⟩
    let e := insert .column 1 16382
    cell.isValid = true ∧ range.isValid = true ∧ cell.region? = range.region? ∧
      cell.regions = range.regions ∧ (e.reference cell).isValid = false ∧
      (e.reference range).isValid = true ∧
      (e.reference range).region? = some (.corners 4 16384 4 16384) := by
  decide +kernel

end Edit

end Spreadsheet
