import Spreadsheet.Proofs.Grid.Cutting
import Spreadsheet.Proofs.Grid.Representing

/-! Copies of copies. A reference that is copied twice denotes what it denotes when it is copied
once, over both offsets together. It need not be the same reference: in a range of which one end is
fixed and one is free, the ends exchange their coordinates when the free one passes the fixed one,
and on the way back only if they do not meet. -/

namespace Spreadsheet

/-! ## Coordinates -/

namespace Mark

/-- The coordinate stays, or the offset leads to a line that places can have. -/
def Reaches (axis : Axis) (offset : Int) (m : Mark) : Prop :=
  m.fixed = true ∨ 0 ≤ m.index + offset ∧ m.index + offset ≤ Place.limit axis

/-- The coordinate in a copy over the offset. -/
def shifted (offset : Int) (m : Mark) : Mark :=
  if m.fixed then m else ⟨(m.index + offset).toNat, false⟩

variable {m : Mark} {axis : Axis} {offset offset' : Int}

theorem shifted_zero (m : Mark) : m.shifted 0 = m := by
  obtain ⟨index, fixed⟩ := m
  cases fixed <;> simp [shifted]

theorem reaches_zero (h : m.index ≤ Place.limit axis) : m.Reaches axis 0 := .inr ⟨by omega, by omega⟩

theorem shifted_of_fixed (h : m.fixed = true) (offset : Int) : m.shifted offset = m := if_pos h

theorem shifted_of_free (h : m.fixed = false) (offset : Int) :
    m.shifted offset = ⟨(m.index + offset).toNat, false⟩ := if_neg (by simp [h])

theorem shifted_shifted (h : m.Reaches axis offset) :
    (m.shifted offset).shifted offset' = m.shifted (offset + offset') := by
  cases hm : m.fixed with
  | true => simp only [shifted_of_fixed hm]
  | false =>
    have hin := h.resolve_left (by simp [hm])
    rw [shifted_of_free hm, shifted_of_free hm, shifted_of_free rfl, Mark.mk.injEq]
    exact ⟨by dsimp only; omega, rfl⟩

theorem reaches_shifted (h : m.Reaches axis offset) :
    (m.shifted offset).Reaches axis offset' ↔ m.Reaches axis (offset + offset') := by
  cases hm : m.fixed with
  | true =>
    rw [shifted_of_fixed hm]
    exact iff_of_true (.inl hm) (.inl hm)
  | false =>
    have hin := h.resolve_left (by simp [hm])
    rw [shifted_of_free hm]
    unfold Reaches
    simp only [hm, Bool.false_eq_true, false_or]
    omega

end Mark

/-! ## Places -/

/-- The offset along an axis of a copy over rows and columns. -/
def Axis.offset (rows columns : Int) : Axis → Int
  | .row => rows
  | .column => columns

namespace Place

variable {p q x y : Place} {axis : Axis} {rows columns offset : Int}

/-- The coordinates are lines that places can have. -/
def Nameable (p : Place) : Prop := ∀ axis, ∀ m ∈ p.mark? axis, m.index ≤ limit axis

instance : DecidablePred Nameable := fun p =>
  decidable_of_iff ((∀ m ∈ p.mark? .row, m.index ≤ limit .row) ∧
      ∀ m ∈ p.mark? .column, m.index ≤ limit .column)
    ⟨fun h axis => match axis with
      | .row => h.1
      | .column => h.2, fun h => ⟨h .row, h .column⟩⟩

theorem ext_marks (hkind : p.kind = q.kind) (hvalid : p.isValid = q.isValid)
    (hmarks : ∀ axis, p.mark? axis = q.mark? axis) : p = q := by
  have hrow := hmarks .row
  have hcolumn := hmarks .column
  cases p <;> cases q <;> simp_all [kind, isValid, mark?]

theorem mark?_movedBy_other (p : Place) (axis : Axis) (offset : Int) :
    (p.movedBy axis offset).mark? axis.other = p.mark? axis.other := by
  unfold movedBy
  split
  · rfl
  · split
    · rfl
    · split
      · exact mark?_invalidated ..
      · exact mark?_withMark_other ..

theorem isValid_movedBy_iff (h : ∀ m ∈ p.mark? axis, m.index ≤ limit axis) (offset : Int) :
    (p.movedBy axis offset).isValid = true ↔
      p.isValid = true ∧ ∀ m ∈ p.mark? axis, m.Reaches axis offset := by
  unfold movedBy
  cases hm : p.mark? axis with
  | none => simp
  | some m =>
    have hlimit := h m hm
    simp only [Option.mem_def, Option.some.injEq, forall_eq']
    split
    · next hstays =>
      refine (and_iff_left ?_).symm
      obtain rfl | hfixed := hstays
      · exact Mark.reaches_zero hlimit
      · exact .inl hfixed
    · next hmoves =>
      have hfree : m.fixed = false := by simpa using (not_or.mp hmoves).2
      unfold Mark.Reaches
      split
      · rw [isValid_invalidated]
        simp only [hfree, Bool.false_eq_true, false_or, false_iff]
        omega
      · rw [isValid_withMark]
        simp only [hfree, Bool.false_eq_true, false_or]
        exact (and_iff_left (by omega)).symm

theorem mark?_movedBy (h : ∀ m ∈ p.mark? axis, m.Reaches axis offset) :
    (p.movedBy axis offset).mark? axis = (p.mark? axis).map (Mark.shifted offset) := by
  unfold movedBy
  cases hm : p.mark? axis with
  | none => exact hm
  | some m =>
    have hreaches := h m hm
    dsimp only
    split
    · next hstays =>
      rw [hm, Option.map_some]
      refine congrArg some ?_
      obtain rfl | hfixed := hstays
      · exact m.shifted_zero.symm
      · exact (if_pos hfixed).symm
    · next hmoves =>
      have hfree : m.fixed = false := by simpa using (not_or.mp hmoves).2
      have hin := hreaches.resolve_left (by simp [hfree])
      rw [if_neg (by omega), mark?_withMark hm, Option.map_some, Mark.shifted, if_neg (by simp [hfree])]

/-- A place in the grid stays there exactly if all its coordinates do. -/
theorem isValid_shifted_iff (h : p.InGrid) : (p.shifted rows columns).isValid = true ↔
    ∀ axis, ∀ m ∈ p.mark? axis, m.Reaches axis (axis.offset rows columns) := by
  have hrow := isValid_movedBy_iff (h.le_limit .row) rows
  have hmark : (p.movedBy .row rows).mark? .column = p.mark? .column :=
    p.mark?_movedBy_other .row rows
  have hcolumn := isValid_movedBy_iff (hmark ▸ h.le_limit .column) columns
  rw [shifted, hcolumn, hrow, hmark]
  constructor
  · rintro ⟨⟨-, hr⟩, hc⟩ axis
    cases axis with
    | row => exact hr
    | column => exact hc
  · exact fun hall => ⟨⟨h.valid, hall .row⟩, hall .column⟩

theorem mark?_shifted (h : p.InGrid) (hv : (p.shifted rows columns).isValid = true) (axis : Axis) :
    (p.shifted rows columns).mark? axis =
      (p.mark? axis).map (Mark.shifted (axis.offset rows columns)) := by
  have hreaches := (isValid_shifted_iff h).mp hv
  have hmark : (p.movedBy .row rows).mark? .column = p.mark? .column :=
    p.mark?_movedBy_other .row rows
  cases axis with
  | row =>
    have hother : (p.shifted rows columns).mark? .row = (p.movedBy .row rows).mark? .row :=
      mark?_movedBy_other _ .column columns
    exact hother.trans (mark?_movedBy (hreaches .row))
  | column =>
    have hmoved := mark?_movedBy (hmark ▸ hreaches .column)
    rwa [hmark] at hmoved

/-- A copy of a copy stays in the grid exactly if the copy over both offsets does, and is that. -/
theorem shifted_shifted (h : p.InGrid) (hv : (p.shifted rows columns).isValid = true)
    (rows' columns' : Int) :
    (((p.shifted rows columns).shifted rows' columns').isValid = true ↔
        (p.shifted (rows + rows') (columns + columns')).isValid = true) ∧
      ((p.shifted (rows + rows') (columns + columns')).isValid = true →
        (p.shifted rows columns).shifted rows' columns' =
          p.shifted (rows + rows') (columns + columns')) := by
  have hreaches := (isValid_shifted_iff h).mp hv
  have hgrid := h.shifted hv
  have hmark := mark?_shifted h hv
  have hoffset (axis : Axis) : axis.offset rows columns + axis.offset rows' columns' =
      axis.offset (rows + rows') (columns + columns') := by
    cases axis <;> rfl
  have hvalid : ((p.shifted rows columns).shifted rows' columns').isValid = true ↔
      (p.shifted (rows + rows') (columns + columns')).isValid = true := by
    rw [isValid_shifted_iff hgrid, isValid_shifted_iff h]
    refine forall_congr' fun axis => ?_
    rw [hmark axis, ← hoffset]
    cases hm : p.mark? axis with
    | none => simp
    | some m => simpa using Mark.reaches_shifted (hreaches axis m hm)
  refine ⟨hvalid, fun hvboth => ext_marks ?_ ?_ fun axis => ?_⟩
  · rw [kind_shifted, kind_shifted, kind_shifted]
  · rw [hvalid.mpr hvboth, hvboth]
  · rw [mark?_shifted hgrid (hvalid.mpr hvboth), mark?_shifted h hvboth, hmark, ← hoffset]
    cases hm : p.mark? axis with
    | none => rfl
    | some m => exact congrArg some (Mark.shifted_shifted (hreaches axis m hm))

theorem Exchanged.isValid_shifted (h : Exchanged x y p q) (hx : x.InGrid) (hy : y.InGrid) :
    (p.shifted rows columns).isValid = true ∧ (q.shifted rows columns).isValid = true ↔
      (x.shifted rows columns).isValid = true ∧ (y.shifted rows columns).isValid = true := by
  obtain ⟨hp, hq⟩ := h.inGrid hx hy
  rw [isValid_shifted_iff hp, isValid_shifted_iff hq, isValid_shifted_iff hx,
    isValid_shifted_iff hy, ← forall_and, ← forall_and]
  refine forall_congr' fun axis => ?_
  obtain ⟨hpm, hqm⟩ | ⟨hpm, hqm⟩ := h.marks axis
  · rw [hpm, hqm]
  · rw [hpm, hqm, and_comm]

/-- Coordinates that are exchanged in places are exchanged in copies of them. -/
theorem Exchanged.shifted (h : Exchanged x y p q) (hx : x.InGrid) (hy : y.InGrid)
    (hv : (x.shifted rows columns).isValid = true ∧ (y.shifted rows columns).isValid = true) :
    Exchanged (x.shifted rows columns) (y.shifted rows columns) (p.shifted rows columns)
      (q.shifted rows columns) := by
  obtain ⟨hp, hq⟩ := h.inGrid hx hy
  have hv' := (h.isValid_shifted hx hy).mpr hv
  refine ⟨?_, ⟨hv'.1.trans hv.1.symm, hv'.2.trans hv.2.symm⟩, fun axis => ?_⟩
  · simpa only [kind_shifted] using h.kinds
  · rw [mark?_shifted hp hv'.1, mark?_shifted hq hv'.2, mark?_shifted hx hv.1,
      mark?_shifted hy hv.2]
    exact (h.marks axis).imp (And.imp (congrArg _) (congrArg _)) (And.imp (congrArg _) (congrArg _))

end Place

/-! ## Targets -/

namespace Target

variable {t : Target} {p q x y : Place} {rows columns : Int}

/-- The coordinates are lines that places can have. -/
def Nameable : Target → Prop
  | place p => p.Nameable
  | range a b => a.Nameable ∧ b.Nameable
  | name _ => True

instance : DecidablePred Nameable := fun t =>
  match t with
  | place p => inferInstanceAs (Decidable p.Nameable)
  | range a b => inferInstanceAs (Decidable (a.Nameable ∧ b.Nameable))
  | name _ => isTrue trivial

theorem isValid_shifted_range : ((range p q).shifted rows columns).isValid = true ↔
    (p.shifted rows columns).isValid = true ∧ (q.shifted rows columns).isValid = true := by
  rw [shifted, isValid_between, Bool.and_eq_true]

theorem region?_congr {u : Target} (hvalid : t.isValid = true ↔ u.isValid = true)
    (h : u.isValid = true → t.region? = u.region?) : t.region? = u.region? := by
  by_cases hu : u.isValid = true
  · exact h hu
  · exact (if_neg (hvalid.not.mpr hu)).trans (if_neg hu).symm

/-- A copy of the range between two places covers what lies between the copies of the places. -/
theorem shifted_between (hx : x.InGrid) (hy : y.InGrid) (rows columns : Int) :
    (((between x y).shifted rows columns).isValid = true ↔
        ((range x y).shifted rows columns).isValid = true) ∧
      ((between x y).shifted rows columns).region? =
        ((range x y).shifted rows columns).region? := by
  obtain ⟨p, q, hpq, h, -⟩ := exists_between x y
  have hvalid : ((range p q).shifted rows columns).isValid = true ↔
      ((range x y).shifted rows columns).isValid = true := by
    rw [isValid_shifted_range, isValid_shifted_range]
    exact h.isValid_shifted hx hy
  rw [hpq]
  refine ⟨hvalid, region?_congr hvalid fun hv => ?_⟩
  have hmoved := h.shifted hx hy (isValid_shifted_range.mp hv)
  rw [shifted, shifted, region?_between, region?_between, region?_range, region?_range,
    hmoved.valid.1, hmoved.valid.2, hmoved.hull_cells]

/-- A copy of a copy is valid exactly if the copy over both offsets is, and covers the same. -/
theorem shifted_shifted (h : t.Nameable) (hv : (t.shifted rows columns).isValid = true)
    (rows' columns' : Int) :
    (((t.shifted rows columns).shifted rows' columns').isValid = true ↔
        (t.shifted (rows + rows') (columns + columns')).isValid = true) ∧
      ((t.shifted rows columns).shifted rows' columns').region? =
        (t.shifted (rows + rows') (columns + columns')).region? := by
  cases t with
  | name n => exact ⟨Iff.rfl, rfl⟩
  | place p =>
    have hp : p.InGrid := ⟨Place.isValid_of_shifted hv, h⟩
    obtain ⟨hvalid, hsame⟩ := Place.shifted_shifted hp hv rows' columns'
    exact ⟨hvalid, region?_congr hvalid fun hboth => congrArg (region? ∘ place) (hsame hboth)⟩
  | range a b =>
    obtain ⟨hva, hvb⟩ := isValid_shifted_range.mp hv
    have ha : a.InGrid := ⟨Place.isValid_of_shifted hva, h.1⟩
    have hb : b.InGrid := ⟨Place.isValid_of_shifted hvb, h.2⟩
    obtain ⟨hvalid, hregion⟩ := shifted_between (ha.shifted hva) (hb.shifted hvb) rows' columns'
    obtain ⟨hvalida, hsamea⟩ := Place.shifted_shifted ha hva rows' columns'
    obtain ⟨hvalidb, hsameb⟩ := Place.shifted_shifted hb hvb rows' columns'
    have hboth : ((range (a.shifted rows columns) (b.shifted rows columns)).shifted rows'
        columns').isValid = true ↔
          ((range a b).shifted (rows + rows') (columns + columns')).isValid = true := by
      rw [isValid_shifted_range, isValid_shifted_range, hvalida, hvalidb]
    refine ⟨hvalid.trans hboth, hregion.trans (region?_congr hboth fun hv' => ?_)⟩
    obtain ⟨hva', hvb'⟩ := isValid_shifted_range.mp hv'
    rw [shifted, shifted, hsamea hva', hsameb hvb']

end Target

/-! ## References -/

namespace Reference

variable {r : Reference} {rows columns : Int} {f g : Target → Target}

/-- All coordinates in the reference are lines that places can have. -/
def Nameable (r : Reference) : Prop := ∀ t ∈ r.targets, t.Nameable

instance : DecidablePred Nameable := fun r =>
  inferInstanceAs (Decidable (∀ t ∈ r.targets, t.Nameable))

theorem isValid_map : (r.map f).isValid = true ↔ ∀ t ∈ r.targets, (f t).isValid = true := by
  rw [isValid, targets_map, List.all_map, List.all_eq_true]
  rfl

theorem regions_map_congr (h : ∀ t ∈ r.targets, (f t).region? = (g t).region?) :
    (r.map f).regions = (r.map g).regions := by
  unfold regions
  rw [targets_map, targets_map, List.filterMap_map, List.filterMap_map]
  exact List.filterMap_congr h

mutual
theorem hull?_map_congr : ∀ r : Reference,
    (∀ t ∈ r.targets, (f t).region? = (g t).region?) → (r.map f).hull? = (r.map g).hull?
  | single t, h => h t List.mem_cons_self
  | union [], _ => rfl
  | union (r :: rest), h =>
    congrArg₂ Option.bind (hull?_map_congr r fun t ht => h t (List.mem_append_left _ ht))
      (funext fun start =>
        hullOf?_map_congr rest (fun t ht => h t (List.mem_append_right _ ht)) start)
theorem hullOf?_map_congr : ∀ rs : List Reference,
    (∀ t ∈ targetsOf rs, (f t).region? = (g t).region?) →
      ∀ start : Region, hullOf? start (mapAll f rs) = hullOf? start (mapAll g rs)
  | [], _, _ => rfl
  | r :: rest, h, start =>
    congrArg₂ Option.bind (hull?_map_congr r fun t ht => h t (List.mem_append_left _ ht))
      (funext fun g' =>
        hullOf?_map_congr rest (fun t ht => h t (List.mem_append_right _ ht)) (start.hull g'))
end

/-- A reference in the grid is copied. A copy of the copy is valid exactly if the copy over both
offsets is, and denotes the same regions. -/
theorem copied_twice (grid : r.Nameable) (hv : (r.shifted rows columns).isValid = true)
    (rows' columns' : Int) :
    let twice := (r.shifted rows columns).shifted rows' columns'
    let once := r.shifted (rows + rows') (columns + columns')
    (twice.isValid = true ↔ once.isValid = true) ∧ twice.region? = once.region? ∧
      twice.regions = once.regions := by
  intro twice once
  have hparts (t : Target) (ht : t ∈ r.targets) := Target.shifted_shifted (grid t ht)
    (isValid_map.mp hv t ht) rows' columns'
  have htwice : twice = r.map (Target.shifted rows' columns' ∘ Target.shifted rows columns) :=
    map_map ..
  have hvalid : twice.isValid = true ↔ once.isValid = true := by
    rw [htwice, isValid_map]
    exact (forall₂_congr fun t ht => (hparts t ht).1).trans isValid_map.symm
  have hhull : twice.hull? = once.hull? :=
    htwice ▸ hull?_map_congr r fun t ht => (hparts t ht).2
  refine ⟨hvalid, ?_, htwice ▸ regions_map_congr fun t ht => (hparts t ht).2⟩
  rw [region?, region?, Bool.eq_iff_iff.mpr hvalid, hhull]

/-- The free end of `A1:A$3` passes the fixed one and comes back to its row. The copy over both
offsets has the ends in their first order. -/
theorem copied_twice_past_fixed_end :
    let corner (row column : Nat) (fixed : Bool) : Place := .cell ⟨row, fixed⟩ ⟨column, false⟩ true
    let r : Reference := .union [.single (.range (corner 0 0 false) (corner 2 0 true)),
      .single (.range (.column ⟨0, false⟩ true) (.column ⟨lastColumn, true⟩ true))]
    let twice := (r.shifted 5 1).shifted (-3) 2
    let once := r.shifted 2 3
    r.Nameable ∧ (r.shifted 5 1).isValid = true ∧ twice.isValid = true ∧ twice ≠ once ∧
      twice.region? = once.region? ∧ twice.regions = once.regions := by
  intro corner r twice once
  have grid : r.Nameable := by decide
  have hv : (r.shifted 5 1).isValid = true := by decide
  obtain ⟨hvalid, hregion, hregions⟩ := copied_twice grid hv (-3) 2
  exact ⟨grid, hv, hvalid.mpr (by decide), by decide, hregion, hregions⟩

end Reference

end Spreadsheet
