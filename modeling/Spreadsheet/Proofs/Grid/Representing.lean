import Mathlib.Data.Multiset.AddSub
import Spreadsheet.Proofs.Grid.Undoing

/-! What the form of a reference keeps while lines come and go and formulas are copied. No step
makes a range of a cell or a cell of a range. A range stays between two places of one kind in
order: where its free end passes its fixed one, the two exchange their coordinates. So a line with
`$` may come to stand at the other end, and is still one of the lines with `$`. -/

namespace Spreadsheet

/-! ## Kinds -/

/-- What a target is, whatever its lines. -/
inductive Target.Kind where
  | place (kind : Place.Kind)
  | range (first last : Place.Kind)
  | name
  deriving DecidableEq, Repr

/-- What a reference is, and each of its parts. -/
inductive Reference.Kind where
  | single (kind : Target.Kind)
  | union (parts : List Reference.Kind)

def Target.kind : Target → Kind
  | place p => .place p.kind
  | range a b => .range a.kind b.kind
  | name _ => .name

namespace Reference

mutual
def kind : Reference → Kind
  | single t => .single t.kind
  | union parts => .union (kinds parts)
def kinds : List Reference → List Kind
  | [] => []
  | r :: rest => kind r :: kinds rest
end

mutual
theorem kind_map {f : Target → Target} (h : ∀ t, (f t).kind = t.kind) :
    ∀ r : Reference, (r.map f).kind = r.kind
  | single t => congrArg Kind.single (h t)
  | union parts => congrArg Kind.union (kinds_mapAll h parts)
theorem kinds_mapAll {f : Target → Target} (h : ∀ t, (f t).kind = t.kind) :
    ∀ rs : List Reference, kinds (mapAll f rs) = kinds rs
  | [] => rfl
  | r :: rest => congrArg₂ List.cons (kind_map h r) (kinds_mapAll h rest)
end

end Reference

/-! ## Lines with `$` -/

namespace Place

/-- The line of the place along an axis, if it has one with `$`. -/
def fixedLines (axis : Axis) (p : Place) : Multiset Nat :=
  match p.mark? axis with
  | some m => if m.fixed then {m.index} else 0
  | none => 0

variable {p q : Place} {axis : Axis} {m : Mark}

theorem fixedLines_congr (h : q.mark? axis = p.mark? axis) :
    q.fixedLines axis = p.fixedLines axis := by
  rw [fixedLines, fixedLines, h]

theorem fixedLines_of_free (hm : p.mark? axis = some m) (hfree : m.fixed = false) :
    p.fixedLines axis = 0 := by
  simp [fixedLines, hm, hfree]

/-- To move a free coordinate moves no line with `$`. -/
theorem fixedLines_withMark (hm : p.mark? axis = some m) (hfree : m.fixed = false) (i : Nat)
    (along : Axis) : (p.withMark axis ⟨i, false⟩).fixedLines along = p.fixedLines along := by
  by_cases haxis : along = axis
  · subst haxis
    rw [fixedLines_of_free hm hfree, fixedLines_of_free (mark?_withMark hm _) rfl]
  · obtain rfl := Axis.eq_other_of_ne haxis
    exact fixedLines_congr (mark?_withMark_other ..)

theorem fixedLines_movedBy (p : Place) (axis : Axis) (offset : Int) (along : Axis) :
    (p.movedBy axis offset).fixedLines along = p.fixedLines along := by
  unfold movedBy
  split
  · rfl
  · next m hm =>
    split
    · rfl
    · next hmoves =>
      split
      · exact fixedLines_congr (mark?_invalidated p along)
      · exact fixedLines_withMark hm (by simpa using (not_or.mp hmoves).2) _ along

theorem fixedLines_shifted (p : Place) (rows columns : Int) (axis : Axis) :
    (p.shifted rows columns).fixedLines axis = p.fixedLines axis :=
  (fixedLines_movedBy _ .column columns axis).trans (fixedLines_movedBy p .row rows axis)

end Place

theorem Edit.fixedLines_place (e : Edit) (p : Place) (axis : Axis) :
    (e.place p).fixedLines axis = p.fixedLines axis := by
  cases e with
  | insert along start count =>
    change (p.afterInsert along start count).fixedLines axis = _
    unfold Place.afterInsert
    split
    · split
      · exact p.fixedLines_movedBy ..
      · rfl
    · rfl
  | remove along start count =>
    change (p.afterRemove along start count).fixedLines axis = _
    unfold Place.afterRemove
    split
    · split
      · exact Place.fixedLines_congr (p.mark?_invalidated axis)
      · split
        · exact p.fixedLines_movedBy ..
        · rfl
    · rfl

/-! ## Ranges -/

namespace Target

theorem kind_between (a b : Place) : (between a b).kind = .range a.kind b.kind := by
  obtain ⟨p, q, hpq, h, -⟩ := exists_between a b
  rw [hpq, kind, h.kinds.1, h.kinds.2]

/-- The lines along an axis that have `$`, each as often as it stands there. -/
def fixedLines (axis : Axis) : Target → Multiset Nat
  | place p => p.fixedLines axis
  | range a b => a.fixedLines axis + b.fixedLines axis
  | name _ => 0

theorem fixedLines_between (axis : Axis) (a b : Place) :
    (between a b).fixedLines axis = a.fixedLines axis + b.fixedLines axis := by
  obtain ⟨p, q, hpq, h, -⟩ := exists_between a b
  rw [hpq, fixedLines]
  obtain ⟨hp, hq⟩ | ⟨hp, hq⟩ := h.marks axis
  · rw [Place.fixedLines_congr hp, Place.fixedLines_congr hq]
  · rw [Place.fixedLines_congr hp, Place.fixedLines_congr hq, Multiset.add_comm]

theorem fixedLines_stretchedEnd {a : Place} {axis : Axis} {m : Mark} (hm : a.mark? axis = some m)
    (i : Nat) (along : Axis) :
    (stretchedEnd a axis m i).fixedLines along = a.fixedLines along := by
  unfold stretchedEnd
  split
  · rfl
  · next hfree => exact Place.fixedLines_withMark hm (by simpa using hfree) i along

/-- A range is between places of one kind, the first one before the last along each axis. -/
def IsPaired : Target → Prop
  | range a b => a.kind = b.kind ∧ ∀ axis, SortedAlong axis (a, b)
  | place _ | name _ => True

theorem isPaired_iff {t : Target} :
    t.IsPaired ↔ t.IsSorted ∧ ∀ k l, t.kind = .range k l → k = l := by
  cases t with
  | place p => exact iff_of_true trivial ⟨trivial, nofun⟩
  | name n => exact iff_of_true trivial ⟨trivial, nofun⟩
  | range a b =>
    rw [isSorted_range, and_comm]
    refine and_congr_left fun _ => ⟨fun h k l hkl => ?_, fun h => h _ _ rfl⟩
    cases hkl
    exact h

theorem isPaired_between {a b : Place} (h : a.kind = b.kind) : (between a b).IsPaired := by
  refine isPaired_iff.mpr ⟨isSorted_between a b, fun k l hkl => ?_⟩
  rw [kind_between] at hkl
  cases hkl
  exact h

end Target

/-! ## Steps -/

namespace Revision

variable {t : Target} {r : Reference}

theorem kind_target (v : Revision) (t : Target) : (v.target t).kind = t.kind := by
  cases v with
  | copy rows columns =>
    cases t with
    | place p => exact congrArg Target.Kind.place (p.kind_shifted rows columns)
    | range a b =>
      refine (Target.kind_between _ _).trans ?_
      rw [Place.kind_shifted, Place.kind_shifted, Target.kind]
    | name n => rfl
  | edit e =>
    rw [target]
    split
    · rfl
    · cases t with
      | place p =>
        rw [Edit.target_place]
        exact congrArg Target.Kind.place (e.becomes_place p).kind
      | range a b =>
        obtain hr | hr | ⟨m, n, s, -, -, -, hr⟩ := e.target_range_cases a b
        · rw [hr]
        · rw [hr]
          exact congrArg₂ Target.Kind.range a.kind_invalidated b.kind_invalidated
        · rw [hr, Target.stretched_eq, Target.kind_between, Target.kind_stretchedEnd,
            Target.kind_stretchedEnd, Target.kind]
      | name n => rw [Edit.target_name]

theorem fixedLines_target (v : Revision) (t : Target) (axis : Axis) :
    (v.target t).fixedLines axis = t.fixedLines axis := by
  cases v with
  | copy rows columns =>
    cases t with
    | place p => exact p.fixedLines_shifted rows columns axis
    | range a b =>
      refine (Target.fixedLines_between axis _ _).trans ?_
      rw [Place.fixedLines_shifted, Place.fixedLines_shifted, Target.fixedLines]
    | name n => rfl
  | edit e =>
    rw [target]
    split
    · rfl
    · cases t with
      | place p =>
        rw [Edit.target_place]
        exact e.fixedLines_place p axis
      | range a b =>
        obtain hr | hr | ⟨m, n, s, hm, hn, -, hr⟩ := e.target_range_cases a b
        · rw [hr]
        · rw [hr]
          exact congrArg₂ (· + ·) (Place.fixedLines_congr (a.mark?_invalidated axis))
            (Place.fixedLines_congr (b.mark?_invalidated axis))
        · rw [hr, Target.stretched_eq, Target.fixedLines_between,
            Target.fixedLines_stretchedEnd hm, Target.fixedLines_stretchedEnd hn,
            Target.fixedLines]
      | name n => rw [Edit.target_name]

theorem isPaired_target (v : Revision) (h : t.IsPaired) : (v.target t).IsPaired := by
  obtain ⟨hsorted, hkinds⟩ := Target.isPaired_iff.mp h
  exact Target.isPaired_iff.mpr ⟨Target.isSorted_revised v hsorted, by rwa [v.kind_target t]⟩

/-! ## References -/

/-- A step leaves as it is what it leaves as it is of each target. -/
theorem map_targets_reference {α : Type} {f : Target → α} {v : Revision}
    (h : ∀ t, f (v.target t) = f t) (r : Reference) :
    (v.reference r).targets.map f = r.targets.map f := by
  obtain hr | ⟨-, hr⟩ := v.reference_cases r
  · rw [hr, Reference.targets_map, List.map_map]
    exact List.map_congr_left fun t _ => h t
  · rw [hr]

theorem kind_reference (v : Revision) (r : Reference) : (v.reference r).kind = r.kind := by
  obtain hr | ⟨-, hr⟩ := v.reference_cases r
  · rw [hr]
    exact Reference.kind_map v.kind_target r
  · rw [hr]

theorem isPaired_reference (v : Revision) (h : ∀ t ∈ r.targets, t.IsPaired) :
    ∀ t ∈ (v.reference r).targets, t.IsPaired := by
  obtain hr | ⟨-, hr⟩ := v.reference_cases r
  · rw [hr, Reference.targets_map, List.forall_mem_map]
    exact fun t ht => v.isPaired_target (h t ht)
  · rwa [hr]

/-- Every history keeps what each step keeps. -/
theorem referenceAfter_invariant {P : Reference → Prop}
    (hstep : ∀ (v : Revision) (r : Reference), P r → P (v.reference r)) (vs : List Revision)
    {r : Reference} (h : P r) : P (referenceAfter vs r) := by
  induction vs generalizing r with
  | nil => exact h
  | cons v vs ih => exact ih (hstep v r h)

end Revision

namespace Reference

/-- The references that are read from a text or made from positions, from places of one kind, or
from other references. -/
inductive Built : Reference → Prop
  | read {text : String} {r : Reference} (h : read? text = some r) : Built r
  | cell (p : Position) : Built (.ofPosition p)
  | corners (p q : Position) : Built (.ofCorners p q)
  | range {a b : Place} {t : Target} (h : Target.between? a b = some t) : Built (.single t)
  | union {parts : List Reference} (h : ∀ r ∈ parts, Built r) : Built (.union parts)

theorem mem_targetsOf {t : Target} {rs : List Reference} :
    t ∈ targetsOf rs ↔ ∃ r ∈ rs, t ∈ r.targets := by
  induction rs with
  | nil => simp [targetsOf]
  | cons r rs ih => simp [targetsOf, ih]

theorem Built.isPaired {r : Reference} (h : r.Built) : ∀ t ∈ r.targets, t.IsPaired := by
  induction h with
  | @read text r h =>
    obtain ⟨p, -, rfl⟩ | ⟨kind, left, right, p, q, -, hp, hq, rfl⟩ := read?_eq_some h
    · exact List.forall_mem_singleton.mpr trivial
    · have hkinds : p.kind = q.kind := (Place.kind_of_read? hp).trans (Place.kind_of_read? hq).symm
      exact List.forall_mem_singleton.mpr (Target.isPaired_between hkinds)
  | cell p => exact List.forall_mem_singleton.mpr trivial
  | corners p q => exact List.forall_mem_singleton.mpr (Target.isPaired_between rfl)
  | @range a b t h =>
    obtain ⟨hkinds, ht⟩ := Option.ite_none_right_eq_some.mp h
    cases ht
    exact List.forall_mem_singleton.mpr (Target.isPaired_between hkinds)
  | @union parts h ih =>
    intro t ht
    obtain ⟨r, hr, htr⟩ := mem_targetsOf.mp ht
    exact ih r hr t htr

/-- Whatever comes of a reference, its kind stays, its ranges are between places of one kind in
order, and each of its targets has the same lines with `$`. Once it is gone it stays gone. -/
theorem representation_kept {r : Reference} (h : r.Built) (vs : List Revision) :
    let s := Revision.referenceAfter vs r
    s.kind = r.kind ∧ (∀ t ∈ s.targets, t.IsPaired) ∧
      (s.isValid = false → ∀ ws, (Revision.referenceAfter ws s).isValid = false) ∧
      ∀ axis, s.targets.map (·.fixedLines axis) = r.targets.map (·.fixedLines axis) := by
  refine ⟨?_, ?_, fun hgone ws => ?_, fun axis => ?_⟩
  · exact Revision.referenceAfter_invariant (P := fun s => s.kind = r.kind)
      (fun v s hs => (v.kind_reference s).trans hs) vs rfl
  · exact Revision.referenceAfter_invariant (P := fun s => ∀ t ∈ s.targets, t.IsPaired)
      (fun v _ => v.isPaired_reference) vs h.isPaired
  · exact eq_false_of_ne_true fun hvalid => by
      simp [Revision.isValid_of_referenceAfter hvalid] at hgone
  · exact Revision.referenceAfter_invariant
      (P := fun s => s.targets.map (·.fixedLines axis) = r.targets.map (·.fixedLines axis))
      (fun v s hs => (Revision.map_targets_reference (v.fixedLines_target · axis) s).trans hs)
      vs rfl

/-- Rows inserted in front push the free end of `A1:A$3` past the fixed one. -/
theorem representation_kept_across_exchange :
    let corner (row column : Nat) (fixed : Bool) : Place := .cell ⟨row, fixed⟩ ⟨column, false⟩ true
    let r : Reference := .union [.single (.range (corner 0 0 false) (corner 2 0 true)),
      .ofPosition ⟨1, 1⟩]
    let vs : List Revision := [.edit (.insert .row 0 5), .copy 0 1]
    let s := Revision.referenceAfter vs r
    r.Built ∧ s = .union [.single (.range (corner 2 1 true) (corner 5 1 false)),
        .ofPosition ⟨6, 2⟩] ∧
      s.kind = r.kind ∧ (∀ t ∈ s.targets, t.IsPaired) ∧
      s.targets.map (·.fixedLines .row) = [{2}, 0] := by
  intro corner r vs s
  have hbuilt : r.Built := by
    refine .union (List.forall_mem_cons.mpr ⟨@Built.read "A1:A$3" _ rfl, ?_⟩)
    exact List.forall_mem_singleton.mpr (.cell ⟨1, 1⟩)
  obtain ⟨hkind, hpaired, -, hfixed⟩ := representation_kept hbuilt vs
  exact ⟨hbuilt, by decide, hkind, hpaired, hfixed .row⟩

end Reference

end Spreadsheet
