import Mathlib.Order.BooleanAlgebra.Set
import Mathlib.Tactic.Common
import Spreadsheet.Store.Matrix

/-! What a grid holds and which of its lines are in use, after each operation. A line in use that
holds nothing is vacant. Cells and vacant lines together are all there is to a grid: the lines
follow from them, and so does the count. -/

namespace Spreadsheet

theorem Axis.eq_other {a b : Axis} (h : a ≠ b) : a = b.other := by
  cases a <;> cases b <;> first | rfl | exact absurd rfl h

namespace Slot

@[simp] theorem index_position (axis : Axis) (s : Slot) : (s.position axis).index axis = s.line := by
  cases axis <;> rfl

@[simp] theorem index_other_position (axis : Axis) (s : Slot) :
    (s.position axis).index axis.other = s.index := by cases axis <;> rfl

theorem compare_eq_lt {s t : Slot} :
    compare s t = .lt ↔ s.line < t.line ∨ s.line = t.line ∧ s.index < t.index := by
  show (compareLex (compareOn line) (compareOn index)) s t = .lt ↔ _
  simp only [compareLex, compareOn, Ordering.then_eq_lt, Nat.compare_eq_lt, Nat.compare_eq_eq]

end Slot

namespace Line

variable {α : Type} {l : Line α}

theorem ne_empty_of_get? {i : Nat} {a : α} (h : l.get? i = some a) : l ≠ .empty := by
  rintro rfl
  rw [get?_empty] at h
  cases h

/-- A line that holds something holds something somewhere. -/
theorem exists_get?_of_ne_empty (h : l ≠ .empty) : ∃ i a, l.get? i = some a := by
  by_contra hnone
  refine h (ext_get? fun i => ?_)
  rw [get?_empty]
  exact Option.eq_none_iff_forall_ne_some.mpr fun a ha => hnone ⟨i, a, ha⟩

end Line

namespace Matrix

variable {α β : Type} {m n : Matrix α}

theorem slot_inj {axis : Axis} {p q : Position}
    (h : Slot.ofPosition axis p = Slot.ofPosition axis q) : p = q := by
  have := congrArg (Slot.position axis) h
  simpa using this

/-- The lines that are in use though nothing is in them. -/
def vacant (m : Matrix α) : Set Nat := {i | m.lines.get? i = some .empty}

theorem get?_lines_eq_some {i : Nat} {line : Line α} :
    m.lines.get? i = some line ↔ m.lineAt i = line ∧ (line ≠ .empty ∨ i ∈ m.vacant) := by
  unfold lineAt vacant
  rw [Set.mem_ofPred_eq]
  cases m.lines.get? i with
  | none => simp [eq_comm]
  | some line' =>
    simp only [Option.some.injEq, Option.getD_some]
    constructor
    · intro h
      rw [h]
      exact ⟨rfl, (em (line = .empty)).symm⟩
    · exact And.left

/-- A grid is what it holds, how it is stored, and which lines are vacant. -/
theorem ext_get? (ha : m.axis = n.axis) (hv : m.vacant = n.vacant)
    (hg : ∀ p, m.get? p = n.get? p) : m = n := by
  have hline (i : Nat) : m.lineAt i = n.lineAt i := Line.ext_get? fun j => by
    have h := hg ((Slot.mk i j).position m.axis)
    unfold get? at h
    rwa [← ha, Slot.ofPosition_position, slot?_eq_lineAt, slot?_eq_lineAt] at h
  have hlines : m.lines = n.lines := Line.ext_get? fun i => Option.ext fun line => by
    rw [get?_lines_eq_some, get?_lines_eq_some, hline, hv]
  obtain ⟨axis, lines, size, rfl⟩ := m
  obtain ⟨axis', lines', size', rfl⟩ := n
  cases ha
  cases hlines
  rfl

@[simp] theorem get?_empty (axis : Axis) (p : Position) :
    (empty axis : Matrix α).get? p = none := by
  unfold get? slot? empty
  rw [Line.get?_empty]
  rfl

theorem vacant_empty (axis : Axis) : (empty axis : Matrix α).vacant = ∅ := by
  refine Set.eq_empty_iff_forall_notMem.mpr fun i hi => ?_
  have hnone : (empty axis : Matrix α).lines.get? i = none := Line.get?_empty i
  exact Option.some_ne_none _ (hi.symm.trans hnone)

/-! ## Filling a cell and emptying one -/

theorem get?_eq_lineAt (m : Matrix α) (p : Position) :
    m.get? p = (m.lineAt (p.index m.axis)).get? (p.index m.axis.other) :=
  m.slot?_eq_lineAt _

/-- When one slot changes, one cell does. -/
theorem get?_of_lineAt (m n : Matrix α) (p : Position) (changed : Option α) (ha : n.axis = m.axis)
    (hline : ∀ i j, (n.lineAt i).get? j =
      if p.index m.axis = i ∧ p.index m.axis.other = j then changed else (m.lineAt i).get? j)
    (q : Position) : n.get? q = if p = q then changed else m.get? q := by
  rw [get?_eq_lineAt, get?_eq_lineAt, ha, hline]
  refine if_congr ⟨fun h => ?_, fun h => ?_⟩ rfl rfl
  · exact slot_inj (Slot.mk.injEq .. ▸ h)
  · rw [h]
    exact ⟨rfl, rfl⟩

theorem lineAt_set (m : Matrix α) (p : Position) (a : α) (i : Nat) :
    (m.set p a).lineAt i =
      if p.index m.axis = i then (m.lineAt i).set (p.index m.axis.other) a else m.lineAt i := by
  rw [lineAt, lines_set, Line.get?_set]
  split
  · next h =>
    rw [← h]
    rfl
  · rfl

theorem get?_set (m : Matrix α) (p q : Position) (a : α) :
    (m.set p a).get? q = if p = q then some a else m.get? q := by
  refine get?_of_lineAt m (m.set p a) p (some a) (axis_set ..) (fun i j => ?_) q
  rw [lineAt_set]
  by_cases hi : p.index m.axis = i
  · rw [if_pos hi, Line.get?_set]
    simp only [hi, true_and]
  · rw [if_neg hi, if_neg fun h => hi h.1]

theorem get?_withLine (lines : Line (Line α)) (i j : Nat) (line : Line α) :
    (withLine lines i line).get? j =
      if i = j then (if line.isEmpty then none else some line) else lines.get? j := by
  unfold withLine
  split
  · exact Line.get?_remove ..
  · exact Line.get?_set ..

theorem getD_withLine (lines : Line (Line α)) (i j : Nat) (line : Line α) :
    ((withLine lines i line).get? j).getD .empty =
      if i = j then line else (lines.get? j).getD .empty := by
  rw [get?_withLine]
  split
  · split
    · next hempty => exact (Line.isEmpty_iff.mp hempty).symm
    · rfl
  · rfl

/-- The line that is put in is not vacant. -/
theorem get?_withLine_eq_empty_iff {lines : Line (Line α)} {i j : Nat} {line : Line α} :
    (withLine lines i line).get? j = some .empty ↔ lines.get? j = some .empty ∧ j ≠ i := by
  rw [get?_withLine]
  by_cases h : i = j
  · rw [if_pos h]
    refine iff_of_false (fun e => ?_) fun e => e.2 h.symm
    split at e
    · cases e
    · next hempty => exact hempty (Line.isEmpty_iff.mpr (Option.some.inj e))
  · rw [if_neg h, and_iff_left (Ne.symm h)]

theorem lineAt_remove (m : Matrix α) (p : Position) (i : Nat) :
    (m.remove p).lineAt i =
      if p.index m.axis = i then (m.lineAt i).remove (p.index m.axis.other) else m.lineAt i := by
  rw [lineAt, lines_remove, getD_withLine]
  split
  · next h => rw [h]
  · rfl

theorem get?_remove (m : Matrix α) (p q : Position) :
    (m.remove p).get? q = if p = q then none else m.get? q := by
  refine get?_of_lineAt m (m.remove p) p none (axis_remove ..) (fun i j => ?_) q
  rw [lineAt_remove]
  by_cases hi : p.index m.axis = i
  · rw [if_pos hi, Line.get?_remove]
    simp only [hi, true_and]
  · rw [if_neg hi, if_neg fun h => hi h.1]

@[simp] theorem get?_set_self (m : Matrix α) (p : Position) (a : α) :
    (m.set p a).get? p = some a := by
  rw [get?_set, if_pos rfl]

@[simp] theorem get?_remove_self (m : Matrix α) (p : Position) : (m.remove p).get? p = none := by
  rw [get?_remove, if_pos rfl]

theorem get?_set_of_ne (m : Matrix α) {p q : Position} (a : α) (h : p ≠ q) :
    (m.set p a).get? q = m.get? q := by
  rw [get?_set, if_neg h]

theorem get?_remove_of_ne (m : Matrix α) {p q : Position} (h : p ≠ q) :
    (m.remove p).get? q = m.get? q := by
  rw [get?_remove, if_neg h]

theorem vacant_set (m : Matrix α) (p : Position) (a : α) :
    (m.set p a).vacant = m.vacant \ {p.index m.axis} := by
  ext i
  show (m.set p a).lines.get? i = some .empty ↔
    m.lines.get? i = some .empty ∧ i ≠ p.index m.axis
  rw [lines_set, Line.get?_set]
  by_cases h : p.index m.axis = i
  · rw [if_pos h]
    refine iff_of_false (fun e => ?_) fun e => e.2 h.symm
    have hcell := congrArg (Line.get? · (p.index m.axis.other)) (Option.some.inj e)
    simp [Line.get?_set] at hcell
  · rw [if_neg h, and_iff_left (Ne.symm h)]

/-- Emptying any cell of a vacant line ends its use. -/
theorem vacant_remove (m : Matrix α) (p : Position) :
    (m.remove p).vacant = m.vacant \ {p.index m.axis} :=
  Set.ext fun _ => get?_withLine_eq_empty_iff

/-! ## Changing values -/

theorem get?_modify (m : Matrix α) (p q : Position) (f : α → α) :
    (m.modify p f).get? q = if p = q then (m.get? q).map f else m.get? q := by
  have hcell := get?_of_lineAt m (m.modify p f) p ((m.get? p).map f)
    (axis_modify ..) (fun i j => ?_) q
  · rw [hcell]
    split
    · next h => rw [h]
    · rfl
  · unfold lineAt
    rw [lines_modify, Line.get?_modify]
    by_cases hi : p.index m.axis = i
    · subst hi
      rw [if_pos rfl, get?_eq_lineAt]
      unfold lineAt
      cases m.lines.get? (p.index m.axis) with
      | none => simp
      | some line =>
        simp only [Option.map_some, Option.getD_some, Line.get?_modify, true_and]
        split
        · next h => rw [h]
        · rfl
    · rw [if_neg hi, if_neg fun h => hi h.1]

theorem get?_map (m : Matrix α) (q : Position) (f : α → β) :
    (m.map f).get? q = (m.get? q).map f := by
  show ((m.lines.map fun line => line.map f).get? (q.index m.axis)).bind _ = _
  unfold get? slot?
  rw [Line.get?_map, Option.map_bind, Option.bind_map]
  exact Option.bind_congr fun line _ => Line.get?_map ..

/-- Lines that keep their number of cells are vacant when they were. -/
theorem vacant_of_lines {n : Matrix β} (change : Nat → Line α → Line β)
    (hsize : ∀ i line, (change i line).size = line.size)
    (h : ∀ i, n.lines.get? i = (m.lines.get? i).map (change i)) : n.vacant = m.vacant := by
  ext i
  show n.lines.get? i = some .empty ↔ m.lines.get? i = some .empty
  rw [h]
  cases m.lines.get? i with
  | none => simp
  | some line =>
    simp only [Option.map_some, Option.some.injEq]
    rw [Line.eq_empty_iff_size, Line.eq_empty_iff_size, hsize]

theorem vacant_modify (m : Matrix α) (p : Position) (f : α → α) :
    (m.modify p f).vacant = m.vacant := by
  refine vacant_of_lines (fun i line =>
    if p.index m.axis = i then line.modify (p.index m.axis.other) f else line)
    (fun i line => ?_) fun i => ?_
  · split
    · exact Line.size_modify ..
    · rfl
  · rw [lines_modify, Line.get?_modify]
    split
    · rfl
    · exact Option.map_id'.symm

theorem vacant_map (m : Matrix α) (f : α → β) : (m.map f).vacant = m.vacant :=
  vacant_of_lines (fun _ line => line.map f) (fun _ line => line.size_map f) fun _ =>
    Line.get?_map ..

/-! ## Trying a cell -/

/-- The grid once a cell is filled and emptied again, or filled with what it held: as it was, but
for the line of the cell, which is vacant no longer. -/
def occupied (m : Matrix α) (p : Position) : Matrix α where
  axis := m.axis
  lines := withLine m.lines (p.index m.axis) (m.lineAt (p.index m.axis))
  size := m.size
  size_eq := by
    rw [total_withLine]
    exact m.size_eq_lineAt _

theorem get?_occupied (m : Matrix α) (p q : Position) : (m.occupied p).get? q = m.get? q := by
  rw [get?_eq_lineAt, get?_eq_lineAt]
  congr 1
  refine (getD_withLine m.lines (p.index m.axis) (q.index m.axis) _).trans ?_
  split
  · next h => rw [h]
  · rfl

theorem vacant_occupied (m : Matrix α) (p : Position) :
    (m.occupied p).vacant = m.vacant \ {p.index m.axis} :=
  Set.ext fun _ => get?_withLine_eq_empty_iff

theorem index_not_mem_vacant {p : Position} (h : (m.get? p).isSome = true) :
    p.index m.axis ∉ m.vacant := by
  intro hi
  have hline : m.lines.get? (p.index m.axis) = some .empty := hi
  unfold get? slot? Slot.ofPosition at h
  rw [hline, Option.bind_some, Line.get?_empty] at h
  contradiction

/-- Nothing has changed unless the line was vacant. -/
theorem occupied_eq_self_iff {p : Position} : m.occupied p = m ↔ p.index m.axis ∉ m.vacant := by
  constructor
  · intro h hi
    rw [← h, vacant_occupied] at hi
    exact hi.2 rfl
  · intro h
    refine ext_get? rfl ?_ (m.get?_occupied p)
    rw [vacant_occupied, Set.sdiff_singleton_eq_self h]

/-- Filling an empty cell and emptying it again. -/
theorem remove_set {p : Position} (h : m.get? p = none) (a : α) :
    (m.set p a).remove p = m.occupied p := by
  refine ext_get? (by rw [axis_remove, axis_set]; rfl) ?_ fun q => ?_
  · rw [vacant_remove, vacant_set, vacant_occupied, axis_set]
    exact sdiff_idem
  · rw [get?_remove, get?_set, get?_occupied]
    split
    · next e => rw [← e, h]
    · rfl

/-- Filling a cell and filling it again with what it held. -/
theorem set_set {p : Position} {old : α} (h : m.get? p = some old) (a : α) :
    (m.set p a).set p old = m.occupied p := by
  refine ext_get? (by rw [axis_set, axis_set]; rfl) ?_ fun q => ?_
  · rw [vacant_set, vacant_set, vacant_occupied, axis_set]
    exact sdiff_idem
  · rw [get?_set, get?_set, get?_occupied]
    split
    · next e => rw [← e, h]
    · rfl

/-! ## Regions -/

theorem lineAt_removeRegion (m : Matrix α) (r : Region) (i : Nat) :
    (m.removeRegion r).lineAt i =
      if (r.span m.axis).contains i then
        (m.lineAt i).filter fun j _ => !(r.span m.axis.other).contains j
      else m.lineAt i := by
  show ((m.linesOutside r).get? i).getD .empty = _
  unfold linesOutside lineAt
  rw [Line.get?_filterMap]
  cases m.lines.get? i with
  | none =>
    have hempty (f : Nat → α → Bool) : (Line.empty : Line α).filter f = .empty :=
      Line.ext_get? fun j => by rw [Line.get?_filter, Line.get?_empty]; rfl
    simp [hempty]
  | some line =>
    rw [Option.bind_some]
    split
    · unfold withoutSpan?
      dsimp only
      split
      · next h => exact (Line.isEmpty_iff.mp h).symm
      · rfl
    · rfl

theorem get?_removeRegion (m : Matrix α) (r : Region) (q : Position) :
    (m.removeRegion r).get? q = if r.contains q then none else m.get? q := by
  have hcontains : r.contains q = ((r.span m.axis).contains (q.index m.axis) &&
      (r.span m.axis.other).contains (q.index m.axis.other)) := by
    cases m.axis with
    | row => rfl
    | column => exact Bool.and_comm ..
  rw [get?_eq_lineAt, get?_eq_lineAt, hcontains]
  show ((m.removeRegion r).lineAt (q.index m.axis)).get? (q.index m.axis.other) = _
  rw [lineAt_removeRegion]
  cases (r.span m.axis).contains (q.index m.axis) with
  | false => rfl
  | true =>
    rw [if_pos rfl, Line.get?_filter, Bool.true_and]
    cases (r.span m.axis.other).contains (q.index m.axis.other) <;>
      cases (m.lineAt (q.index m.axis)).get? (q.index m.axis.other) <;> rfl

theorem vacant_removeRegion (m : Matrix α) (r : Region) :
    (m.removeRegion r).vacant = {i ∈ m.vacant | (r.span m.axis).contains i = false} := by
  ext i
  show (m.linesOutside r).get? i = some .empty ↔ m.lines.get? i = some .empty ∧ _
  unfold linesOutside
  rw [Line.get?_filterMap]
  cases m.lines.get? i with
  | none => simp
  | some line =>
    rw [Option.bind_some]
    cases (r.span m.axis).contains i with
    | false => simp
    | true =>
      refine iff_of_false (fun e => ?_) fun e => Bool.noConfusion e.2
      rw [if_pos rfl, withoutSpan?] at e
      split at e
      · cases e
      · next h => exact h (Line.isEmpty_iff.mpr (Option.some.inj e))

end Matrix

end Spreadsheet
