import Spreadsheet.Proofs.Store.Lines

/-! What the listings of a grid depend on, and what it holds after an edit. Two grids that hold
the same in a region list the same there, whatever their storage axes; which lines count as used
depends only on which cells are filled and which lines are vacant. -/

namespace Spreadsheet

/-- A list that goes strictly forward is determined by what is in it. -/
theorem eq_of_forward {κ β : Type} [Ord κ] [Std.TransOrd κ] {l l' : List (κ × β)}
    (h : l.Pairwise fun a b => compare a.1 b.1 = .lt)
    (h' : l'.Pairwise fun a b => compare a.1 b.1 = .lt) (hm : ∀ c, c ∈ l ↔ c ∈ l') : l = l' := by
  have hne {a b : κ × β} (hab : compare a.1 b.1 = .lt) : a ≠ b := by
    rintro rfl
    rw [Std.ReflOrd.compare_self] at hab
    contradiction
  have hp : l.Perm l' :=
    (List.perm_ext_iff_of_nodup (h.imp hne) (h'.imp hne)).mpr hm
  refine hp.eq_of_pairwise (fun a b _ _ hab hba => ?_) h h'
  rw [Std.OrientedOrd.eq_swap, hba] at hab
  contradiction

theorem Position.ext_index {axis : Axis} {p q : Position} (h : p.index axis = q.index axis)
    (h' : p.index axis.other = q.index axis.other) : p = q := by
  obtain ⟨row, column⟩ := p
  obtain ⟨row', column'⟩ := q
  cases axis <;> cases h <;> cases h' <;> rfl

/-- The coordinates are numbers that a line can have. -/
def Position.OnGrid (p : Position) : Prop := p.row ≤ endless ∧ p.column ≤ endless

instance : DecidablePred Position.OnGrid := fun _ => inferInstanceAs (Decidable (_ ∧ _))

theorem Position.OnGrid.index_le {p : Position} (h : p.OnGrid) (axis : Axis) :
    p.index axis ≤ endless := by
  cases axis with
  | row => exact h.1
  | column => exact h.2

theorem Position.onGrid_of_index {p : Position} {axis : Axis} (h : p.index axis ≤ endless)
    (h' : p.index axis.other ≤ endless) : p.OnGrid := by
  cases axis with
  | row => exact ⟨h, h'⟩
  | column => exact ⟨h', h⟩

namespace Edit

theorem index?_inj {e : Edit} {i i' j : Nat} (h : e.index? i = some j)
    (h' : e.index? i' = some j) : i = i' := by
  cases e with
  | insert axis start count => exact opened?_inj h h'
  | remove axis start count =>
    unfold index? closed? at h h'
    grind

/-- Where something goes is on the grid if it was. -/
theorem index?_le {e : Edit} {i j : Nat} (h : e.index? i = some j) (hi : i ≤ endless) :
    j ≤ endless := by
  cases e with
  | insert axis start count =>
    unfold index? opened? at h
    grind
  | remove axis start count =>
    unfold index? closed? at h
    grind

/-- A cell moves along the edited axis only. -/
theorem position?_eq_some {e : Edit} {p q : Position} :
    e.position? p = some q ↔ e.index? (p.index e.axis) = some (q.index e.axis) ∧
      p.index e.axis.other = q.index e.axis.other := by
  obtain ⟨row, column⟩ := p
  obtain ⟨row', column'⟩ := q
  unfold position?
  cases e.axis <;> simp [Position.index, Axis.other]

/-- Where a cell of the grid is moved is on the grid. -/
theorem position?_onGrid {e : Edit} {p q : Position} (h : e.position? p = some q) (hp : p.OnGrid) :
    q.OnGrid := by
  obtain ⟨hi, hother⟩ := position?_eq_some.mp h
  exact Position.onGrid_of_index (index?_le hi (hp.index_le _)) (hother ▸ hp.index_le _)

/-- A cell is kept exactly if its line is. -/
theorem position?_isSome (e : Edit) (p : Position) :
    (e.position? p).isSome = (e.index? (p.index e.axis)).isSome := by
  unfold position?
  cases e.axis <;> exact Option.isSome_map

/-- No two cells move to one place. -/
theorem position?_inj {e : Edit} {p p' q : Position} (h : e.position? p = some q)
    (h' : e.position? p' = some q) : p = p' := by
  obtain ⟨hi, ho⟩ := position?_eq_some.mp h
  obtain ⟨hi', ho'⟩ := position?_eq_some.mp h'
  exact Position.ext_index (index?_inj hi hi') (ho.trans ho'.symm)

end Edit

namespace Matrix

variable {α β : Type}

/-! ## Listings -/

theorem mem_toList {m : Matrix α} {p : Position} {a : α} :
    (p, a) ∈ m.toList ↔ m.get? p = some a := by
  simp only [toList, cellsOf, List.mem_flatMap, List.mem_map, Prod.exists, Prod.mk.injEq,
    Line.mem_toList, get?, slot?, Option.bind_eq_some_iff]
  constructor
  · rintro ⟨i, line, hline, j, b, hb, rfl, rfl⟩
    rw [Slot.ofPosition_position]
    exact ⟨line, hline, hb⟩
  · rintro ⟨line, hline, ha⟩
    exact ⟨_, line, hline, _, a, ha, Slot.position_ofPosition m.axis p, rfl⟩

/-- The listing line by line goes forward in the order of slots. -/
theorem toList_forward (m : Matrix α) :
    m.toList.Pairwise fun a b =>
      compare (Slot.ofPosition m.axis a.1) (Slot.ofPosition m.axis b.1) = .lt := by
  refine List.pairwise_flatMap.mpr ⟨fun c _ => ?_, m.lines.toList_forward.imp fun h a ha b hb => ?_⟩
  · refine List.pairwise_map.mpr (c.2.toList_forward.imp fun h => ?_)
    rw [Slot.ofPosition_position, Slot.ofPosition_position]
    exact Slot.compare_eq_lt.mpr (.inr ⟨rfl, h⟩)
  · obtain ⟨d, -, rfl⟩ := List.mem_map.mp ha
    obtain ⟨e, -, rfl⟩ := List.mem_map.mp hb
    rw [Slot.ofPosition_position, Slot.ofPosition_position]
    exact Slot.compare_eq_lt.mpr (.inl h)

theorem length_toList (m : Matrix α) : m.toList.length = m.size := by
  rw [m.size_eq]
  unfold toList Line.total
  rw [List.length_flatMap]
  simp only [cellsOf, List.length_map, Line.size_eq_length]
  rfl

theorem toList_map (m : Matrix α) (f : α → β) :
    (m.map f).toList = m.toList.map fun c => (c.1, f c.2) := by
  unfold toList map
  dsimp only
  rw [List.map_flatMap]
  unfold Line.toList Line.map
  rw [Std.ExtTreeMap.toList_map, List.flatMap_map]
  simp only [cellsOf, Std.ExtTreeMap.toList_map, List.map_map, Function.comp_def]

theorem linesIn_eq_filter (m : Matrix α) (r : Region) :
    m.linesIn r = m.toList.filter fun c => r.contains c.1 := by
  have hcell (i j : Nat) : r.contains ((Slot.mk i j).position m.axis) =
      ((r.span m.axis).contains i && (r.span m.axis.other).contains j) := by
    cases m.axis with
    | row => rfl
    | column => exact Bool.and_comm ..
  unfold linesIn toList cellsOf
  simp only [Line.range_eq_filter, List.filter_flatMap, List.filter_map, Function.comp_def, hcell]
  induction m.lines.toList with
  | nil => rfl
  | cons c cs ih =>
    rw [List.filter_cons, List.flatMap_cons, ← ih]
    cases (r.span m.axis).contains c.1 with
    | false => simp
    | true => simp

theorem mem_linesIn {m : Matrix α} {r : Region} {p : Position} {a : α} :
    (p, a) ∈ m.linesIn r ↔ m.get? p = some a ∧ r.contains p = true := by
  rw [linesIn_eq_filter, List.mem_filter, mem_toList]

theorem mem_insertByRow {c d : Position × α} {l : List (Position × α)} :
    d ∈ insertByRow c l ↔ d = c ∨ d ∈ l := by
  induction l with
  | nil => simp [insertByRow]
  | cons e l ih =>
    unfold insertByRow
    split
    · exact List.mem_cons
    · rw [List.mem_cons, ih, List.mem_cons]
      exact or_left_comm

theorem insertByRow_forward {c : Position × α} {l : List (Position × α)}
    (h : l.Pairwise fun a b => compare a.1 b.1 = .lt) (hc : ∀ d ∈ l, d.1 ≠ c.1) :
    (insertByRow c l).Pairwise fun a b => compare a.1 b.1 = .lt := by
  induction l with
  | nil => exact List.pairwise_singleton _ _
  | cons e l ih =>
    obtain ⟨he, hl⟩ := List.pairwise_cons.mp h
    have hne : e.1 ≠ c.1 := hc e List.mem_cons_self
    unfold insertByRow
    split
    · rename_i hle
      have hlt : compare c.1 e.1 = .lt := by
        cases hce : compare c.1 e.1 with
        | lt => rfl
        | eq => exact absurd (Std.compare_eq_iff_eq.mp hce).symm hne
        | gt => simp [hce] at hle
      refine List.pairwise_cons.mpr ⟨fun d hd => ?_, h⟩
      rcases List.mem_cons.mp hd with rfl | hd
      · exact hlt
      · exact Std.TransCmp.lt_trans hlt (he d hd)
    · rename_i hgt
      have hlt : compare e.1 c.1 = .lt := by
        rw [Std.OrientedOrd.eq_swap]
        cases hce : compare c.1 e.1 with
        | lt => simp [hce] at hgt
        | eq => exact absurd (Std.compare_eq_iff_eq.mp hce).symm hne
        | gt => rfl
      refine List.pairwise_cons.mpr
        ⟨fun d hd => ?_, ih hl fun d hd => hc d (List.mem_cons_of_mem e hd)⟩
      rcases mem_insertByRow.mp hd with rfl | hd
      · exact hlt
      · exact he d hd

theorem mem_foldr_insertByRow {c : Position × α} {l : List (Position × α)} :
    c ∈ l.foldr insertByRow [] ↔ c ∈ l := by
  induction l with
  | nil => simp
  | cons d l ih => rw [List.foldr_cons, mem_insertByRow, ih, List.mem_cons]

theorem mem_cellsIn {m : Matrix α} {r : Region} {p : Position} {a : α} :
    (p, a) ∈ m.cellsIn r ↔ m.get? p = some a ∧ r.contains p = true := by
  unfold cellsIn
  split
  · exact mem_linesIn
  · rw [mem_foldr_insertByRow]
    exact mem_linesIn

/-- What a block shows is in some cell. -/
theorem exists_get?_of_mem_block {m : Matrix α} {r : Region} {row : List (Option α)} {a : α}
    (hrow : row ∈ m.block r) (ha : some a ∈ row) : ∃ p, m.get? p = some a := by
  unfold block at hrow
  split at hrow
  · cases hrow
  · obtain ⟨i, -, rfl⟩ := List.mem_map.mp hrow
    obtain ⟨j, -, hj⟩ := List.mem_map.mp ha
    exact ⟨_, hj⟩

theorem foldr_insertByRow_forward {l : List (Position × α)} (h : l.Pairwise fun a b => a.1 ≠ b.1) :
    (l.foldr insertByRow []).Pairwise fun a b => compare a.1 b.1 = .lt := by
  induction l with
  | nil => exact List.Pairwise.nil
  | cons c l ih =>
    obtain ⟨hc, hl⟩ := List.pairwise_cons.mp h
    exact insertByRow_forward (ih hl) fun d hd =>
      (hc d (mem_foldr_insertByRow.mp hd)).symm

theorem cellsIn_forward (m : Matrix α) (r : Region) :
    (m.cellsIn r).Pairwise fun a b => compare a.1 b.1 = .lt := by
  unfold cellsIn
  rw [linesIn_eq_filter]
  split
  · rename_i hrow
    have h := m.toList_forward.filter fun c => r.contains c.1
    rw [hrow] at h
    exact h
  · refine foldr_insertByRow_forward ((m.toList_forward.filter _).imp fun {a b} h e => ?_)
    rw [e, Std.ReflOrd.compare_self] at h
    contradiction

/-! ## Lines in use -/

/-- The same cells are filled, and the same lines are vacant. -/
structure SameExtent (m : Matrix α) (n : Matrix β) : Prop where
  axis : m.axis = n.axis
  vacant : m.vacant = n.vacant
  filled : ∀ p, (m.get? p).isSome = (n.get? p).isSome

theorem SameExtent.trans {γ : Type} {m : Matrix α} {n : Matrix β} {o : Matrix γ}
    (h : m.SameExtent n) (h' : n.SameExtent o) : m.SameExtent o :=
  ⟨h.axis.trans h'.axis, h.vacant.trans h'.vacant, fun p => (h.filled p).trans (h'.filled p)⟩

/-- Without their values, the two grids are one. -/
theorem SameExtent.map_eq {m : Matrix α} {n : Matrix β} (h : m.SameExtent n) :
    (m.map fun _ => ()) = n.map fun _ => () := by
  refine ext_get? h.axis ?_ fun p => ?_
  · rw [vacant_map, vacant_map, h.vacant]
  · have hp := h.filled p
    rw [get?_map, get?_map]
    cases hm : m.get? p <;> cases hn : n.get? p <;> simp_all

theorem SameExtent.positions {m : Matrix α} {n : Matrix β} (h : m.SameExtent n) :
    m.toList.map (·.1) = n.toList.map (·.1) := by
  have hpositions {γ : Type} (o : Matrix γ) :
      o.toList.map (·.1) = (o.map fun _ => ()).toList.map (·.1) := by
    rw [toList_map, List.map_map]
    rfl
  rw [hpositions m, hpositions n, h.map_eq]

/-- The part in use has nothing to do with the values. -/
theorem used?_map (m : Matrix α) (f : α → β) : (m.map f).used? = m.used? := by
  have htoList {γ δ : Type} (l : Line γ) (g : γ → δ) :
      (l.map g).toList = l.toList.map fun c => (c.1, g c.2) := Std.ExtTreeMap.toList_map
  unfold used? map
  simp only [Line.first?, Line.last?, htoList, List.head?_map, List.getLast?_map,
    List.filterMap_map, Function.comp_def, Option.map_map, Option.bind_eq_bind, Option.bind_map]

theorem SameExtent.used? {m : Matrix α} {n : Matrix β} (h : m.SameExtent n) :
    m.used? = n.used? := by
  rw [← used?_map m fun _ => (), h.map_eq, used?_map]

theorem clipped?_of_isBounded {m : Matrix α} {r : Region} (h : r.isBounded = true) :
    m.clipped? r = some r := by
  unfold clipped?
  rw [if_pos h]

theorem SameExtent.clipped? {m : Matrix α} {n : Matrix β} (h : m.SameExtent n)
    (r : Region) : m.clipped? r = n.clipped? r := by
  unfold Matrix.clipped?
  rw [h.used?]

theorem mem_indices {s : Span} {i : Nat} : i ∈ indices s ↔ s.contains i = true := by
  have hs := s.first_le_last
  unfold indices Span.contains Span.size
  rw [List.mem_map]
  simp only [List.mem_range, Bool.and_eq_true, decide_eq_true_eq]
  constructor
  · intro h
    obtain ⟨k, hk, rfl⟩ := h
    omega
  · intro h
    obtain ⟨hf, hl⟩ := h
    exact ⟨i - s.first, by omega, by omega⟩

/-- Cutting a region leaves cells of the region, as long as they are on the grid. -/
theorem contains_of_clipped? {m : Matrix α} {r c : Region} (h : m.clipped? r = some c)
    {p : Position} (hp : c.contains p = true) (hrow : p.row ≤ endless)
    (hcolumn : p.column ≤ endless) : r.contains p = true := by
  unfold clipped? at h
  split at h
  · cases h
    exact hp
  · split at h
    · contradiction
    · rename_i used _
      obtain ⟨_, hc⟩ := Option.dite_none_right_eq_some.mp h
      cases hc
      unfold Region.contains Span.contains at hp ⊢
      simp only [Bool.and_eq_true, decide_eq_true_eq] at hp ⊢
      obtain ⟨⟨ht, hb⟩, hl, hr⟩ := hp
      unfold Region.top Region.bottom at *
      unfold Region.left Region.right at *
      refine ⟨⟨ht, ?_⟩, hl, ?_⟩
      · split at hb <;> omega
      · split at hr <;> omega

/-! ## Edits of the grid -/

theorem slot?_eq_some {m : Matrix α} {s : Slot} {a : α} :
    m.slot? s = some a ↔
      ∃ line, m.lines.get? s.line = some line ∧ line.get? s.index = some a :=
  Option.bind_eq_some_iff

theorem get?_lineEdited {l : Line α} {e : Edit} {j : Nat} {a : α} :
    (l.edited e).get? j = some a ↔ ∃ i, l.get? i = some a ∧ e.index? i = some j := by
  rw [Line.edited_eq]
  exact Line.get?_moved Edit.index?_inj

/-- Along the lines an edit moves whole lines. -/
theorem lines_edited_along {m : Matrix α} {e : Edit} (h : e.axis = m.axis) :
    (m.edited e).lines = m.lines.edited e :=
  if_pos h

/-- Across the lines an edit moves the cells of each line. -/
theorem lines_edited_across {m : Matrix α} {e : Edit} (h : e.axis ≠ m.axis) (i : Nat)
    (line : Line α) : (m.edited e).lines.get? i = some line ↔
      (m.lines.get? i).map (·.edited e) = some line ∧
        (e = .remove e.axis e.start e.count → line.isEmpty = false) := by
  show (m.editedLines e).get? i = some line ↔ _
  unfold editedLines
  rw [if_neg h]
  cases e with
  | insert axis start count => simp [Line.get?_map]
  | remove axis start count =>
    rw [Line.get?_filter, Line.get?_map, Option.filter_eq_some_iff]
    simp [Edit.axis, Edit.start, Edit.count]

/-- What is filled after an edit was filled before, at the place that moves there. -/
theorem get?_edited {m : Matrix α} {e : Edit} {q : Position} {a : α} :
    (m.edited e).get? q = some a ↔ ∃ p, m.get? p = some a ∧ e.position? p = some q := by
  have hslot (p : Position) : m.get? p = some a ↔ ∃ line,
      m.lines.get? (p.index m.axis) = some line ∧ line.get? (p.index m.axis.other) = some a :=
    slot?_eq_some
  have hedited : (m.edited e).get? q = some a ↔ ∃ line,
      (m.edited e).lines.get? (q.index m.axis) = some line ∧
        line.get? (q.index m.axis.other) = some a := slot?_eq_some
  simp only [hedited, hslot, Edit.position?_eq_some]
  by_cases halong : e.axis = m.axis
  · rw [lines_edited_along halong, halong]
    simp only [get?_lineEdited]
    constructor
    · rintro ⟨line, ⟨i, hline, hi⟩, ha⟩
      exact ⟨(Slot.mk i (q.index m.axis.other)).position m.axis, ⟨line, by simpa, by simpa⟩,
        by simpa, by simp⟩
    · rintro ⟨p, ⟨line, hline, ha⟩, hi, hj⟩
      exact ⟨line, ⟨_, hline, hi⟩, hj ▸ ha⟩
  · have hother : e.axis.other = m.axis := by
      rw [Axis.eq_other halong]
      cases m.axis <;> rfl
    simp only [lines_edited_across halong, hother]
    rw [Axis.eq_other halong]
    constructor
    · rintro ⟨line, ⟨hline, -⟩, ha⟩
      obtain ⟨before, hbefore, rfl⟩ := Option.map_eq_some_iff.mp hline
      obtain ⟨j, hj, hmoved⟩ := get?_lineEdited.mp ha
      exact ⟨(Slot.mk (q.index m.axis) j).position m.axis, ⟨before, by simpa, by simpa⟩,
        by simpa, by simp⟩
    · rintro ⟨p, ⟨before, hbefore, ha⟩, hmoved, hline⟩
      have hcell : (before.edited e).get? (q.index m.axis.other) = some a :=
        get?_lineEdited.mpr ⟨_, ha, hmoved⟩
      refine ⟨before.edited e, ⟨?_, fun _ => ?_⟩, hcell⟩
      · rw [← hline, hbefore]
        rfl
      · exact Bool.eq_false_iff.mpr fun h => Line.ne_empty_of_get? hcell (Line.isEmpty_iff.mp h)

end Matrix

end Spreadsheet
