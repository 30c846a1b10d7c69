import Spreadsheet.Proofs.Grid.Moving

/-! Ranges whose ends are in order. To bring the ends in order exchanges their coordinates along
some axes, each with its `$`, and changes nothing else; so what all the coordinates have in common
they have in common still. -/

namespace Spreadsheet

namespace Place

/-- The places `p` and `q` are `a` and `b` with their coordinates exchanged along some axes. -/
structure Exchanged (a b p q : Place) : Prop where
  kinds : p.kind = a.kind ∧ q.kind = b.kind
  valid : p.isValid = a.isValid ∧ q.isValid = b.isValid
  marks : ∀ axis, p.mark? axis = a.mark? axis ∧ q.mark? axis = b.mark? axis ∨
    p.mark? axis = b.mark? axis ∧ q.mark? axis = a.mark? axis

namespace Exchanged

variable {a b p q p' q' : Place}

theorem refl (a b : Place) : Exchanged a b a b :=
  ⟨⟨rfl, rfl⟩, ⟨rfl, rfl⟩, fun _ => .inl ⟨rfl, rfl⟩⟩

theorem trans (h : Exchanged a b p q) (h' : Exchanged p q p' q') : Exchanged a b p' q' where
  kinds := ⟨h'.kinds.1.trans h.kinds.1, h'.kinds.2.trans h.kinds.2⟩
  valid := ⟨h'.valid.1.trans h.valid.1, h'.valid.2.trans h.valid.2⟩
  marks axis := by
    obtain ⟨hp, hq⟩ | ⟨hp, hq⟩ := h'.marks axis
    · rw [hp, hq]
      exact h.marks axis
    · rw [hp, hq]
      exact (h.marks axis).symm.imp And.symm And.symm

/-- The coordinates after the exchange are those before it. -/
theorem forall_mark {axis : Axis} {P : Mark → Prop} (h : Exchanged a b p q)
    (ha : ∀ m, a.mark? axis = some m → P m) (hb : ∀ m, b.mark? axis = some m → P m) :
    (∀ m, p.mark? axis = some m → P m) ∧ ∀ m, q.mark? axis = some m → P m := by
  obtain ⟨hp, hq⟩ | ⟨hp, hq⟩ := h.marks axis
  · rw [hp, hq]
    exact ⟨ha, hb⟩
  · rw [hp, hq]
    exact ⟨hb, ha⟩

end Exchanged

end Place

namespace Target

/-- The first end does not come after the last one along an axis. -/
def SortedAlong (axis : Axis) (ends : Place × Place) : Prop :=
  ∀ m n, ends.1.mark? axis = some m → ends.2.mark? axis = some n → m.index ≤ n.index

variable {axis : Axis} {ends : Place × Place} {a b : Place}

theorem SortedAlong.sortedAlong_eq (h : SortedAlong axis ends) : sortedAlong axis ends = ends := by
  unfold sortedAlong
  split
  · next m n hm hn => exact if_neg (Nat.not_lt.mpr (h m n hm hn))
  · rfl

theorem sortedAlong_sorted : SortedAlong axis (sortedAlong axis ends) := by
  unfold sortedAlong
  split
  · next m n hm hn =>
    split
    · intro k l hk hl
      rw [Place.mark?_withMark hm] at hk
      rw [Place.mark?_withMark hn] at hl
      cases hk
      cases hl
      omega
    · intro k l hk hl
      rw [hm] at hk
      rw [hn] at hl
      cases hk
      cases hl
      omega
  · next hnone => exact fun m n hm hn => absurd hn (hnone m n hm)

theorem SortedAlong.other (h : SortedAlong axis.other ends) :
    SortedAlong axis.other (sortedAlong axis ends) := by
  unfold sortedAlong
  split
  · split
    · intro k l hk hl
      rw [Place.mark?_withMark_other] at hk hl
      exact h k l hk hl
    · exact h
  · exact h

theorem exchanged_sortedAlong (axis : Axis) (ends : Place × Place) :
    Place.Exchanged ends.1 ends.2 (sortedAlong axis ends).1 (sortedAlong axis ends).2 := by
  unfold sortedAlong
  split
  · next m n hm hn =>
    split
    · refine ⟨⟨Place.kind_withMark .., Place.kind_withMark ..⟩,
        ⟨Place.isValid_withMark .., Place.isValid_withMark ..⟩, fun along => ?_⟩
      by_cases haxis : along = axis
      · subst haxis
        rw [Place.mark?_withMark hm, Place.mark?_withMark hn, hm, hn]
        exact .inr ⟨rfl, rfl⟩
      · obtain rfl := Axis.eq_other_of_ne haxis
        exact .inl ⟨Place.mark?_withMark_other .., Place.mark?_withMark_other ..⟩
    · exact .refl ..
  · exact .refl ..

/-- The ends of a range are those that it was made of, exchanged until they are in order. -/
theorem exists_between (a b : Place) : ∃ p q, between a b = range p q ∧
    Place.Exchanged a b p q ∧ ∀ axis, SortedAlong axis (p, q) := by
  refine ⟨_, _, rfl, (exchanged_sortedAlong .row (a, b)).trans (exchanged_sortedAlong .column _),
    fun axis => ?_⟩
  cases axis with
  | row => exact SortedAlong.other sortedAlong_sorted
  | column => exact sortedAlong_sorted

theorem between_eq_range_iff : between a b = range a b ↔ ∀ axis, SortedAlong axis (a, b) := by
  constructor
  · intro h
    obtain ⟨p, q, hpq, -, hsorted⟩ := exists_between a b
    rw [h] at hpq
    cases hpq
    exact hsorted
  · intro h
    simp only [between, (h .row).sortedAlong_eq, (h .column).sortedAlong_eq]

theorem isValid_between (a b : Place) : (between a b).isValid = (a.isValid && b.isValid) := by
  obtain ⟨p, q, hpq, h, -⟩ := exists_between a b
  rw [hpq, isValid, h.valid.1, h.valid.2]

end Target

end Spreadsheet
