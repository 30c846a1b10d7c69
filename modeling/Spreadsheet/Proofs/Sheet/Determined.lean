import Spreadsheet.Proofs.Sheet.Reading

/-! Formulas that see nothing but values. An endless range is read up to the last line in use, and
which lines are in use is nothing that a formula can be said to refer to; the same goes for the
time and for chance. A formula on which none of this has a bearing keeps its value as long as the
values that it comes to read stay the same. -/

namespace Spreadsheet

namespace Matrix

variable {α : Type}

/-- The grid without its vacant lines. -/
def withoutVacant (m : Matrix α) : Matrix α :=
  let lines := m.lines.filter fun _ line => !line.isEmpty
  ⟨m.axis, lines, lines.total Line.size, rfl⟩

theorem get?_withoutVacant (m : Matrix α) (p : Position) : m.withoutVacant.get? p = m.get? p := by
  show ((m.lines.filter fun _ line => !line.isEmpty).get? (p.index m.axis)).bind _ = _
  unfold get? slot?
  rw [Line.get?_filter]
  cases hline : m.lines.get? (p.index m.axis) with
  | none => exact congrArg (Option.bind · _) hline.symm
  | some line =>
    refine Eq.trans ?_ (congrArg (Option.bind · _) hline.symm)
    cases hempty : line.isEmpty with
    | false => simp [hempty, Option.filter]; rfl
    | true =>
      rw [Line.isEmpty_iff.mp hempty]
      exact (Line.get?_empty _).symm

theorem vacant_withoutVacant (m : Matrix α) : m.withoutVacant.vacant = ∅ := by
  refine Set.eq_empty_iff_forall_notMem.mpr fun i hi => ?_
  have hfilter := (Line.get?_filter m.lines (fun _ line => !line.isEmpty) i).symm.trans hi
  have hkept := (Option.filter_eq_some_iff.mp hfilter).2
  rw [Line.isEmpty_iff.mpr rfl] at hkept
  cases hkept

/-- `a` in a cell unless it is filled. -/
def setIfEmpty (m : Matrix α) (p : Position) (a : α) : Matrix α :=
  if (m.get? p).isSome then m else m.set p a

theorem get?_setIfEmpty (m : Matrix α) (p q : Position) (a : α) :
    (m.setIfEmpty p a).get? q = (m.get? q).or (if p = q then some a else none) := by
  unfold setIfEmpty
  by_cases hp : p = q
  · subst hp
    cases h : m.get? p <;> simp [h]
  · rw [if_neg hp, Option.or_none]
    split
    · rfl
    · rw [get?_set, if_neg hp]

/-- The cells of `m`, and `a` wherever only `n` has a cell. No line is vacant. -/
def widened (m n : Matrix α) (a : α) : Matrix α :=
  n.toList.foldl (fun w c => w.setIfEmpty c.1 a) m.withoutVacant

theorem get?_foldl_setIfEmpty (a : α) (l : List (Position × α)) (p : Position) :
    ∀ m : Matrix α, (l.foldl (fun w c => w.setIfEmpty c.1 a) m).get? p =
      (m.get? p).or (if ∃ c ∈ l, c.1 = p then some a else none) := by
  induction l with
  | nil => simp
  | cons c l ih =>
    intro m
    rw [List.foldl_cons, ih, get?_setIfEmpty, Option.or_assoc]
    simp only [List.mem_cons, exists_eq_or_imp]
    by_cases hp : c.1 = p
    · simp [hp]
    · rw [if_neg hp, Option.none_or, if_congr (or_iff_right hp) rfl rfl]

/-- The same axis, and no vacant lines where there were none. -/
theorem shape_setIfEmpty (m : Matrix α) (p : Position) (a : α) :
    (m.setIfEmpty p a).axis = m.axis ∧ (m.vacant = ∅ → (m.setIfEmpty p a).vacant = ∅) := by
  unfold setIfEmpty
  split
  · exact ⟨rfl, id⟩
  · exact ⟨axis_set .., fun h => by rw [vacant_set, h, Set.empty_sdiff]⟩

theorem shape_foldl_setIfEmpty (a : α) (l : List (Position × α)) : ∀ m : Matrix α,
    (l.foldl (fun w c => w.setIfEmpty c.1 a) m).axis = m.axis ∧
      (m.vacant = ∅ → (l.foldl (fun w c => w.setIfEmpty c.1 a) m).vacant = ∅) := by
  induction l with
  | nil => exact fun _ => ⟨rfl, id⟩
  | cons c l ih =>
    intro m
    obtain ⟨haxis, hvacant⟩ := m.shape_setIfEmpty c.1 a
    exact ⟨(ih _).1.trans haxis, fun h => (ih _).2 (hvacant h)⟩

theorem get?_widened (m n : Matrix α) (a : α) (p : Position) :
    (m.widened n a).get? p = (m.get? p).or ((n.get? p).map fun _ => a) := by
  unfold widened
  rw [get?_foldl_setIfEmpty, get?_withoutVacant]
  congr 1
  cases hn : n.get? p with
  | none =>
    rw [if_neg]
    · rfl
    · intro h
      obtain ⟨⟨q, b⟩, hc, rfl⟩ := h
      rw [mem_toList.mp hc] at hn
      contradiction
  | some b => rw [if_pos ⟨(p, b), mem_toList.mpr hn, rfl⟩]; rfl

theorem shape_widened (m n : Matrix α) (a : α) :
    (m.widened n a).axis = m.axis ∧ (m.widened n a).vacant = ∅ := by
  have hshape := shape_foldl_setIfEmpty a n.toList m.withoutVacant
  exact ⟨hshape.1, hshape.2 m.vacant_withoutVacant⟩

theorem sameExtent_widened {m n : Matrix α} (h : m.axis = n.axis) (a : α) :
    (m.widened n a).SameExtent (n.widened m a) where
  axis := (m.shape_widened n a).1.trans (h.trans (n.shape_widened m a).1.symm)
  vacant := (m.shape_widened n a).2.trans (n.shape_widened m a).2.symm
  filled p := by
    rw [get?_widened, get?_widened]
    cases m.get? p <;> cases n.get? p <;> rfl

end Matrix

namespace Sheet

/-- The value of a formula follows from the names and functions of the sheet and from the values of
cells: neither the time, nor chance, nor which lines are in use have a part in it. -/
def Determines (s : Sheet) (f : Formula) : Prop :=
  ∀ (m n : Matrix Cell) (a b : Ambient),
    (∀ p, (s.withCells m).value p = (s.withCells n).value p) →
      f.evaluate ((s.withCells m).source a) = f.evaluate ((s.withCells n).source b)

variable {s t : Sheet}

/-- Without endless ranges and volatile functions, nothing but values matters. -/
theorem determines_of_isBounded {f : Formula}
    (hb : ∀ r, Follows s.definition? f.references r → ∀ g ∈ r.regions, g.isBounded = true)
    (hf : Steady s.functions.find? f.expr.calls) : s.Determines f := by
  intro m n a b hv
  have h : (s.withCells m).Alike (s.withCells n) f.references :=
    { functions := rfl
      names := fun _ _ => rfl
      value := fun _ _ _ _ p _ => hv p }
  exact Formula.evaluate_congr (h.agreeOn a b fun r hr g hg =>
    blockOf_congr_of_isBounded (hb r hr g hg) fun p _ => hv p) (h.sameFunctions _) (Or.inr hf)

/-- A cell that is in use and shows nothing. -/
def blank : Cell := .ofValue .empty

theorem value_widened (m : Matrix Cell) (p : Position) :
    (s.withCells (s.cells.widened m blank)).value p = s.value p := by
  unfold value cell? withCells
  rw [Matrix.get?_widened]
  cases s.cells.get? p <;> cases m.get? p <;> rfl

theorem OnGrid.widened (hs : s.OnGrid) (ht : t.OnGrid) :
    (s.withCells (s.cells.widened t.cells blank)).OnGrid := by
  intro p hp
  unfold cell? withCells at hp
  rw [Matrix.get?_widened] at hp
  have h := hs p
  have h' := ht p
  unfold cell? at h h'
  cases hm : s.cells.get? p with
  | some c => exact h (by rw [hm]; rfl)
  | none =>
    cases hn : t.cells.get? p with
    | some c => exact h' (by rw [hn]; rfl)
    | none => rw [hm, hn] at hp; contradiction

theorem Alike.withCells {rs : List Reference} (h : s.Alike t rs) (m : Matrix Cell) :
    (s.withCells m).Alike (t.withCells m) rs where
  functions := h.functions
  names := h.names
  value _ _ _ _ _ _ := rfl

theorem Determines.of_alike {f : Formula} (hf : s.Determines f) (h : s.Alike t f.references) :
    t.Determines f := by
  have heval (m : Matrix Cell) (a : Ambient) :
      f.evaluate ((s.withCells m).source a) = f.evaluate ((t.withCells m).source a) :=
    Formula.evaluate_congr ((h.withCells m).agreeOn a a fun _ _ _ _ => rfl) (h.sameFunctions _)
      (Or.inl rfl)
  intro m n a b hv
  rw [← heval, ← heval]
  exact hf m n a b hv

/-- Both sheets are stretched to the lines that either uses, which changes no value. -/
theorem Determines.evaluate_eq {f : Formula} (hf : s.Determines f) (h : s.Alike t f.references)
    (haxis : s.cells.axis = t.cells.axis) (hs : s.OnGrid) (ht : t.OnGrid) (a b : Ambient) :
    f.evaluate (s.source a) = f.evaluate (t.source b) := by
  have hwide : (s.withCells (s.cells.widened t.cells blank)).Alike
      (t.withCells (t.cells.widened s.cells blank)) f.references :=
    { functions := h.functions
      names := h.names
      value := fun r hr g hg p hp => by
        rw [value_widened, value_widened]
        exact h.value r hr g hg p hp }
  calc f.evaluate (s.source a)
      = f.evaluate ((s.withCells (s.cells.widened t.cells blank)).source a) :=
        hf s.cells _ a a fun p => (value_widened t.cells p).symm
    _ = f.evaluate ((t.withCells (t.cells.widened s.cells blank)).source a) :=
        hwide.evaluate_eq (Matrix.sameExtent_widened haxis blank) (hs.widened ht) (ht.widened hs)
          (Or.inl rfl)
    _ = f.evaluate (t.source b) :=
        hf.of_alike h _ t.cells a b fun p => value_widened s.cells p

end Sheet

end Spreadsheet
