import Spreadsheet.Proofs.Sheet.Orderly

/-! Insertions that a removal of the same lines undoes on the whole sheet. Cells, references, names
and formats are each moved in their own way, and each of them comes back, whether or not a
calculation fails in between. -/

namespace Spreadsheet

/-- The contents after an edit of the grid, wherever they are. -/
def Contents.edited (e : Edit) : Contents → Contents
  | .formula f => .formula (f.edited e)
  | .value v => .value v

namespace Sheet

variable {s t : Sheet} {e : Edit}

/-! ## One edit -/

theorem contents?_reshaped {q : Position} {c : Contents} :
    (s.reshaped e).contents? q = some c ↔
      ∃ p c', s.contents? p = some c' ∧ e.position? p = some q ∧ c = c'.edited e := by
  have hmap (c : Cell) : (c.mapFormula fun f => f.edited e).contents = c.contents.edited e := by
    obtain ⟨contents, v⟩ := c
    cases contents <;> rfl
  unfold contents?
  simp only [Option.map_eq_some_iff, cell?_reshaped]
  constructor
  · intro h
    obtain ⟨c, ⟨p, c', hp, hq, rfl⟩, rfl⟩ := h
    exact ⟨p, _, ⟨c', hp, rfl⟩, hq, hmap c'⟩
  · intro h
    obtain ⟨p, c', ⟨d, hp, rfl⟩, hq, rfl⟩ := h
    exact ⟨_, ⟨p, d, hp, hq, rfl⟩, hmap d⟩

/-- What a sheet holds after an edit depends on what it held before. -/
theorem SameHoldings.reshaped (h : s.SameHoldings t) (e : Edit) :
    (s.reshaped e).SameHoldings (t.reshaped e) where
  contents q := by
    refine Option.ext fun c => ?_
    rw [contents?_reshaped, contents?_reshaped]
    simp only [h.contents]
  names := congrArg (Std.ExtTreeMap.map fun _ d => editedDefinition e d) h.names
  formats := congrArg (Tagging.edited · e) h.formats

/-- An edit leaves the sheet reshaped, whatever it answers. -/
theorem sameHoldings_edit (hs : s.Linked) (hc : e.count ≠ 0) :
    (s.reshaped e).SameHoldings (s.apply (.edit e)).sheet := by
  obtain ⟨t, ht, hst⟩ := (apply_fulfilled hs (.edit e)).sameHoldings
  have hplan : s.plan (.edit e) = .settle (s.reshaped e).markFormulas fun _ => .done := if_neg hc
  rw [hplan] at ht
  obtain rfl : t = (s.reshaped e).markFormulas := ht
  exact ⟨hst.contents, hst.names, hst.formats⟩

theorem apply_edit_of_count_eq_zero (hc : e.count = 0) : (s.apply (.edit e)).sheet = s := by
  show (s.edit e).sheet = s
  unfold edit
  rw [if_pos hc]

/-! ## There and back -/

variable {axis : Axis} {start count : Nat}

/-- The contents of a cell come back. -/
theorem InOrder.contents_edited_edited (hs : s.InOrder) (hc : count ≠ 0) (hstart : start ≤ endless)
    (h : ∀ v, ∀ r ∈ s.references v, r.Recovers axis start count) {p : Position} {c : Contents}
    (hp : s.contents? p = some c) :
    (c.edited (.insert axis start count)).edited (.remove axis start count) = c := by
  cases c with
  | value v => rfl
  | formula f =>
    have hf : s.formula? p = some f := by
      rw [formula?_eq, hp]
      rfl
    have hrecovers : ∀ r ∈ f.references, r.Recovers axis start count := by
      rw [← references_cell hf]
      exact h (.cell p)
    have hback : f.expr.EachReference fun r =>
        Edit.reference (.remove axis start count) (Edit.reference (.insert axis start count) r) =
          r :=
      Expr.EachReference.imp₂
        (fun r hr hrec => Reference.afterRemove_afterInsert hr hrec hc hstart) f.expr
        (hs.formulas p f hf) (Expr.eachReference_of_mem f.expr hrecovers)
    unfold Contents.edited Formula.edited Formula.mapReferences
    dsimp only
    rw [Expr.mapReferences_mapReferences]
    exact congrArg (fun e => Contents.formula ⟨e, f.diagnostics⟩)
      (Expr.mapReferences_eq_self f.expr hback)

/-- What a name stands for comes back. -/
theorem InOrder.definition_edited_edited (hs : s.InOrder) (hc : count ≠ 0)
    (hstart : start ≤ endless) (h : ∀ v, ∀ r ∈ s.references v, r.Recovers axis start count)
    {n : String} {d : Definition} (hd : s.names[n]? = some d) :
    editedDefinition (.remove axis start count) (editedDefinition (.insert axis start count) d) =
      d := by
  cases d with
  | value v => rfl
  | reference r =>
    have hmem : r ∈ s.references (.name n) := by simp [Sheet.references, hd, referencesOf]
    exact congrArg Definition.reference
      (Reference.afterRemove_afterInsert (hs.names n r hd) (h _ r hmem) hc hstart)

/-- What the sheet holds comes back when nothing of it is pushed off the grid. -/
theorem InOrder.sameHoldings_reshaped (hs : s.InOrder) (hc : count ≠ 0) (hstart : start ≤ endless)
    (hcells : ∀ p, (s.cell? p).isSome = true → start ≤ p.index axis →
      p.index axis + count < endless)
    (hreferences : ∀ v, ∀ r ∈ s.references v, r.Recovers axis start count)
    (hformats : ∀ f ∈ s.formats.entries, (f.1.span axis).Recovers start count) :
    s.SameHoldings ((s.reshaped (.insert axis start count)).reshaped (.remove axis start count)) where
  contents p := by
    refine Option.ext fun c => ?_
    rw [contents?_reshaped]
    simp only [contents?_reshaped]
    constructor
    · intro hback
      obtain ⟨q, _, ⟨p', d, hp', hpq, rfl⟩, hqp, rfl⟩ := hback
      obtain rfl : p' = p := Option.some.inj ((Edit.position?_remove hpq).symm.trans hqp)
      rw [hs.contents_edited_edited hc hstart hreferences hp', hp']
    · intro hp
      have hfilled : (s.cell? p).isSome = true := by
        obtain ⟨c', hc', -⟩ := Option.map_eq_some_iff.mp hp
        rw [hc']
        rfl
      obtain ⟨q, hpq⟩ := Edit.exists_position?_insert (hcells p hfilled)
      exact ⟨q, _, ⟨p, c, hp, hpq, rfl⟩, Edit.position?_remove hpq,
        (hs.contents_edited_edited hc hstart hreferences hp).symm⟩
  names := by
    show (s.names.map fun _ d => editedDefinition (.insert axis start count) d).map
      (fun _ d => editedDefinition (.remove axis start count) d) = s.names
    apply Std.ExtTreeMap.ext_getElem?
    intro n
    rw [Std.ExtTreeMap.getElem?_map, Std.ExtTreeMap.getElem?_map]
    cases hd : s.names[n]? with
    | none => rfl
    | some d => exact congrArg some (hs.definition_edited_edited hc hstart hreferences hd)
  formats := Tagging.edited_edited hs.formats hformats

/-- Removing lines that have just come in undoes their insertion on the whole sheet: all contents,
names and formats are as they were. That is so where no reference has a `$` on the edited axis and
nothing that is stored, referred to or formatted is pushed off the grid, whatever the two edits
answer. -/
theorem insertion_undone (hs : s.Orderly) (axis : Axis) (start count : Nat) (line : start ≤ endless)
    (cells : ∀ p, (s.cell? p).isSome = true → start ≤ p.index axis →
      p.index axis + count < endless)
    (references : ∀ v, ∀ r ∈ s.references v, r.Recovers axis start count)
    (formats : ∀ f ∈ s.formats.entries, (f.1.span axis).Recovers start count) (a b : Ambient) :
    let t := ((s.call ⟨a, .edit (.insert axis start count)⟩).sheet.call
      ⟨b, .edit (.remove axis start count)⟩).sheet
    (∀ p, t.contents? p = s.contents? p) ∧ t.names = s.names ∧ t.formats = s.formats := by
  intro t
  have hheld : s.SameHoldings t := by
    obtain ⟨u, hu⟩ : ∃ u, (s.call ⟨a, .edit (.insert axis start count)⟩).sheet = u := ⟨_, rfl⟩
    have hbefore := SameHoldings.withAmbient s a
    have hbetween := SameHoldings.withAmbient u b
    by_cases hc : count = 0
    · have hinsert : u = s.withAmbient a := hu.symm.trans (apply_edit_of_count_eq_zero hc)
      have hremove : t = u.withAmbient b := by
        rw [← hu]
        exact apply_edit_of_count_eq_zero hc
      rw [hremove]
      exact (hinsert ▸ hbefore).trans hbetween
    · have hreachable : u.Reachable :=
        hu ▸ hs.reachable.call ⟨a, .edit (.insert axis start count)⟩ nofun
      have hinsert : ((s.withAmbient a).reshaped (.insert axis start count)).SameHoldings u :=
        hu ▸ sameHoldings_edit (hs.reachable.sound.withAmbient a).linked hc
      have hremove : ((u.withAmbient b).reshaped (.remove axis start count)).SameHoldings t := by
        have hedit := sameHoldings_edit (e := .remove axis start count)
          (hreachable.sound.withAmbient b).linked hc
        rw [← hu] at hedit ⊢
        exact hedit
      have hback := hs.inOrder.sameHoldings_reshaped hc line cells references formats
      exact hback.trans (((((hbefore.reshaped _).trans hinsert).trans hbetween).reshaped _).trans
        hremove)
  exact ⟨hheld.contents, hheld.names, hheld.formats⟩

/-- A range grows, a name and a format move, and all three come back. -/
theorem insertion_undone_of_grown_range :
    let a : Ambient := ⟨.midnight 0, 0⟩
    let calls : List Call := [⟨a, .setInput ⟨0, 0⟩ "=A2+SUM(A2:A9)"⟩,
      ⟨a, .setValue ⟨4, 2⟩ (.logical true)⟩,
      ⟨a, .define "total" (.reference (.ofCorners ⟨3, 0⟩ ⟨5, 1⟩))⟩,
      ⟨a, .setFormat (.wholeColumns (.single 1)) (.fixed 2)⟩,
      ⟨a, .setFormat (.corners 1 0 6 0) (.fixed 1)⟩]
    let s := (Sheet.empty "Sheet1" default .empty a).after calls
    let u := (s.call ⟨a, .edit (.insert .row 2 3)⟩).sheet
    let t := ((s.call ⟨a, .edit (.insert .row 2 3)⟩).sheet.call
      ⟨a, .edit (.remove .row 2 3)⟩).sheet
    (s.Orderly ∧
      (∀ p, (s.cell? p).isSome = true → 2 ≤ p.index .row → p.index .row + 3 < endless) ∧
      (∀ v, ∀ r ∈ s.references v, r.Recovers .row 2 3) ∧
      ∀ f ∈ s.formats.entries, (f.1.span .row).Recovers 2 3) ∧
    (u.formula? ⟨0, 0⟩).map (·.text) = some "=A2+SUM(A2:A12)" ∧ u.formatAt ⟨9, 0⟩ = .fixed 1 ∧
    (∀ p, t.contents? p = s.contents? p) ∧ t.names = s.names ∧ t.formats = s.formats := by
  intro a calls s u t
  have orderly : s.Orderly := by
    refine (Orderly.empty "Sheet1" default .empty a).after fun c hc => ?_
    simp only [calls, List.mem_cons, List.not_mem_nil, or_false] at hc
    obtain rfl | rfl | rfl | rfl | rfl := hc
    · exact ⟨by decide, trivial⟩
    · exact ⟨by decide, trivial⟩
    · refine ⟨by decide, ?_⟩
      show Reference.IsSorted _
      decide
    · exact ⟨by decide, trivial⟩
    · exact ⟨by decide, trivial⟩
  have listed : ∀ c ∈ s.cells.toList, 2 ≤ c.1.index .row → c.1.index .row + 3 < endless := by
    decide +kernel
  have cells : ∀ p, (s.cell? p).isSome = true → 2 ≤ p.index .row → p.index .row + 3 < endless := by
    intro p hp
    obtain ⟨c, hc⟩ := Option.isSome_iff_exists.mp hp
    exact listed (p, c) (Matrix.mem_toList.mpr hc)
  have references : ∀ v, ∀ r ∈ s.references v, r.Recovers .row 2 3 :=
    forall_references (by decide +kernel) (by decide +kernel)
  have formats : ∀ f ∈ s.formats.entries, (f.1.span .row).Recovers 2 3 := by decide +kernel
  have text : (u.formula? ⟨0, 0⟩).map (·.text) = some "=A2+SUM(A2:A12)" := by decide +kernel
  have format : u.formatAt ⟨9, 0⟩ = .fixed 1 := by decide +kernel
  have back := insertion_undone orderly .row 2 3 (by decide) cells references formats a a
  exact ⟨⟨orderly, cells, references, formats⟩, text, format, back⟩

/-- Lines that come in up to the end of the grid take along all that is behind them, and a format on
a whole column with it. -/
theorem format_lost_with_last_lines :
    let a : Ambient := ⟨.midnight 0, 0⟩
    let s := ((Sheet.empty "Sheet1" default .empty a).call
      ⟨a, .setFormat (.wholeColumns (.single 0)) (.fixed 2)⟩).sheet
    let t := ((s.call ⟨a, .edit (.insert .row 1 endless)⟩).sheet.call
      ⟨a, .edit (.remove .row 1 endless)⟩).sheet
    s.Orderly ∧ (∀ p, s.cell? p = none) ∧ (∀ v, s.references v = []) ∧
      (∀ f ∈ s.formats.entries, f.1.isBounded = false) ∧
      s.formatAt ⟨1, 0⟩ = .fixed 2 ∧ t.formatAt ⟨1, 0⟩ = .general := by
  intro a s t
  have orderly : s.Orderly := .call (.empty "Sheet1" default .empty a) _ (by decide) trivial
  have cells : ∀ p, s.cell? p = none := fun p => Matrix.get?_empty ..
  have references : ∀ v, s.references v = [] := by
    intro v
    cases v with
    | region g => rfl
    | cell p => simp [Sheet.references, formula?_eq_none (cells p)]
    | name n =>
      have hnone : s.names[n]? = none := Std.ExtTreeMap.getElem?_empty
      simp [Sheet.references, hnone]
  exact ⟨orderly, cells, references, by decide +kernel, by decide +kernel, by decide +kernel⟩

end Sheet

end Spreadsheet
