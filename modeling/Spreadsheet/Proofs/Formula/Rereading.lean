import Spreadsheet.Proofs.Formula.Naming
import Spreadsheet.Proofs.Formula.Printing
import Spreadsheet.Proofs.Grid.Undoing

/-! References read from their own text. The letters of a column are the one word of capitals that
stands for its number: as there is no letter for zero, the last letter is fixed by the remainder and
the letters in front of it by the quotient. So a cell reads back as it was, and a range too, as its
ends are in order in the text. Nothing else does: what is read is a cell or a range. -/

namespace Spreadsheet

/-! ## Letters -/

theorem isCapital_toUpper {c : Char} (h : c.isAlpha = true) : IsCapital c.toUpper := by
  refine Text.toUpper_cases (P := fun c d => c.isAlpha = true → IsCapital d) (fun c hc halpha => ?_)
    (fun i hi _ => ⟨i, hi, rfl⟩) c h
  obtain hupper | hlower := Bool.or_eq_true_iff.mp halpha
  · have hrange := of_decide_eq_true hupper
    have hlow : 65 ≤ c.toNat := UInt32.le_iff_toNat_le.mp hrange.1
    have hhigh : c.toNat ≤ 90 := UInt32.le_iff_toNat_le.mp hrange.2
    refine ⟨c.toNat - 65, by omega, ?_⟩
    rw [Nat.add_sub_cancel' hlow, Char.ofNat_toNat]
  · -- The character is its own upper case here, and no lower-case letter is.
    have hchanged : ∀ i < 26, (Char.ofNat (97 + i)).toUpper ≠ Char.ofNat (97 + i) := by decide
    obtain ⟨hlow, hhigh⟩ := Bool.and_eq_true_iff.mp hlower
    have hlow : 97 ≤ c.toNat := UInt32.le_iff_toNat_le.mp (of_decide_eq_true hlow)
    have hhigh : c.toNat ≤ 122 := UInt32.le_iff_toNat_le.mp (of_decide_eq_true hhigh)
    have hself := hchanged (c.toNat - 97) (by omega)
    rw [Nat.add_sub_cancel' hlow, Char.ofNat_toNat] at hself
    exact absurd hc hself

theorem lettersAfter_append (n : Nat) (letters : List Char) (c : Char) :
    lettersAfter n (letters ++ [c]) = 26 * lettersAfter n letters + (c.toUpper.toNat - 64) :=
  List.foldl_concat ..

/-- Capitals are the letters of the number that they stand for. -/
theorem lettersOnto_lettersAfter {letters : List Char} (h : ∀ c ∈ letters, IsCapital c) {steps : Nat}
    (hsteps : lettersAfter 0 letters ≤ steps) (acc : List Char) :
    lettersOnto steps (lettersAfter 0 letters) acc = letters ++ acc := by
  induction letters using List.reverseRecOn generalizing steps acc with
  | nil => cases steps <;> rfl
  | append_singleton front c ih =>
    obtain ⟨i, hi, rfl⟩ := h c (List.mem_append_right _ List.mem_cons_self)
    rw [lettersAfter_append, capital_value hi] at hsteps ⊢
    obtain _ | steps := steps
    · omega
    · have hquotient : (26 * lettersAfter 0 front + (i + 1) - 1) / 26 = lettersAfter 0 front := by
        omega
      have hremainder : (26 * lettersAfter 0 front + (i + 1) - 1) % 26 = i := by omega
      rw [lettersOnto, if_neg (by omega), hquotient, hremainder,
        ih (fun d hd => h d (List.mem_append_left _ hd)) (by omega), List.append_assoc]
      rfl

theorem one_le_lettersAfter {letters : List Char} (hne : letters ≠ [])
    (h : ∀ c ∈ letters, IsCapital c) : 1 ≤ lettersAfter 0 letters := by
  induction letters using List.reverseRecOn with
  | nil => exact absurd rfl hne
  | append_singleton front c _ =>
    obtain ⟨i, hi, rfl⟩ := h c (List.mem_append_right _ List.mem_cons_self)
    rw [lettersAfter_append, capital_value hi]
    omega

/-- Letters and columns determine each other, up to the case of the letters. -/
theorem readColumn?_eq_some_iff {letters : List Char} {column : Nat} :
    readColumn? letters = some column ↔
      column ≤ lastColumn ∧ letters.map Char.toUpper = columnLetters column := by
  constructor
  · intro h
    refine ⟨Place.le_lastColumn_of_readColumn? h, ?_⟩
    simp only [readColumn?, Option.ite_none_left_eq_some, Bool.or_eq_true, not_or,
      Bool.not_eq_true', Bool.not_eq_false, Option.some.injEq] at h
    obtain ⟨⟨⟨hne, halpha⟩, -⟩, hvalue⟩ := h
    have hcapital : ∀ c ∈ letters.map Char.toUpper, IsCapital c := by
      intro c hc
      obtain ⟨d, hd, rfl⟩ := List.mem_map.mp hc
      exact isCapital_toUpper (List.all_eq_true.mp halpha d hd)
    have hpositive : 1 ≤ lettersAfter 0 (letters.map Char.toUpper) :=
      one_le_lettersAfter (by simpa using hne) hcapital
    have hnumber : lettersAfter 0 (letters.map Char.toUpper) = column + 1 := by
      have hsame : lettersValue letters = lettersAfter 0 (letters.map Char.toUpper) :=
        (lettersValue_map_toUpper letters).symm
      omega
    have hletters := lettersOnto_lettersAfter hcapital (Nat.le_of_eq hnumber) []
    rw [hnumber, List.append_nil] at hletters
    exact hletters.symm
  · rintro ⟨hcolumn, hletters⟩
    rw [← Place.readColumn?_map_toUpper, hletters]
    exact (Option.ite_none_left_eq_some.mp (readLetters?_columnLetters hcolumn)).2

/-! ## References -/

namespace Target

variable {p q : Place}

theorem spelled_place_iff : (place p).Spelled ↔ p.InGrid ∧ p.kind = .cell := by
  constructor
  · rintro (⟨grid, kind⟩ | _)
    exact ⟨grid, kind⟩
  · rintro ⟨grid, kind⟩
    exact .cell grid kind

theorem spelled_range_iff : (range p q).Spelled ↔
    p.InGrid ∧ q.InGrid ∧ q.kind = p.kind ∧ ∀ axis, SortedAlong axis (p, q) := by
  constructor
  · rintro (_ | ⟨first, last, kinds, sorted⟩)
    exact ⟨first, last, kinds, isSorted_range.mp sorted⟩
  · rintro ⟨first, last, kinds, sorted⟩
    exact .range first last kinds (isSorted_range.mpr sorted)

end Target

namespace Reference

theorem read?_text_of_spelled {t : Target} (h : t.Spelled) :
    read? (single t).text = some (single t) := by
  cases h with
  | @cell p grid kind =>
    have hread : Place.read? .cell p.name = some p := kind ▸ Place.read?_name grid
    have htext : (single (.place p)).text.toList = p.name := text_ofPlace grid.valid
    have htrim := Text.trim_of_notBlank (htext ▸ Place.notBlank_of_read? hread)
    refine read?_of_cell ?_
    rw [htrim, htext, hread]
  | @range p q first last kinds sorted =>
    have hp : Place.read? p.kind p.name = some p := Place.read?_name first
    have hq : Place.read? p.kind q.name = some q := kinds ▸ Place.read?_name last
    have htext := text_range first.valid last.valid
    have hblank : ∀ c ∈ (single (.range p q)).text.toList, Text.isBlank c = false := by
      rw [htext]
      simp only [List.forall_mem_append, List.forall_mem_cons]
      exact ⟨Place.notBlank_of_read? hp, by decide, Place.notBlank_of_read? hq⟩
    rw [read?_of_range (by rw [Text.trim_of_notBlank hblank, htext]) hp hq, sorted]

theorem exists_spelled_of_read? {text : String} {r : Reference} (h : read? text = some r) :
    ∃ t, r = single t ∧ t.Spelled := by
  obtain ⟨p, hp, rfl⟩ | ⟨kind, left, right, p, q, -, hp, hq, rfl⟩ := read?_eq_some h
  · exact ⟨_, rfl, .cell (Place.inGrid_of_read? hp) (Place.kind_of_read? hp)⟩
  · exact ⟨_, rfl, Target.spelled_between (Place.inGrid_of_read? hp) (Place.inGrid_of_read? hq)
      ((Place.kind_of_read? hq).trans (Place.kind_of_read? hp).symm)⟩

/-- A reference is read from its own text exactly if it is a cell or a range of cells, columns or
rows, on the grid and with its ends in order, whatever their `$`. The letters of a column are read
as that column, in either case, and no others are. -/
theorem text_reads_back (r : Reference) :
    (read? r.text = some r ↔
      (∃ p, r = single (.place p) ∧ p.InGrid ∧ p.kind = .cell) ∨
      ∃ p q, r = single (.range p q) ∧ p.InGrid ∧ q.InGrid ∧ q.kind = p.kind ∧
        ∀ axis, Target.SortedAlong axis (p, q)) ∧
      ∀ letters column, readColumn? letters = some column ↔
        column ≤ lastColumn ∧ letters.map Char.toUpper = columnLetters column := by
  refine ⟨⟨fun h => ?_, ?_⟩, fun _ _ => readColumn?_eq_some_iff⟩
  · obtain ⟨t, rfl, ht⟩ := exists_spelled_of_read? h
    cases t with
    | place p => exact .inl ⟨p, rfl, Target.spelled_place_iff.mp ht⟩
    | range p q => exact .inr ⟨p, q, rfl, Target.spelled_range_iff.mp ht⟩
    | name n => cases ht
  · rintro (⟨p, rfl, hp⟩ | ⟨p, q, rfl, hpq⟩)
    · exact read?_text_of_spelled (Target.spelled_place_iff.mpr hp)
    · exact read?_text_of_spelled (Target.spelled_range_iff.mpr hpq)

/-- In the last cell of the grid, ends that differ in their `$` only. -/
theorem text_reads_back_in_last_cell :
    let r := single (.range (.cell ⟨4294967294, false⟩ ⟨lastColumn, true⟩ true)
      (.cell ⟨4294967294, true⟩ ⟨lastColumn, false⟩ true))
    read? r.text = some r ∧ readColumn? ['x', 'F', 'd'] = some lastColumn := by
  intro r
  have hgrid (columnFixed rowFixed : Bool) :
      (Place.cell ⟨4294967294, rowFixed⟩ ⟨lastColumn, columnFixed⟩ true).InGrid := by
    refine ⟨rfl, fun axis m hm => ?_⟩
    cases axis with
    | row =>
      cases hm
      exact (by decide : 4294967294 ≤ Place.limit .row)
    | column =>
      cases hm
      exact (by decide : lastColumn ≤ Place.limit .column)
  obtain ⟨hread, hletters⟩ := text_reads_back r
  refine ⟨hread.mpr (.inr ⟨_, _, rfl, hgrid .., hgrid .., rfl, fun axis m n hm hn => ?_⟩), ?_⟩
  · cases axis with
    | row =>
      cases hm
      cases hn
      rfl
    | column =>
      cases hm
      cases hn
      rfl
  · exact (hletters _ _).mpr ⟨Nat.le_refl _, by decide +kernel⟩

end Reference

end Spreadsheet
