import Mathlib.Data.List.TakeWhile
import Spreadsheet.Proofs.Grid.Exchanging

/-! Names of places read back. The letters of a column are its number in a numeral system without
a zero, so a prefix of them stands for what is left after dividing by 26. -/

namespace Spreadsheet

/-- The character is one of `A` to `Z`. -/
def IsCapital (c : Char) : Prop := ∃ i < 26, c = Char.ofNat (65 + i)

theorem capital_value {i : Nat} (h : i < 26) :
    (Char.ofNat (65 + i)).toUpper.toNat - 64 = i + 1 := by
  decide +revert

theorem IsCapital.isAlpha {c : Char} (h : IsCapital c) : c.isAlpha = true := by
  obtain ⟨i, hi, rfl⟩ := h
  decide +revert

theorem IsCapital.ne_dollar {c : Char} (h : IsCapital c) : c ≠ '$' := by
  rintro rfl
  exact absurd h.isAlpha (by decide)

/-- What `letters` stand for after a prefix that stands for `n`. -/
def lettersAfter (n : Nat) (letters : List Char) : Nat :=
  letters.foldl (fun n c => 26 * n + (c.toUpper.toNat - 64)) n

theorem lettersAfter_lettersOnto {steps n : Nat} (h : n ≤ steps) (acc : List Char) :
    lettersAfter 0 (lettersOnto steps n acc) = lettersAfter n acc := by
  induction steps generalizing n acc with
  | zero =>
    obtain rfl : n = 0 := by omega
    rfl
  | succ steps ih =>
    rw [lettersOnto]
    split
    · next h0 => rw [h0]
    · next h0 =>
      rw [ih (by omega)]
      simp only [lettersAfter, List.foldl_cons,
      capital_value (Nat.mod_lt (n - 1) (by decide : 26 > 0))]
      congr 1
      omega

theorem isCapital_of_mem_lettersOnto {steps n : Nat} {acc : List Char}
    (hacc : ∀ c ∈ acc, IsCapital c) : ∀ c ∈ lettersOnto steps n acc, IsCapital c := by
  induction steps generalizing n acc with
  | zero => exact hacc
  | succ steps ih =>
    rw [lettersOnto]
    split
    · exact hacc
    · refine ih fun c hc => ?_
      obtain rfl | hc := List.mem_cons.mp hc
      · exact ⟨_, Nat.mod_lt _ (by decide), rfl⟩
      · exact hacc c hc

/-- The largest number that `k` letters write. -/
def lettersCap : Nat → Nat
  | 0 => 0
  | k + 1 => 26 * lettersCap k + 26

theorem length_lettersOnto_le {steps n k : Nat} (h : n ≤ lettersCap k) (acc : List Char) :
    (lettersOnto steps n acc).length ≤ k + acc.length := by
  induction steps generalizing n k acc with
  | zero => simp [lettersOnto]
  | succ steps ih =>
    rw [lettersOnto]
    split
    · omega
    · next h0 =>
      obtain _ | k := k
      · exact absurd (Nat.le_zero.mp h) h0
      · have hn : (n - 1) / 26 ≤ lettersCap k := by
          rw [lettersCap] at h
          omega
        have := ih hn (Char.ofNat (65 + (n - 1) % 26) :: acc)
        rw [List.length_cons] at this
        omega

theorem lettersOnto_ne_nil {steps n : Nat} {acc : List Char} (h : n ≠ 0 ∧ steps ≠ 0 ∨ acc ≠ []) :
    lettersOnto steps n acc ≠ [] := by
  induction steps generalizing n acc with
  | zero => exact h.resolve_left fun h => h.2 rfl
  | succ steps ih =>
    rw [lettersOnto]
    split
    · exact h.resolve_left fun h => h.1 ‹_›
    · exact ih (.inr (List.cons_ne_nil _ _))

theorem isCapital_of_mem_columnLetters {column : Nat} {c : Char} (h : c ∈ columnLetters column) :
    IsCapital c :=
  isCapital_of_mem_lettersOnto (fun _ h => absurd h List.not_mem_nil) c h

theorem columnLetters_ne_nil (column : Nat) : columnLetters column ≠ [] :=
  lettersOnto_ne_nil (.inl ⟨Nat.succ_ne_zero _, Nat.succ_ne_zero _⟩)

theorem readLetters?_columnLetters {column : Nat} (h : column ≤ lastColumn) :
    Place.readLetters? (columnLetters column) = some column := by
  have hlength : (columnLetters column).length ≤ 3 :=
    length_lettersOnto_le (k := 3) (by simp only [lettersCap, lastColumn] at *; omega) []
  have hvalue : lettersValue (columnLetters column) = column + 1 :=
    lettersAfter_lettersOnto (Nat.le_refl _) []
  have halpha : (columnLetters column).all Char.isAlpha = true :=
    List.all_eq_true.mpr fun c hc => (isCapital_of_mem_columnLetters hc).isAlpha
  rw [Place.readLetters?, if_neg (by omega), readColumn?]
  simp [hvalue, halpha, columnLetters_ne_nil]
  omega

theorem rowDigits_ne_nil (row : Nat) : rowDigits row ≠ [] := Nat.toDigits_ne_nil

theorem isDigit_of_mem_rowDigits {row : Nat} {c : Char} (h : c ∈ rowDigits row) :
    c.isDigit = true :=
  Nat.isDigit_of_mem_toDigits (by decide) (by decide) h

theorem readRow?_rowDigits {row : Nat} (h : row < endless) :
    readRow? (rowDigits row) = some row := by
  have hvalue : Number.digitsValue (rowDigits row) = row + 1 :=
    Nat.ofDigitChars_toDigits (by decide) (by decide)
  have hdigits : (rowDigits row).all Char.isDigit = true :=
    List.all_eq_true.mpr fun c hc => isDigit_of_mem_rowDigits hc
  simp [readRow?, hvalue, hdigits, rowDigits_ne_nil]
  omega

namespace Place

/-- The place is one that formulas can name. -/
structure InGrid (p : Place) : Prop where
  valid : p.isValid = true
  le_limit : ∀ axis m, p.mark? axis = some m → m.index ≤ limit axis

theorem InGrid.withMark {p : Place} (h : p.InGrid) {axis : Axis} {m : Mark}
    (hm : m.index ≤ limit axis) : (p.withMark axis m).InGrid := by
  refine ⟨by rw [isValid_withMark, h.valid], fun ax n hn => ?_⟩
  obtain ⟨rfl, rfl⟩ | hn := mark?_withMark_eq_some hn
  · exact hm
  · exact h.le_limit ax n hn

theorem Exchanged.inGrid {a b p q : Place} (h : Exchanged a b p q) (ha : a.InGrid) (hb : b.InGrid) :
    p.InGrid ∧ q.InGrid := by
  have hmarks axis := h.forall_mark (ha.le_limit axis) (hb.le_limit axis)
  exact ⟨⟨h.valid.1.trans ha.valid, fun axis => (hmarks axis).1⟩,
    ⟨h.valid.2.trans hb.valid, fun axis => (hmarks axis).2⟩⟩

theorem le_lastColumn_of_readColumn? {cs : List Char} {c : Nat}
    (h : Spreadsheet.readColumn? cs = some c) : c ≤ lastColumn := by
  simp only [Spreadsheet.readColumn?, Option.ite_none_left_eq_some, Option.some.injEq] at h
  obtain ⟨hb, rfl⟩ := h
  simp only [Bool.or_eq_true, decide_eq_true_eq, not_or] at hb
  omega

theorem le_lastColumn_of_readLetters? {cs : List Char} {c : Nat} (h : readLetters? cs = some c) :
    c ≤ lastColumn :=
  le_lastColumn_of_readColumn? (Option.ite_none_left_eq_some.mp h).2

theorem lt_endless_of_readRow? {cs : List Char} {r : Nat} (h : Spreadsheet.readRow? cs = some r) :
    r < endless := by
  simp only [Spreadsheet.readRow?, Option.ite_none_left_eq_some, Option.some.injEq] at h
  obtain ⟨hb, rfl⟩ := h
  simp only [Bool.or_eq_true, decide_eq_true_eq, not_or] at hb
  omega

theorem readCell?_eq_some {cs : List Char} {p : Place} (h : readCell? cs = some p) :
    ∃ r c, p = cell r c true ∧ 
      readLetters? ((readMarker cs).2.takeWhile Char.isAlpha) = some c.index ∧
      Spreadsheet.readRow? (readMarker ((readMarker cs).2.dropWhile Char.isAlpha)).2 =
        some r.index := by
  simp only [readCell?, Option.bind_eq_bind, Option.bind_eq_some_iff] at h
  obtain ⟨c, hc, r, hr, h⟩ := h
  cases h
  exact ⟨_, _, rfl, hc, hr⟩

theorem inGrid_of_read? {kind : Kind} {cs : List Char} {p : Place} (h : read? kind cs = some p) :
    p.InGrid := by
  cases kind with
  | cell =>
    obtain ⟨r, c, rfl, hc, hr⟩ := readCell?_eq_some h
    refine ⟨rfl, fun axis m hm => ?_⟩
    cases axis <;> cases hm
    · exact Nat.le_pred_of_lt (lt_endless_of_readRow? hr)
    · exact le_lastColumn_of_readLetters? hc
  | column =>
    obtain ⟨c, hc, rfl⟩ := Option.map_eq_some_iff.mp h
    refine ⟨rfl, fun axis m hm => ?_⟩
    cases axis <;> cases hm
    exact le_lastColumn_of_readLetters? hc
  | row =>
    obtain ⟨r, hr, rfl⟩ := Option.map_eq_some_iff.mp h
    refine ⟨rfl, fun axis m hm => ?_⟩
    cases axis <;> cases hm
    exact Nat.le_pred_of_lt (lt_endless_of_readRow? hr)

theorem kind_of_read? {kind : Kind} {cs : List Char} {p : Place} (h : read? kind cs = some p) :
    p.kind = kind := by
  cases kind with
  | cell =>
    obtain ⟨r, c, rfl, -, -⟩ := readCell?_eq_some h
    rfl
  | column =>
    obtain ⟨c, -, rfl⟩ := Option.map_eq_some_iff.mp h
    rfl
  | row =>
    obtain ⟨r, -, rfl⟩ := Option.map_eq_some_iff.mp h
    rfl

theorem readMarker_marker (fixed : Bool) {c : Char} (h : c ≠ '$') (cs : List Char) :
    readMarker (marker fixed ++ c :: cs) = (fixed, c :: cs) := by
  cases fixed <;> simp [marker, readMarker, h]

theorem readMarker_columnText (m : Mark) (cs : List Char) :
    readMarker (columnText m ++ cs) = (m.fixed, columnLetters m.index ++ cs) := by
  obtain ⟨c, rest, hc⟩ := List.exists_cons_of_ne_nil (columnLetters_ne_nil m.index)
  have hcap : IsCapital c := isCapital_of_mem_columnLetters (hc ▸ List.mem_cons_self)
  rw [columnText, List.append_assoc, hc]
  exact readMarker_marker m.fixed hcap.ne_dollar _

theorem readMarker_rowText (m : Mark) : readMarker (rowText m) = (m.fixed, rowDigits m.index) := by
  obtain ⟨c, rest, hc⟩ := List.exists_cons_of_ne_nil (rowDigits_ne_nil m.index)
  have hdigit : c.isDigit = true := isDigit_of_mem_rowDigits (hc ▸ List.mem_cons_self)
  rw [rowText, hc]
  refine readMarker_marker m.fixed ?_ rest
  rintro rfl
  exact absurd hdigit (by decide)

theorem not_isAlpha_of_isDigit {c : Char} (h : c.isDigit = true) : c.isAlpha = false := by
  have hc : c.toNat ≤ 57 :=
    UInt32.le_iff_toNat_le.mp (of_decide_eq_true (Bool.and_eq_true_iff.mp h).2)
  have hbelow {d : Char} (hd : 57 < d.toNat) : ¬ c.val ≥ d.val := fun hle =>
    absurd (UInt32.le_iff_toNat_le.mp hle) (Nat.not_le.mpr (Nat.lt_of_le_of_lt hc hd))
  have hupper : c.isUpper = false := decide_eq_false fun hu => hbelow (by decide) hu.1
  have hlower : c.isLower = false :=
    Bool.and_eq_false_iff.mpr (.inl (decide_eq_false (hbelow (by decide))))
  exact Bool.or_eq_false_iff.mpr ⟨hupper, hlower⟩

theorem rowText_eq_cons (m : Mark) : ∃ c cs, rowText m = c :: cs ∧ c.isAlpha = false := by
  obtain ⟨c, rest, hc⟩ := List.exists_cons_of_ne_nil (rowDigits_ne_nil m.index)
  have hdigit : c.isDigit = true := isDigit_of_mem_rowDigits (hc ▸ List.mem_cons_self)
  rw [rowText, hc, marker]
  cases m.fixed with
  | true => exact ⟨'$', c :: rest, rfl, by decide⟩
  | false => exact ⟨c, rest, rfl, not_isAlpha_of_isDigit hdigit⟩

theorem takeWhile_isAlpha_letters (column : Nat) (m : Mark) :
    (columnLetters column ++ rowText m).takeWhile Char.isAlpha = columnLetters column := by
  obtain ⟨c, cs, hm, hc⟩ := rowText_eq_cons m
  rw [List.takeWhile_append_of_pos fun c hc => (isCapital_of_mem_columnLetters hc).isAlpha, hm]
  simp [hc]

theorem dropWhile_isAlpha_letters (column : Nat) (m : Mark) :
    (columnLetters column ++ rowText m).dropWhile Char.isAlpha = rowText m := by
  obtain ⟨c, cs, hm, hc⟩ := rowText_eq_cons m
  rw [List.dropWhile_append_of_pos fun c hc => (isCapital_of_mem_columnLetters hc).isAlpha, hm]
  simp [hc]

theorem read?_name {p : Place} (h : p.InGrid) : read? p.kind p.name = some p := by
  cases p with
  | cell r c valid =>
    obtain rfl := h.valid
    have hr : r.index < endless := Nat.lt_of_le_pred (by decide) (h.le_limit .row r rfl)
    have hc : c.index ≤ lastColumn := h.le_limit .column c rfl
    simp [read?, kind, name, readCell?, readMarker_columnText, takeWhile_isAlpha_letters,
      dropWhile_isAlpha_letters, readLetters?_columnLetters hc, readMarker_rowText,
      readRow?_rowDigits hr]
  | column c valid =>
    obtain rfl := h.valid
    have hc : c.index ≤ lastColumn := h.le_limit .column c rfl
    have hm := readMarker_columnText c []
    simp only [List.append_nil] at hm
    simp [read?, kind, name, readColumn?, hm, readLetters?_columnLetters hc]
  | row r valid =>
    obtain rfl := h.valid
    have hr : r.index < endless := Nat.lt_of_le_pred (by decide) (h.le_limit .row r rfl)
    simp [read?, kind, name, readRow?, readMarker_rowText, readRow?_rowDigits hr]

theorem of_readLetters? {cs : List Char} {c : Nat} (h : readLetters? cs = some c) :
    cs ≠ [] ∧ cs.length ≤ 3 ∧ ∀ d ∈ cs, d.isAlpha = true := by
  simp only [readLetters?, Spreadsheet.readColumn?, Option.ite_none_left_eq_some,
    Bool.or_eq_true, not_or] at h
  obtain ⟨hlength, ⟨⟨hnil, halpha⟩, -⟩, -⟩ := h
  exact ⟨by simpa using hnil, by omega, by simpa using halpha⟩

theorem of_readRow? {cs : List Char} {r : Nat} (h : Spreadsheet.readRow? cs = some r) :
    cs ≠ [] ∧ ∀ d ∈ cs, d.isDigit = true := by
  simp only [Spreadsheet.readRow?, Option.ite_none_left_eq_some, Bool.or_eq_true, not_or] at h
  obtain ⟨⟨⟨⟨hnil, hdigit⟩, -⟩, -⟩, -⟩ := h
  exact ⟨by simpa using hnil, by simpa using hdigit⟩

/-- The kind of a place shows in its name: a row has no letters, a column nothing else. -/
theorem kind_iff_of_read? {kind : Kind} {cs : List Char} {p : Place} (h : read? kind cs = some p) :
    ((readMarker cs).2.takeWhile Char.isAlpha = [] ↔ kind = .row) ∧
      ((readMarker cs).2.dropWhile Char.isAlpha = [] ↔ kind = .column) := by
  cases kind with
  | cell =>
    obtain ⟨r, c, -, hc, hr⟩ := readCell?_eq_some h
    refine ⟨iff_of_false (of_readLetters? hc).1 nofun, iff_of_false (fun hnil => ?_) nofun⟩
    rw [hnil] at hr
    cases hr
  | column =>
    obtain ⟨c, hc, -⟩ := Option.map_eq_some_iff.mp h
    change readLetters? (readMarker cs).2 = some c at hc
    obtain ⟨hne, -, halpha⟩ := of_readLetters? hc
    refine ⟨iff_of_false (fun hnil => hne ?_) nofun, iff_of_true ?_ rfl⟩
    · rwa [List.takeWhile_eq_self_iff.mpr halpha] at hnil
    · exact List.dropWhile_eq_nil_iff.mpr halpha
  | row =>
    obtain ⟨r, hr, -⟩ := Option.map_eq_some_iff.mp h
    change Spreadsheet.readRow? (readMarker cs).2 = some r at hr
    obtain ⟨hne, hdigit⟩ := of_readRow? hr
    obtain ⟨d, ds, hds⟩ := List.exists_cons_of_ne_nil hne
    have hd : d.isAlpha = false := not_isAlpha_of_isDigit (hdigit d (hds ▸ List.mem_cons_self))
    rw [hds]
    simp [hd]

theorem kind_unique {kind kind' : Kind} {cs : List Char} {p p' : Place}
    (h : read? kind cs = some p) (h' : read? kind' cs = some p') : kind = kind' := by
  obtain ⟨hrow, hcolumn⟩ := kind_iff_of_read? h
  obtain ⟨hrow', hcolumn'⟩ := kind_iff_of_read? h'
  have hr : kind = .row ↔ kind' = .row := hrow.symm.trans hrow'
  have hc : kind = .column ↔ kind' = .column := hcolumn.symm.trans hcolumn'
  cases kind <;> cases kind' <;> simp_all

theorem read?_eq_none {kind kind' : Kind} {cs : List Char} {p : Place}
    (h : read? kind cs = some p) (hk : kind ≠ kind') : read? kind' cs = none := by
  cases h' : read? kind' cs with
  | none => rfl
  | some p' => exact absurd (kind_unique h h') hk

/-- A word of more than three letters names no place. -/
theorem read?_eq_none_of_letters {cs : List Char} (halpha : ∀ d ∈ cs, d.isAlpha = true)
    (hlength : 3 < cs.length) (kind : Kind) : read? kind cs = none := by
  have hmarker : (readMarker cs).2 = cs := by
    unfold readMarker
    split
    · exact absurd (halpha '$' List.mem_cons_self) (by decide)
    · rfl
  cases hp : read? kind cs with
  | none => rfl
  | some p =>
    have hkind := kind_iff_of_read? hp
    rw [hmarker, List.dropWhile_eq_nil_iff.mpr halpha] at hkind
    obtain rfl := hkind.2.mp rfl
    obtain ⟨c, hc, -⟩ := Option.map_eq_some_iff.mp hp
    change readLetters? (readMarker cs).2 = some c at hc
    rw [hmarker] at hc
    have := (of_readLetters? hc).2.1
    omega

end Place

namespace Target

/-- The ends of a range are sorted: between them is the same range. -/
theorem between_eq_range {a b : Place} (ha : a.InGrid) (hb : b.InGrid) :
    ∃ p q, between a b = range p q ∧ between p q = range p q ∧
      (p.InGrid ∧ p.kind = a.kind) ∧ q.InGrid ∧ q.kind = b.kind := by
  obtain ⟨p, q, hpq, hexchanged, hsorted⟩ := exists_between a b
  obtain ⟨hp, hq⟩ := hexchanged.inGrid ha hb
  exact ⟨p, q, hpq, between_eq_range_iff.mpr hsorted, ⟨hp, hexchanged.kinds.1⟩, hq,
    hexchanged.kinds.2⟩

end Target

namespace Reference

theorem readRange?_eq_some {left right : List Char} {target : Target}
    (h : readRange? left right = some target) :
    ∃ kind p q, Place.read? kind left = some p ∧ Place.read? kind right = some q ∧
      target = .between p q := by
  obtain ⟨kind, -, hkind⟩ := List.exists_of_findSome?_eq_some h
  simp only [Option.bind_eq_bind, Option.bind_eq_some_iff] at hkind
  obtain ⟨p, hp, q, hq, htarget⟩ := hkind
  cases htarget
  exact ⟨kind, p, q, hp, hq, rfl⟩

/-- A text that is read names a cell, or two places of one kind with a colon between them. -/
theorem read?_eq_some {text : String} {r : Reference} (h : read? text = some r) :
    (∃ p, Place.read? .cell (Text.trim text).toList = some p ∧ r = ofPlace p) ∨
      ∃ kind left right p q, (Text.trim text).toList = left ++ ':' :: right ∧
        Place.read? kind left = some p ∧ Place.read? kind right = some q ∧
        r = single (.between p q) := by
  simp only [read?] at h
  split at h
  · next colon right hdrop =>
    obtain ⟨target, htarget, rfl⟩ := Option.map_eq_some_iff.mp h
    obtain ⟨kind, p, q, hp, hq, rfl⟩ := readRange?_eq_some htarget
    have hcolon : colon = ':' := by
      have hhead := List.head?_dropWhile_not (· != ':') (Text.trim text).toList
      rw [hdrop] at hhead
      simpa using hhead
    have htext := List.takeWhile_append_dropWhile (p := (· != ':')) (l := (Text.trim text).toList)
    rw [hdrop, hcolon] at htext
    exact .inr ⟨kind, _, right, p, q, htext.symm, hp, hq, rfl⟩
  · obtain ⟨p, hp, rfl⟩ := Option.map_eq_some_iff.mp h
    exact .inl ⟨p, hp, rfl⟩

end Reference

end Spreadsheet
