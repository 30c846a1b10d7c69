import Spreadsheet.Proofs.Grid.Cutting

/-! Regions as sets of cells and as the words their edges are stored in. The pieces that cutting
leaves have their edges on the grid, so the arithmetic of 32-bit words finds the same ones. Two
regions that lie apart form a third exactly when their cells do: a rectangle that two others divide
is divided across, from side to side. -/

namespace Spreadsheet

/-! ## Lines in words -/

namespace Span

variable {s t cut part : Span}

/-- The ends of a span as words, with arithmetic that wraps around. -/
structure Words where
  first : UInt32
  last : UInt32
  deriving DecidableEq

def words (s : Span) : Words := ⟨.ofNat s.first, .ofNat s.last⟩

namespace Words

/-- The lines that both have. -/
def meet? (s t : Words) : Option Words :=
  if s.first ≤ t.last ∧ t.first ≤ s.last then
    some ⟨max s.first t.first, min s.last t.last⟩
  else none

/-- The lines of `s` before `cut`. -/
def before? (s cut : Words) : Option Words :=
  if s.first < cut.first then some ⟨s.first, cut.first - 1⟩ else none

/-- The lines of `s` after `cut`. -/
def after? (s cut : Words) : Option Words :=
  if cut.last < s.last then some ⟨cut.last + 1, s.last⟩ else none

end Words

theorem word_le {a b : Nat} (ha : a ≤ endless) (hb : b ≤ endless) :
    UInt32.ofNat a ≤ UInt32.ofNat b ↔ a ≤ b :=
  UInt32.ofNat_le_iff_le (Nat.lt_succ_of_le ha) (Nat.lt_succ_of_le hb)

theorem word_lt {a b : Nat} (ha : a ≤ endless) (hb : b ≤ endless) :
    UInt32.ofNat a < UInt32.ofNat b ↔ a < b :=
  UInt32.ofNat_lt_iff_lt (Nat.lt_succ_of_le ha) (Nat.lt_succ_of_le hb)

theorem word_max {a b : Nat} (ha : a ≤ endless) (hb : b ≤ endless) :
    max (UInt32.ofNat a) (UInt32.ofNat b) = .ofNat (max a b) := by
  change (if UInt32.ofNat a ≤ UInt32.ofNat b then UInt32.ofNat b else UInt32.ofNat a) = _
  split
  · next h => rw [Nat.max_eq_right ((word_le ha hb).mp h)]
  · next h => rw [Nat.max_eq_left (Nat.le_of_not_le fun h' => h ((word_le ha hb).mpr h'))]

theorem word_min {a b : Nat} (ha : a ≤ endless) (hb : b ≤ endless) :
    min (UInt32.ofNat a) (UInt32.ofNat b) = .ofNat (min a b) := by
  change (if UInt32.ofNat a ≤ UInt32.ofNat b then UInt32.ofNat a else UInt32.ofNat b) = _
  split
  · next h => rw [Nat.min_eq_left ((word_le ha hb).mp h)]
  · next h => rw [Nat.min_eq_right (Nat.le_of_not_le fun h' => h ((word_le ha hb).mpr h'))]

section

variable (hs : s.last ≤ endless) (ht : t.last ≤ endless)
include hs ht

theorem words_meet? : (s.meet? t).map words = s.words.meet? t.words := by
  have hsize := s.first_le_last
  have hsize' := t.first_le_last
  have hmeets : s.words.first ≤ t.words.last ∧ t.words.first ≤ s.words.last ↔
      max s.first t.first ≤ min s.last t.last := by
    rw [words, words, word_le (by omega) ht, word_le (by omega) hs]
    omega
  unfold meet? Words.meet?
  split
  · next h =>
    rw [if_pos (hmeets.mpr h), Option.map_some]
    simp only [words, word_max (Nat.le_trans hsize hs) (Nat.le_trans hsize' ht), word_min hs ht]
  · next h => rw [if_neg fun h' => h (hmeets.mp h'), Option.map_none]

/-- A line before another is not the last one, and one less than a line after another is no less
than zero. -/
theorem words_before? : (s.before? t).map words = s.words.before? t.words := by
  have hsize := s.first_le_last
  have hsize' := t.first_le_last
  have hbefore : s.words.first < t.words.first ↔ s.first < t.first :=
    word_lt (Nat.le_trans hsize hs) (Nat.le_trans hsize' ht)
  unfold before? Words.before?
  split
  · next h =>
    rw [if_pos (hbefore.mpr h), Option.map_some]
    simp only [words, UInt32.ofNat_sub (show 1 ≤ t.first by omega), UInt32.ofNat_one]
  · next h => rw [if_neg fun h' => h (hbefore.mp h'), Option.map_none]

theorem words_after? : (s.after? t).map words = s.words.after? t.words := by
  have hafter : t.words.last < s.words.last ↔ t.last < s.last := word_lt ht hs
  unfold after? Words.after?
  split
  · next h =>
    rw [if_pos (hafter.mpr h), Option.map_some]
    simp only [words, UInt32.ofNat_add, UInt32.ofNat_one]
  · next h => rw [if_neg fun h' => h (hafter.mp h'), Option.map_none]

end

theorem last_le_of_before? (h : s.before? cut = some part) (hcut : cut.last ≤ endless) :
    part.last ≤ endless := by
  have hsize := cut.first_le_last
  unfold before? at h
  split at h
  · cases h
    dsimp only
    omega
  · cases h

theorem last_le_of_after? (h : s.after? cut = some part) (hs : s.last ≤ endless) :
    part.last ≤ endless := by
  unfold after? at h
  split at h
  · cases h
    exact hs
  · cases h

/-- Rectangles in two rows of blocks, the first before the second, that together fill a rectangle
both reach across it, and no line lies between them. -/
theorem sides_of_filled {s' t' u u' : Span} (hbefore : s.last < t.first)
    (h : ∀ i j, u.contains i = true ∧ u'.contains j = true ↔
      s.contains i = true ∧ s'.contains j = true ∨ t.contains i = true ∧ t'.contains j = true) :
    s' = t' ∧ s.touches t = true ∧ u = s.hull t ∧ u' = s' := by
  have hs := s.first_le_last
  have hs' := s'.first_le_last
  have ht := t.first_le_last
  have ht' := t'.first_le_last
  have hu := u.first_le_last
  have hu' := u'.first_le_last
  simp only [contains_iff] at h
  -- the lines of the two lie in the whole, and the first and last line of the whole in one each
  have hfirst := (h s.first s'.first).mpr (by omega)
  have hfirst' := (h s.first s'.last).mpr (by omega)
  have hlast := (h t.last t'.first).mpr (by omega)
  have hlast' := (h t.last t'.last).mpr (by omega)
  have htop := (h u.first u'.first).mp (by omega)
  have htop' := (h u.first u'.last).mp (by omega)
  have hbottom := (h u.last u'.first).mp (by omega)
  have hbottom' := (h u.last u'.last).mp (by omega)
  have hbetween := h (s.last + 1) u'.first
  have hsame : s'.first = t'.first ∧ s'.last = t'.last := by omega
  have hwhole : u.first = min s.first t.first ∧ u.last = max s.last t.last := by omega
  have hacross : u'.first = s'.first ∧ u'.last = s'.last := by omega
  refine ⟨?_, ?_, ?_, ?_⟩
  · cases s'
    cases t'
    simpa using hsame
  · simp only [touches, Bool.and_eq_true, decide_eq_true_eq]
    omega
  · cases u
    simpa [hull] using hwhole
  · cases u'
    cases s'
    simpa using hacross

end Span

/-! ## Regions -/

namespace Region

variable {r s u cut piece : Region}

/-- The edges of a region as words. -/
structure Words where
  rows : Span.Words
  columns : Span.Words
  deriving DecidableEq

def words (r : Region) : Words := ⟨r.rows.words, r.columns.words⟩

namespace Words

def meet? (r s : Words) : Option Words :=
  match r.rows.meet? s.rows, r.columns.meet? s.columns with
  | some rows, some columns => some ⟨rows, columns⟩
  | _, _ => none

/-- What is left of `r` without `s`: above, below, left and right of the part they share. -/
def subtract (r s : Words) : List Words :=
  match r.meet? s with
  | none => [r]
  | some cut =>
    ((r.rows.before? cut.rows).map fun rows => ⟨rows, r.columns⟩).toList ++
    ((r.rows.after? cut.rows).map fun rows => ⟨rows, r.columns⟩).toList ++
    ((r.columns.before? cut.columns).map fun columns => ⟨cut.rows, columns⟩).toList ++
    ((r.columns.after? cut.columns).map fun columns => ⟨cut.rows, columns⟩).toList

end Words

theorem OnGrid.of_covers (h : r.OnGrid) (hcovers : r.covers s = true) : s.OnGrid := by
  simp only [covers, Span.covers, Bool.and_eq_true, decide_eq_true_eq] at hcovers
  exact ⟨Nat.le_trans hcovers.1.2 h.1, Nat.le_trans hcovers.2.2 h.2⟩

theorem onGrid_of_around (hr : r.OnGrid) (hcut : cut.OnGrid) (h : r.Around cut piece) :
    piece.OnGrid := by
  cases h with
  | above h => exact ⟨Span.last_le_of_before? h hcut.1, hr.2⟩
  | below h => exact ⟨Span.last_le_of_after? h hr.1, hr.2⟩
  | left h => exact ⟨hcut.1, Span.last_le_of_before? h hcut.2⟩
  | right h => exact ⟨hcut.1, Span.last_le_of_after? h hr.2⟩

theorem OnGrid.subtract (h : r.OnGrid) (s : Region) : ∀ piece ∈ r.subtract s, piece.OnGrid := by
  intro piece hpiece
  cases hmeet : r.meet? s with
  | none =>
    rw [Region.subtract, hmeet] at hpiece
    rwa [List.mem_singleton.mp hpiece]
  | some cut =>
    have hcut := h.of_covers (covers_of_meet? hmeet).1
    exact onGrid_of_around h hcut ((mem_subtract_of_meet? hmeet).mp hpiece)

theorem words_meet? (hr : r.OnGrid) (hs : s.OnGrid) :
    (r.meet? s).map words = r.words.meet? s.words := by
  unfold meet? Words.meet?
  rw [words, words, ← Span.words_meet? hr.1 hs.1, ← Span.words_meet? hr.2 hs.2]
  cases r.rows.meet? s.rows <;> cases r.columns.meet? s.columns <;> rfl

/-- Cutting comes out the same in words: no edge of a piece wraps around. -/
theorem words_subtract (hr : r.OnGrid) (hs : s.OnGrid) :
    (r.subtract s).map words = r.words.subtract s.words := by
  unfold subtract Words.subtract
  rw [← words_meet? hr hs]
  cases hmeet : r.meet? s with
  | none => rfl
  | some cut =>
    have hcut := hr.of_covers (covers_of_meet? hmeet).1
    have hpieces (o : Option Span) (f : Span → Region) (g : Span.Words → Words)
        (h : ∀ t, (f t).words = g t.words) :
        (o.map f).toList.map words = ((o.map Span.words).map g).toList := by
      cases o with
      | none => rfl
      | some t => exact congrArg (fun w => [w]) (h t)
    simp only [Option.map_some, words, ← Span.words_before? hr.1 hcut.1,
      ← Span.words_after? hr.1 hcut.1, ← Span.words_before? hr.2 hcut.2,
      ← Span.words_after? hr.2 hcut.2, List.map_append]
    congr 1
    · congr 1
      · congr 1
        · exact hpieces _ _ _ fun _ => rfl
        · exact hpieces _ _ _ fun _ => rfl
      · exact hpieces _ _ _ fun _ => rfl
    · exact hpieces _ _ _ fun _ => rfl

theorem length_subtract_le (r s : Region) : (r.subtract s).length ≤ 4 := by
  have hone (o : Option Region) : o.toList.length ≤ 1 := by cases o <;> simp
  unfold subtract
  split
  · simp
  · simp only [List.length_append]
    exact Nat.add_le_add (Nat.add_le_add (Nat.add_le_add (hone _) (hone _)) (hone _)) (hone _)

/-- The cells of `u` are those of `r` and `s`. -/
def Filled (u r s : Region) : Prop :=
  ∀ p, u.contains p = true ↔ r.contains p = true ∨ s.contains p = true

theorem Filled.symm (h : u.Filled r s) : u.Filled s r := fun p => (h p).trans or_comm

theorem merged?_of_before {axis : Axis} (hbefore : (r.span axis).last < (s.span axis).first)
    (h : u.Filled r s) : r.merged? s = some u := by
  have hcells (i j : Nat) : u.rows.contains i = true ∧ u.columns.contains j = true ↔
      r.rows.contains i = true ∧ r.columns.contains j = true ∨
        s.rows.contains i = true ∧ s.columns.contains j = true := by
    simpa [contains] using h ⟨i, j⟩
  cases axis with
  | row =>
    obtain ⟨hcolumns, htouches, hrows, hu⟩ := Span.sides_of_filled hbefore hcells
    have hhull : r.hull s = u := by
      change (⟨(r.span .row).hull (s.span .row), r.columns.hull s.columns⟩ : Region) = u
      rw [← hrows, ← hcolumns, Span.hull_self, ← hu]
    rw [merged?, if_pos (.inl ⟨hcolumns, htouches⟩), hhull]
  | column =>
    have hcells' (j i : Nat) : u.columns.contains j = true ∧ u.rows.contains i = true ↔
        r.columns.contains j = true ∧ r.rows.contains i = true ∨
          s.columns.contains j = true ∧ s.rows.contains i = true := by
      simpa only [and_comm] using hcells i j
    obtain ⟨hrows, htouches, hcolumns, hu⟩ := Span.sides_of_filled hbefore hcells'
    have hhull : r.hull s = u := by
      change (⟨r.rows.hull s.rows, (r.span .column).hull (s.span .column)⟩ : Region) = u
      rw [← hcolumns, ← hrows, Span.hull_self, ← hu]
    rw [merged?, if_pos (.inr ⟨hrows, htouches⟩), hhull]

/-- Regions that lie apart form exactly what they fill. -/
theorem merged?_iff_filled (hdisjoint : r.Disjoint s) : r.merged? s = some u ↔ u.Filled r s := by
  refine ⟨contains_of_merged?, fun h => ?_⟩
  obtain ⟨axis, hbefore | hafter⟩ := disjoint_iff_apart.mp hdisjoint
  · exact merged?_of_before hbefore h
  · rw [merged?_comm]
    exact merged?_of_before hafter h.symm

theorem OnGrid.of_filled (hr : r.OnGrid) (hs : s.OnGrid) (h : u.Filled r s) : u.OnGrid :=
  onGrid_iff.mpr fun p hp => (h p |>.mp hp).elim (onGrid_iff.mp hr p) (onGrid_iff.mp hs p)

/-! ## The algebra -/

/-- The pieces are regions that lie apart and hold the cells of `r` that are not in `s`. -/
structure IsDifference (r s : Region) (pieces : List Region) : Prop where
  few : pieces.length ≤ 4
  onGrid : ∀ piece ∈ pieces, piece.OnGrid
  apart : pieces.Pairwise Disjoint
  cells : ∀ p, (∃ piece ∈ pieces, piece.contains p = true) ↔
    r.contains p = true ∧ s.contains p = false

/-- On the grid, cutting, sharing and forming regions are difference, intersection and union of
their cells; cutting and sharing come out the same in words, so nothing wraps around. Two regions
form none but their union, and it they form whenever they lie apart and it is a region. -/
theorem algebra_exact (r s : Region) (hr : r.OnGrid) (hs : s.OnGrid) :
    IsDifference r s (r.subtract s) ∧ (r.subtract s).map words = r.words.subtract s.words ∧
      (∀ u, r.meet? s = some u → u.OnGrid ∧
        ∀ p, u.contains p = true ↔ r.contains p = true ∧ s.contains p = true) ∧
      (r.meet? s = none ↔ r.Disjoint s) ∧
      (r.meet? s).map words = r.words.meet? s.words ∧
      (∀ u, r.merged? s = some u → u.OnGrid ∧ u.Filled r s) ∧
      (r.Disjoint s → ∀ u, u.Filled r s → r.merged? s = some u) := by
  refine ⟨⟨length_subtract_le r s, hr.subtract s, subtract_disjoint r s,
    exists_mem_subtract_iff r s⟩, words_subtract hr hs, fun u hu => ?_, meet?_eq_none,
    words_meet? hr hs, fun u hu => ?_, fun hdisjoint u => (merged?_iff_filled hdisjoint).mpr⟩
  · exact ⟨hr.of_covers (covers_of_meet? hu).1, fun p => by simp [contains_of_meet? hu]⟩
  · have hfilled : u.Filled r s := contains_of_merged? hu
    exact ⟨.of_filled hr hs hfilled, hfilled⟩

/-- Column A, rows 1 to 10, and columns B and C: down to the last line of the grid. -/
theorem algebra_exact_of_columns :
    let column := wholeColumns (.single 0)
    let rows := wholeRows ⟨0, 9, by decide⟩
    let beside := wholeColumns ⟨1, 2, by decide⟩
    let joined := wholeColumns ⟨0, 2, by decide⟩
    column.OnGrid ∧ rows.OnGrid ∧ beside.OnGrid ∧
      column.subtract rows = [⟨⟨10, endless, by decide⟩, .single 0⟩] ∧
      IsDifference column rows (column.subtract rows) ∧
      column.Disjoint beside ∧ joined.Filled column beside ∧
      column.merged? beside = some joined := by
  intro column rows beside joined
  have hcolumn : column.OnGrid := by decide
  have hrows : rows.OnGrid := by decide
  have hbeside : beside.OnGrid := by decide
  have hdisjoint : column.Disjoint beside := by decide
  have hfilled : joined.Filled column beside := by
    intro p
    simp only [joined, column, beside, wholeColumns, contains, Span.contains, Span.single,
      Bool.and_eq_true, decide_eq_true_eq]
    omega
  have hmerged := (algebra_exact column beside hcolumn hbeside).2.2.2.2.2.2 hdisjoint joined hfilled
  exact ⟨hcolumn, hrows, hbeside, rfl, (algebra_exact column rows hcolumn hrows).1, hdisjoint,
    hfilled, hmerged⟩

end Region

end Spreadsheet
