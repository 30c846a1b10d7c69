import Spreadsheet.Evaluation.Basic
import Spreadsheet.Proofs.Calendar.Existing
import Spreadsheet.Proofs.Number.Ordering

/-! The order of values as the order of their keys. A value that is filled is compared by its rank
and then by what its rank goes by: a number or date by its amount, a logical by its truth, a text by
its lower case. Keys are ordered lexicographically, so the laws of an order hold across types; an
empty cell takes the key of the zero of what it meets, which keeps all but transitivity. -/

namespace Spreadsheet.Value

/-- A text, a finite number, a logical or a date. -/
inductive Filled : Value → Prop
  | text (s : String) : Filled (.text s)
  | number {x : Float} (h : x.isFinite = true) : Filled (.number x)
  | logical (b : Bool) : Filled (.logical b)
  | date {m : Calendar.Moment} (h : m.Exists) : Filled (.date m)

/-- What a value is compared by. -/
structure Key where
  rank : Nat
  amount : Int
  text : String

namespace Key

instance : Ord Key :=
  ⟨compareLex (compareOn rank) (compareLex (compareOn amount) (compareOn text))⟩

instance : Std.TransOrd Key :=
  inferInstanceAs (Std.TransCmp
    (compareLex (compareOn rank) (compareLex (compareOn amount) (compareOn text))))

theorem compare_self (k : Key) : Ord.compare k k = .eq := Std.ReflCmp.compare_self

theorem compare_swap (k l : Key) : Ord.compare l k = (Ord.compare k l).swap :=
  Std.OrientedCmp.eq_swap

/-- Going up and further up is going up; where one of the steps is none, the other decides. -/
theorem compare_then {k l m : Key} (h : (Ord.compare k l).isLE = true)
    (h' : (Ord.compare l m).isLE = true) :
    Ord.compare k m = (Ord.compare k l).then (Ord.compare l m) := by
  cases hkl : Ord.compare k l with
  | eq => exact Std.TransCmp.congr_left hkl
  | lt => exact Std.TransCmp.lt_of_lt_of_isLE hkl h'
  | gt => rw [hkl] at h; cases h

theorem compare_eq (k l : Key) : Ord.compare k l =
    (Ord.compare k.rank l.rank).then
      ((Ord.compare k.amount l.amount).then (Ord.compare k.text l.text)) := rfl

theorem compare_amount (rank : Nat) (m n : Int) (s : String) :
    Ord.compare (⟨rank, m, s⟩ : Key) ⟨rank, n, s⟩ = Ord.compare m n := by
  simp [compare_eq]

theorem compare_text (rank : Nat) (n : Int) (s t : String) :
    Ord.compare (⟨rank, n, s⟩ : Key) ⟨rank, n, t⟩ = compareOfLessAndEq s t := by
  simp only [compare_eq, Std.ReflCmp.compare_self, Ordering.eq_then]
  rfl

end Key

def key : Value → Key
  | number x => ⟨3, Number.amount x, ""⟩
  | date m => ⟨3, Number.amount m.serial, ""⟩
  | logical b => ⟨2, if b then 1 else 0, ""⟩
  | text s => ⟨1, 0, Text.lower s⟩
  | _ => ⟨0, 0, ""⟩

variable {a b c : Value}

/-! ## Filled values -/

theorem compareNumbers_eq {x y : Float} (hx : x.isFinite = true) (hy : y.isFinite = true) :
    compareNumbers x y = Ord.compare (Number.amount x) (Number.amount y) := by
  unfold compareNumbers
  simp only [Number.lt_iff_amount hx hy, Number.lt_iff_amount hy hx]
  obtain h | h | h := Int.lt_trichotomy (Number.amount x) (Number.amount y)
  · rw [if_pos h, Int.compare_eq_lt.mpr h]
  · rw [if_neg (by omega), if_neg (by omega), Int.compare_eq_eq.mpr h]
  · rw [if_neg (by omega), if_pos h, Int.compare_eq_gt.mpr h]

namespace Filled

theorem rank_key (h : a.Filled) : a.key.rank = a.rank := by cases h <;> rfl

/-- Numbers and dates are compared by finite numbers. -/
theorem toNumber (h : a.Filled) (hrank : a.rank = 3) :
    ∃ x, a.toNumber = .ok x ∧ x.isFinite = true ∧ a.key = ⟨3, Number.amount x, ""⟩ := by
  cases h with
  | number hx => exact ⟨_, rfl, hx, rfl⟩
  | date hm => exact ⟨_, rfl, Calendar.isFinite_serial hm, rfl⟩
  | text s => cases hrank
  | logical b => cases hrank

theorem toLogical (h : a.Filled) (hrank : a.rank = 2) :
    ∃ x, a.toLogical = .ok x ∧ a.key = ⟨2, if x then 1 else 0, ""⟩ := by
  cases h with
  | logical b => exact ⟨b, rfl, rfl⟩
  | _ => cases hrank

theorem toText (h : a.Filled) (hrank : a.rank = 1) :
    ∃ s, a.toText = .ok s ∧ a.key = ⟨1, 0, Text.lower s⟩ := by
  cases h with
  | text s => exact ⟨s, rfl, rfl⟩
  | _ => cases hrank

theorem rank_cases (h : a.Filled) : a.rank = 3 ∨ a.rank = 2 ∨ a.rank = 1 := by
  cases h <;> simp [rank]

end Filled

theorem compareLogicals_eq (x y : Bool) :
    compareLogicals x y = Ord.compare (if x then 1 else 0 : Int) (if y then 1 else 0) := by
  cases x <;> cases y <;> decide

theorem compareWithin_eq (ha : a.Filled) (hb : b.Filled) (hrank : a.rank = b.rank) :
    compareWithin a.rank a b = .ok (Ord.compare a.key b.key) := by
  unfold compareWithin
  obtain h | h | h := ha.rank_cases
  · obtain ⟨x, hx, hfinite, hkey⟩ := ha.toNumber h
    obtain ⟨y, hy, hfinite', hkey'⟩ := hb.toNumber (hrank ▸ h)
    rw [if_pos h, hx, hy, hkey, hkey', Key.compare_amount, ← compareNumbers_eq hfinite hfinite']
    rfl
  · obtain ⟨x, hx, hkey⟩ := ha.toLogical h
    obtain ⟨y, hy, hkey'⟩ := hb.toLogical (hrank ▸ h)
    rw [if_neg (by omega), if_pos h, hx, hy, hkey, hkey', Key.compare_amount, ← compareLogicals_eq]
    rfl
  · obtain ⟨s, hs, hkey⟩ := ha.toText h
    obtain ⟨t, ht, hkey'⟩ := hb.toText (hrank ▸ h)
    rw [if_neg (by omega), if_neg (by omega), hs, ht, hkey, hkey', Key.compare_text]
    rfl

theorem compareFilled_eq (ha : a.Filled) (hb : b.Filled) :
    compareFilled a b = .ok (Ord.compare a.key b.key) := by
  unfold compareFilled
  split
  · next hrank => exact compareWithin_eq ha hb hrank
  · next hrank =>
    have hne : Ord.compare a.rank b.rank ≠ .eq := fun h => hrank (Nat.compare_eq_eq.mp h)
    rw [Key.compare_eq, ha.rank_key, hb.rank_key]
    cases h : Ord.compare a.rank b.rank with
    | eq => exact absurd h hne
    | _ => rfl

/-! ## Empty cells -/

/-- An empty cell or a filled one. -/
def Comparable (v : Value) : Prop := v = empty ∨ v.Filled

/-- What `a` is compared as beside `b`. -/
def beside (a b : Value) : Value :=
  match a with
  | empty => b.zeroLike
  | a => a

theorem Filled.beside (h : a.Filled) (b : Value) : a.beside b = a := by cases h <;> rfl

theorem filled_zeroLike (v : Value) : v.zeroLike.Filled := by
  cases v with
  | number _ | date _ => exact .number rfl
  | logical _ => exact .logical _
  | _ => exact .text _

theorem filled_beside (h : a.Comparable) (b : Value) : (a.beside b).Filled := by
  obtain rfl | h := h
  · exact filled_zeroLike b
  · rwa [h.beside]

/-- Two values are compared by the keys of what each stands for beside the other. -/
theorem compare_eq (ha : a.Comparable) (hb : b.Comparable) :
    a.compare b = .ok (Ord.compare (a.beside b).key (b.beside a).key) := by
  rw [← compareFilled_eq (filled_beside ha b) (filled_beside hb a)]
  obtain rfl | ha := ha
  · obtain rfl | hb := hb
    · have hzero := compareFilled_eq (filled_zeroLike empty) (filled_zeroLike empty)
      rw [Key.compare_self] at hzero
      exact hzero.symm
    · rw [hb.beside]
      cases hb <;> rfl
  · obtain rfl | hb := hb
    · rw [ha.beside]
      cases ha <;> rfl
    · rw [ha.beside, hb.beside]
      cases ha <;> cases hb <;> rfl

theorem compare_swap (ha : a.Comparable) (hb : b.Comparable) {o : Ordering}
    (h : a.compare b = .ok o) : b.compare a = .ok o.swap := by
  rw [compare_eq ha hb] at h
  cases h
  rw [compare_eq hb ha, Key.compare_swap]

theorem compare_filled (ha : a.Filled) (hb : b.Filled) :
    a.compare b = .ok (Ord.compare a.key b.key) := by
  rw [compare_eq (.inr ha) (.inr hb), ha.beside, hb.beside]

/-! ## Operators -/

theorem apply_comparison {op : BinaryOp} (harithmetic : op.arithmetic? = none)
    (hconcat : op ≠ .concat) {o : Ordering} (h : a.compare b = .ok o) :
    op.apply a b = .logical (op.holds o) := by
  unfold BinaryOp.apply
  rw [harithmetic]
  dsimp only
  rw [if_neg hconcat, h]
  rfl

/-- The six operators agree: one of less, equal and greater is true, and the other three are not
what these are. -/
structure Agree (a b : Value) (lt eq gt : Bool) : Prop where
  less : BinaryOp.less.apply a b = .logical lt
  equal : BinaryOp.equal.apply a b = .logical eq
  greater : BinaryOp.greater.apply a b = .logical gt
  one : [lt, eq, gt].count true = 1
  atLeast : BinaryOp.atLeast.apply a b = .logical !lt
  unequal : BinaryOp.unequal.apply a b = .logical !eq
  atMost : BinaryOp.atMost.apply a b = .logical !gt

theorem agree_of_compare {o : Ordering} (h : a.compare b = .ok o) :
    Agree a b (o == .lt) (o == .eq) (o == .gt) where
  less := apply_comparison rfl (by decide) h
  equal := apply_comparison rfl (by decide) h
  greater := apply_comparison rfl (by decide) h
  one := by cases o <;> rfl
  atLeast := apply_comparison rfl (by decide) h
  unequal := apply_comparison rfl (by decide) h
  atMost := apply_comparison rfl (by decide) h

/-- Values that are empty or filled can be compared, and the other way round the result is reversed.
On filled values, of whatever types, the comparison is a total preorder: each equals itself, and of
two steps up the result is the first that is not equality. So for any two values the six operators
agree. -/
theorem comparison_is_order :
    (∀ a b : Value, a.Comparable → b.Comparable →
      ∃ o, a.compare b = .ok o ∧ b.compare a = .ok o.swap) ∧
    (∀ a : Value, a.Filled → a.compare a = .ok .eq) ∧
    (∀ a b c : Value, a.Filled → b.Filled → c.Filled → ∀ o o',
      a.compare b = .ok o → b.compare c = .ok o' → o.isLE = true → o'.isLE = true →
      a.compare c = .ok (o.then o')) ∧
    ∀ a b : Value, a.Comparable → b.Comparable → ∃ lt eq gt, Agree a b lt eq gt := by
  refine ⟨fun a b ha hb => ?_, fun a ha => ?_, fun a b c ha hb hc o o' hab hbc ho ho' => ?_,
    fun a b ha hb => ?_⟩
  · exact ⟨_, compare_eq ha hb, compare_swap ha hb (compare_eq ha hb)⟩
  · rw [compare_filled ha ha, Key.compare_self]
  · rw [compare_filled ha hb] at hab
    rw [compare_filled hb hc] at hbc
    cases hab
    cases hbc
    rw [compare_filled ha hc, Key.compare_then ho ho']
  · exact ⟨_, _, _, agree_of_compare (compare_eq ha hb)⟩

/-- A text, a logical, a date and the number that is its serial go up in this order; an empty cell
stands before the text as an empty text. -/
theorem comparison_is_order_across_types :
    let word := text "b"
    let truth := logical false
    let day := date (.midnight 45292)
    let serial := number 45292
    (empty.Comparable ∧ word.Comparable ∧ ∃ o, empty.compare word = .ok o ∧
      word.compare empty = .ok o.swap) ∧
    (word.Filled ∧ truth.Filled ∧ day.Filled ∧ serial.Filled ∧ day.compare day = .ok .eq) ∧
    (word.compare truth = .ok .lt ∧ truth.compare day = .ok .lt ∧ word.compare day = .ok .lt) ∧
    (truth.compare day = .ok .lt ∧ day.compare serial = .ok .eq ∧
      truth.compare serial = .ok .lt) ∧
    ∃ lt eq gt, Agree empty word lt eq gt := by
  intro word truth day serial
  obtain ⟨hswap, hself, htrans, hagree⟩ := comparison_is_order
  have hempty : empty.Comparable := .inl rfl
  have hword : word.Filled := .text _
  have htruth : truth.Filled := .logical _
  have hday : day.Filled := .date (by decide)
  have hserial : serial.Filled := .number rfl
  have hwordTruth : word.compare truth = .ok .lt := rfl
  have htruthDay : truth.compare day = .ok .lt := rfl
  have hdaySerial : day.compare serial = .ok .eq := by decide +kernel
  exact ⟨⟨hempty, .inr hword, hswap _ _ hempty (.inr hword)⟩,
    ⟨hword, htruth, hday, hserial, hself _ hday⟩,
    ⟨hwordTruth, htruthDay, htrans _ _ _ hword htruth hday _ _ hwordTruth htruthDay rfl rfl⟩,
    ⟨htruthDay, hdaySerial, htrans _ _ _ htruth hday hserial _ _ htruthDay hdaySerial rfl rfl⟩,
    hagree _ _ hempty (.inr hword)⟩

end Spreadsheet.Value
