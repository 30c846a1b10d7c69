import Spreadsheet.Proofs.Number.Stored

/-! The order of numbers. Finite numbers compare by sign, then exponent, then fraction, and that is
the order of what they amount to: whole multiples of one unit, which are ordered as integers. So
the order is linear, and the two zeros are one number in it. -/

namespace Spreadsheet.Number

open Float.Model

/-- What a finite number amounts to, in units. -/
def amount (x : Float) : Int := if isNegative x then -(units x : Int) else units x

/-! ## Mantissas and exponents -/

/-- A mantissa of full length, unless the exponent is the least. -/
structure Normal (m k : Nat) : Prop where
  lt : m < 2 ^ 53
  full : k = 0 ∨ 2 ^ 52 ≤ m

/-- With mantissas of full length, the larger exponent makes the larger number. -/
theorem size_lt_of_exponent {m m' k k' : Nat} (hm : Normal m k) (hm' : Normal m' k') (h : k < k') :
    m * 2 ^ k < m' * 2 ^ k' :=
  have hfull : 2 ^ 52 ≤ m' := hm'.full.resolve_left (by omega)
  calc m * 2 ^ k < 2 ^ 53 * 2 ^ k := Nat.mul_lt_mul_of_pos_right hm.lt (Nat.two_pow_pos k)
    _ = 2 ^ 52 * 2 ^ (k + 1) := by rw [Nat.pow_succ]; omega
    _ ≤ 2 ^ 52 * 2 ^ k' := Nat.mul_le_mul_left _ (Nat.pow_le_pow_right (by decide) h)
    _ ≤ m' * 2 ^ k' := Nat.mul_le_mul_right _ hfull

theorem compare_size {m m' k k' : Nat} (hm : Normal m k) (hm' : Normal m' k') :
    compare (m * 2 ^ k) (m' * 2 ^ k') = (compare k k').then (compare m m') := by
  obtain h | rfl | h := Nat.lt_trichotomy k k'
  · rw [Nat.compare_eq_lt.mpr h, Nat.compare_eq_lt.mpr (size_lt_of_exponent hm hm' h)]
    rfl
  · rw [Nat.compare_eq_eq.mpr rfl, Ordering.eq_then]
    obtain h | rfl | h := Nat.lt_trichotomy m m'
    · rw [Nat.compare_eq_lt.mpr h,
        Nat.compare_eq_lt.mpr (Nat.mul_lt_mul_of_pos_right h (Nat.two_pow_pos k))]
    · simp
    · rw [Nat.compare_eq_gt.mpr h,
        Nat.compare_eq_gt.mpr (Nat.mul_lt_mul_of_pos_right h (Nat.two_pow_pos k))]
  · rw [Nat.compare_eq_gt.mpr h, Nat.compare_eq_gt.mpr (size_lt_of_exponent hm' hm h)]
    rfl

/-- A finite number as the arithmetic sees it, with its amount. -/
inductive Amounts : UnpackedFloat → Int → Prop
  | zero (s : UnpackedFloat.Sign) : Amounts (.zero s) 0
  | finite (s : UnpackedFloat.Sign) {m k : Nat} (hm : 0 < m) :
    Normal m k → Amounts (.finite s m (k - 1074) hm) (s.apply (m * 2 ^ k : Nat))

theorem amounts_unpacked {x : Float} (h : x.isFinite = true) : Amounts (unpacked x) (amount x) := by
  have hfraction := storedFraction_lt x
  have hsign (n : Nat) : (storedSign x).apply n = if isNegative x then -(n : Int) else n := by
    unfold storedSign
    split <;> rfl
  rw [unpacked_eq, if_neg ((isFinite_iff x).mp h), amount, ← hsign, units]
  split
  · split
    · next hzero =>
      rw [hzero]
      have hnone : (storedSign x).apply (0 : Nat) = 0 := by cases storedSign x <;> rfl
      exact hnone ▸ .zero _
    · next hpos =>
      have hsubnormal := Amounts.finite (storedSign x) (m := storedFraction x) (k := 0)
        (Nat.pos_of_ne_zero hpos) ⟨by omega, .inl rfl⟩
      simpa using hsubnormal
  · have hexponent : (storedExponent x : Int) - 1075 = (storedExponent x - 1 : Nat) - 1074 := by
      omega
    simp only [hexponent]
    exact .finite _ _ ⟨by omega, .inr (by omega)⟩

/-! ## The order -/

theorem compare_natCast (m n : Nat) : compare (m : Int) n = compare m n := by
  obtain h | rfl | h := Nat.lt_trichotomy m n
  · rw [Nat.compare_eq_lt.mpr h, Int.compare_eq_lt.mpr (by omega)]
  · simp
  · rw [Nat.compare_eq_gt.mpr h, Int.compare_eq_gt.mpr (by omega)]

theorem compare_neg (a b : Int) : compare (-a) (-b) = (compare a b).swap := by
  obtain h | rfl | h := Int.lt_trichotomy a b
  · rw [Int.compare_eq_lt.mpr h, Int.compare_eq_gt.mpr (by omega)]
    rfl
  · simp
  · rw [Int.compare_eq_gt.mpr h, Int.compare_eq_lt.mpr (by omega)]
    rfl

theorem compare_exponents (k k' : Nat) :
    compare ((k : Int) - 1074) ((k' : Int) - 1074) = compare k k' := by
  obtain h | rfl | h := Nat.lt_trichotomy k k'
  · rw [Nat.compare_eq_lt.mpr h, Int.compare_eq_lt.mpr (by omega)]
  · simp
  · rw [Nat.compare_eq_gt.mpr h, Int.compare_eq_gt.mpr (by omega)]

theorem compare_amounts {u v : UnpackedFloat} {a b : Int} (hu : Amounts u a) (hv : Amounts v b) :
    u.compare v = some (compare a b) := by
  have below {a b : Int} (h : a < b) : some Ordering.lt = some (compare a b) :=
    congrArg some (Int.compare_eq_lt.mpr h).symm
  have above {a b : Int} (h : b < a) : some Ordering.gt = some (compare a b) :=
    congrArg some (Int.compare_eq_gt.mpr h).symm
  have size_pos {m : Nat} (hm : 0 < m) (k : Nat) : (0 : Int) < (m * 2 ^ k : Nat) :=
    Int.natCast_pos.mpr (Nat.mul_pos hm (Nat.two_pow_pos k))
  cases hu with
  | zero s =>
    cases hv with
    | zero t => rfl
    | @finite t m k hm _ =>
      have hpos := size_pos hm k
      cases t with
      | positive => exact below hpos
      | negative => exact above (Int.neg_neg_of_pos hpos)
  | @finite s m k hm hnormal =>
    have hpos := size_pos hm k
    cases hv with
    | zero t =>
      cases s with
      | positive => exact above hpos
      | negative => exact below (Int.neg_neg_of_pos hpos)
    | @finite t m' k' hm' hnormal' =>
      have hpos' := size_pos hm' k'
      have hsize := compare_size hnormal hnormal'
      rw [← compare_natCast, ← compare_exponents] at hsize
      cases s with
      | positive =>
        cases t with
        | positive => exact congrArg some hsize.symm
        | negative => exact above ((Int.neg_neg_of_pos hpos').trans hpos)
      | negative =>
        cases t with
        | positive => exact below ((Int.neg_neg_of_pos hpos).trans hpos')
        | negative =>
          exact congrArg some ((congrArg Ordering.swap hsize.symm).trans (compare_neg _ _).symm)

/-- Finite numbers are ordered as their amounts. -/
theorem lt_iff_amount {x y : Float} (hx : x.isFinite = true) (hy : y.isFinite = true) :
    x < y ↔ amount x < amount y := by
  have hcompare := compare_amounts (amounts_unpacked hx) (amounts_unpacked hy)
  have hlt : x < y ↔ ((unpacked x).compare (unpacked y) == some .lt) = true := decide_eq_true_iff
  rw [hlt, hcompare, beq_iff_eq, Option.some.injEq, Int.compare_eq_lt]

end Spreadsheet.Number
