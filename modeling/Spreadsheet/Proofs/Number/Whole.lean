import Spreadsheet.Proofs.Number.Finite

/-! Whole numbers are computed exactly as long as they fit into a mantissa. Such a number has one
form, a mantissa of full length that ends in zeros, and where the exact result of an operation has
that form too, rounding drops only zeros. -/

namespace Spreadsheet.Number

open Float.Model UnpackedFloat

/-- The number is the whole number `n`: its mantissa has full length and is the size of `n`,
shifted. -/
inductive Whole : UnpackedFloat → Int → Prop
  | zero (s : UnpackedFloat.Sign) : Whole (.zero s) 0
  | finite (s : UnpackedFloat.Sign) {n k : Nat} (hm : 0 < n * 2 ^ k) :
    (n * 2 ^ k).log2 = 52 → Whole (.finite s (n * 2 ^ k) (-k) hm) (s.apply n)

theorem log2_mul_two_pow {n : Nat} (hn : 0 < n) (k : Nat) : (n * 2 ^ k).log2 = n.log2 + k := by
  rw [← Nat.shiftLeft_eq, log2_shiftLeft hn.ne']

/-! ## Rounding -/

/-- Shifting out zeros leaves nothing to round. -/
theorem shiftRight_exact (m t : Nat) :
    ExtendedMantissa.mk (m * 2 ^ t) false false >>> t = .mk m false false := by
  induction t generalizing m with
  | zero =>
    rw [Nat.pow_zero, Nat.mul_one]
    rfl
  | succ t ih =>
    have hstep : ExtendedMantissa.mk (m * 2 ^ (t + 1)) false false >>> t =
        .mk (m * 2) false false := by
      rw [Nat.pow_succ', ← Nat.mul_assoc, ih]
    change ExtendedMantissa.shiftRightOne
      (ExtendedMantissa.mk (m * 2 ^ (t + 1)) false false >>> t) = _
    rw [hstep, ExtendedMantissa.shiftRightOne]
    simp

/-- A mantissa that is cut to its first 53 digits, where zeros follow them. -/
theorem shiftToTargetExponent_exact {m t : Nat} {e : Int} (hm : m.log2 = 52) (hpos : 0 < m)
    (he : -1074 ≤ e) :
    shiftToTargetExponent .binary64 (m * 2 ^ t) e .exact = (.mk m false false, e + t) := by
  have hshift : (max ((m * 2 ^ t).log2 + 1 + e - 53 : Int) (-1074) - e).toNat = t := by
    rw [log2_mul_two_pow hpos, hm]
    omega
  simp only [shiftToTargetExponent, shiftToExponent, targetExponent_eq, totalExponent, hshift,
    ExtendedMantissa.ofMantissaAndAccuracy, shiftRight_exact]

theorem roundWithAccuracy_exact {s : UnpackedFloat.Sign} {m t : Nat} {e : Int}
    (hm : m.log2 = 52) (hpos : 0 < m) (he : -1074 ≤ e) :
    roundWithAccuracy .binary64 s (m * 2 ^ t) e .exact = .finite s m (e + t) hpos := by
  have hagain := shiftToTargetExponent_exact (t := 0) hm hpos (show -1074 ≤ e + t by omega)
  rw [Nat.pow_zero, Nat.mul_one] at hagain
  have hrounded : (ExtendedMantissa.mk m false false).roundedMantissa = m := rfl
  unfold roundWithAccuracy
  rw [shiftToTargetExponent_exact hm hpos he]
  simp only [hrounded, hagain, dif_neg hpos.ne', Int.natCast_zero, Int.add_zero]

section Rounding

variable {s : UnpackedFloat.Sign} {n j : Nat} (hpos : 0 < n) (hlt : n < 2 ^ 53)
include hpos hlt

theorem whole_roundWithAccuracy (hfull : 52 ≤ n.log2 + j) (hj : j ≤ 1074) :
    Whole (roundWithAccuracy .binary64 s (n * 2 ^ j) (-j) .exact) (s.apply n) := by
  have hlog := log2_lt_of_lt hlt (by decide)
  obtain ⟨k, t, hk, rfl⟩ : ∃ k t, n.log2 + k = 52 ∧ j = k + t :=
    ⟨52 - n.log2, j - (52 - n.log2), by omega, by omega⟩
  have hm : (n * 2 ^ k).log2 = 52 := by rw [log2_mul_two_pow hpos, hk]
  have hsize : 0 < n * 2 ^ k := Nat.mul_pos hpos (Nat.two_pow_pos k)
  have hexponent : -((k + t : Nat) : Int) + t = -k := by omega
  rw [Nat.pow_add, ← Nat.mul_assoc, roundWithAccuracy_exact hm hsize (by omega)]
  simp only [hexponent]
  exact .finite s hsize hm

/-- Zeros are put behind a mantissa that is too short. -/
theorem whole_round (hj : j ≤ 1022) :
    Whole (round .binary64 s (n * 2 ^ j) (-j)) (s.apply n) := by
  have hlog := log2_lt_of_lt hlt (by decide)
  obtain ⟨more, hmore⟩ : ∃ more, more = 52 - (n.log2 + j) := ⟨_, rfl⟩
  have hshift :
      (-(j : Int) - max ((n * 2 ^ j).log2 + 1 + -(j : Int) - 53) (-1074)).toNat = more := by
    rw [log2_mul_two_pow hpos]
    omega
  have hexponent : -(j : Int) - more = -((j + more : Nat) : Int) := by omega
  unfold UnpackedFloat.round decreaseExponent
  simp only [targetExponent_eq, totalExponent, hshift, hexponent, Nat.shiftLeft_eq, Nat.mul_assoc,
    ← Nat.pow_add]
  exact whole_roundWithAccuracy hpos hlt (by omega) (by omega)

end Rounding

theorem whole_normalize {a : Int} {j : Nat} (ha : a.natAbs < 2 ^ 53) (hj : j ≤ 1022)
    (z : UnpackedFloat.Sign) :
    Whole (UnpackedFloat.normalize .binary64 (a * 2 ^ j) (-j) z) a := by
  have hpow : (0 : Int) < 2 ^ j := by positivity
  unfold UnpackedFloat.normalize
  obtain h | rfl | h := Int.lt_trichotomy a 0
  · obtain ⟨n, rfl⟩ : ∃ n : Nat, a = -n := ⟨a.natAbs, by omega⟩
    rw [Int.compare_eq_lt.mpr (Int.mul_neg_of_neg_of_pos h hpow)]
    have hsize : (-(-(n : Int) * 2 ^ j)).toNat = n * 2 ^ j := by
      rw [Int.neg_mul, Int.neg_neg]
      exact_mod_cast Int.toNat_natCast (n * 2 ^ j)
    dsimp only
    rw [hsize]
    exact whole_round (s := .negative) (by omega) (by omega) hj
  · rw [Int.zero_mul, Int.compare_eq_eq.mpr rfl]
    exact .zero z
  · obtain ⟨n, rfl⟩ : ∃ n : Nat, a = n := ⟨a.natAbs, by omega⟩
    rw [Int.compare_eq_gt.mpr (Int.mul_pos h hpow)]
    have hsize : ((n : Int) * 2 ^ j).toNat = n * 2 ^ j := by
      exact_mod_cast Int.toNat_natCast (n * 2 ^ j)
    dsimp only
    rw [hsize]
    exact whole_round (s := .positive) (by omega) (by omega) hj

/-! ## Arithmetic -/

theorem apply_neg (s : UnpackedFloat.Sign) (n : Int) : (-s).apply n = -s.apply n := by
  cases s
  · exact (Int.neg_neg n).symm
  · rfl

theorem apply_mul (s t : UnpackedFloat.Sign) (m n : Int) :
    (s * t).apply (m * n) = s.apply m * t.apply n := by
  cases s <;> cases t
  · exact (Int.neg_mul_neg m n).symm
  · exact (Int.neg_mul m n).symm
  · exact (Int.mul_neg m n).symm
  · rfl

theorem natAbs_apply (s : UnpackedFloat.Sign) (n : Nat) : (s.apply n).natAbs = n := by
  cases s
  · exact Int.natAbs_neg n
  · rfl

namespace Whole

variable {u v : UnpackedFloat} {a b : Int}

theorem neg (h : Whole u a) : Whole u.neg (-a) := by
  cases h with
  | zero s => exact .zero _
  | finite s hm hlog =>
    rw [← apply_neg]
    exact .finite (-s) hm hlog

theorem mul (hu : Whole u a) (hv : Whole v b) (h : (a * b).natAbs < 2 ^ 53) :
    Whole (u.mul .binary64 v) (a * b) := by
  cases hu with
  | zero s =>
    rw [Int.zero_mul]
    cases hv <;> exact .zero _
  | @finite s n k hm hlog =>
    cases hv with
    | zero t =>
      rw [Int.mul_zero]
      exact .zero _
    | @finite t n' k' hm' hlog' =>
      have hn := Nat.pos_of_mul_pos_right hm
      have hn' := Nat.pos_of_mul_pos_right hm'
      rw [Int.natAbs_mul, natAbs_apply, natAbs_apply] at h
      rw [log2_mul_two_pow hn] at hlog
      rw [log2_mul_two_pow hn'] at hlog'
      have hlonger : n.log2 ≤ (n * n').log2 := by
        rw [Nat.log2_eq_log_two, Nat.log2_eq_log_two]
        exact Nat.log_mono_right (Nat.le_mul_of_pos_right n hn')
      have hproduct : n * 2 ^ k * (n' * 2 ^ k') = n * n' * 2 ^ (k + k') := by
        rw [Nat.pow_add]
        exact Nat.mul_mul_mul_comm ..
      have hexponent : -(k : Int) + -k' = -((k + k' : Nat) : Int) := by omega
      rw [← apply_mul, ← Int.natCast_mul]
      unfold UnpackedFloat.mul
      simp only [hproduct, hexponent]
      exact whole_roundWithAccuracy (Nat.mul_pos hn hn') h (by omega) (by omega)

/-- Both mantissas are written with the smaller of the exponents. -/
theorem add (hu : Whole u a) (hv : Whole v b) (h : (a + b).natAbs < 2 ^ 53) :
    Whole (u.add .binary64 v) (a + b) := by
  cases hu with
  | zero s =>
    rw [Int.zero_add]
    cases hv with
    | zero t =>
      unfold UnpackedFloat.add
      dsimp only
      split <;> exact .zero _
    | finite t hm hlog => exact .finite t hm hlog
  | @finite s n k hm hlog =>
    cases hv with
    | zero t =>
      rw [Int.add_zero]
      exact .finite s hm hlog
    | @finite t n' k' hm' hlog' =>
      rw [log2_mul_two_pow (Nat.pos_of_mul_pos_right hm)] at hlog
      rw [log2_mul_two_pow (Nat.pos_of_mul_pos_right hm')] at hlog'
      obtain ⟨j, hj⟩ : ∃ j, j = max k k' := ⟨_, rfl⟩
      have hmin : min (-(k : Int)) (-k') = -j := by omega
      have hshift : k + (-(k : Int) - -j).toNat = j := by omega
      have hshift' : k' + (-(k' : Int) - -j).toNat = j := by omega
      have happly (s : UnpackedFloat.Sign) (n : Nat) :
          s.apply ((n * 2 ^ j : Nat) : Int) = s.apply n * 2 ^ j := by
        cases s <;> simp [UnpackedFloat.Sign.apply]
      unfold UnpackedFloat.add decreaseExponent
      simp only [hmin, Nat.shiftLeft_eq, Nat.mul_assoc, ← Nat.pow_add, hshift, hshift', happly,
        ← Int.add_mul]
      exact whole_normalize h (by omega) _

theorem isFinite (h : Whole u a) : u.isFinite = true := by cases h <;> rfl

theorem isInf (h : Whole u a) : u.isInf = false := by cases h <;> rfl

theorem isNaN (h : Whole u a) : u.isNaN = false := by cases h <;> rfl

end Whole

/-- Subtraction adds the negation. -/
theorem sub_eq_add_neg (u v : UnpackedFloat) : u.sub .binary64 v = u.add .binary64 v.neg := by
  cases u <;> cases v <;>
    simp [UnpackedFloat.sub, UnpackedFloat.add, UnpackedFloat.neg, apply_neg, Int.sub_eq_add_neg]

/-! ## Packing -/

theorem storedFraction_packComponents (s : UnpackedFloat.Sign) (e : BitVec 11) (m : BitVec 52)
    {x : Float} (h : pattern x = packComponents .binary64 s e m) : storedFraction x = m.toNat := by
  rw [← unpackMantissa_pattern, h, unpackMantissa_packComponents]

theorem storedSign_packComponents (s : UnpackedFloat.Sign) (e : BitVec 11) (m : BitVec 52)
    {x : Float} (h : pattern x = packComponents .binary64 s e m) : storedSign x = s := by
  rw [← unpackSign_pattern, h, sign_packComponents]

theorem unpacked_of_zero {s : UnpackedFloat.Sign} {x : Float}
    (h : pattern x = packComponents .binary64 s 0 0) : unpacked x = .zero s := by
  have hexponent : storedExponent x = 0 := storedExponent_packComponents _ _ _ h
  have hfraction : storedFraction x = 0 := storedFraction_packComponents _ _ _ h
  rw [unpacked_eq, if_neg (by omega), if_pos hexponent, dif_pos hfraction,
    storedSign_packComponents _ _ _ h]

theorem unpacked_of_full {s : UnpackedFloat.Sign} {m k : Nat} {x : Float} (hm : 0 < m)
    (hlog : m.log2 = 52) (hk : k ≤ 52)
    (h : pattern x = packComponents .binary64 s (.ofNat _ (1075 - k)) (.ofNat _ m)) :
    unpacked x = .finite s m (-k) hm := by
  obtain ⟨hlow, hhigh⟩ := (Nat.log2_eq_iff hm.ne').mp hlog
  have hexponent : storedExponent x = 1075 - k := by
    rw [storedExponent_packComponents _ _ _ h, BitVec.toNat_ofNat]
    omega
  have hfraction : storedFraction x = m - 2 ^ 52 := by
    rw [storedFraction_packComponents _ _ _ h, BitVec.toNat_ofNat]
    omega
  rw [unpacked_eq, if_neg (by omega), if_neg (by omega), storedSign_packComponents _ _ _ h]
  congr 1
  · omega
  · omega

/-- The stored form of a number from the form the arithmetic sees. -/
theorem stored_of_unpacked {x : Float} {s : UnpackedFloat.Sign} {m : Nat} {e : Int} {hm : 0 < m}
    (h : unpacked x = .finite s m e hm) :
    storedSign x = s ∧ units x = m * 2 ^ (e + 1074).toNat := by
  rw [unpacked_eq] at h
  unfold units
  split at h
  · split at h <;> cases h
  · split at h
    · next hzero =>
      split at h
      · cases h
      · obtain ⟨rfl, rfl, rfl⟩ := UnpackedFloat.finite.inj h
        exact ⟨rfl, by rw [if_pos hzero]; simp⟩
    · next hpos =>
      obtain ⟨rfl, rfl, rfl⟩ := UnpackedFloat.finite.inj h
      have hexponent : ((storedExponent x : Int) - 1075 + 1074).toNat = storedExponent x - 1 := by
        omega
      exact ⟨rfl, by rw [if_neg hpos, hexponent]; rfl⟩

theorem isNegative_eq_storedSign (x : Float) : isNegative x = (storedSign x == .negative) := by
  unfold storedSign
  cases isNegative x <;> rfl

/-- A whole number is stored as it is. -/
theorem Whole.unpacked_pack {u : UnpackedFloat} {a : Int} (h : Whole u a) :
    unpacked ⟨Float.Model.pack u⟩ = u := by
  cases h with
  | zero s => exact unpacked_of_zero rfl
  | @finite s n k hm hlog =>
    have hk := hlog
    rw [log2_mul_two_pow (Nat.pos_of_mul_pos_right hm)] at hk
    refine unpacked_of_full hm hlog (by omega) ?_
    have hbiased : (-(k : Int) + Format.binary64.exponentBias +
        Format.binary64.mantissaBitsWithoutImplicit).toNat = 1075 - k := by
      rw [show (Format.binary64.exponentBias : Int) = 1023 from rfl,
        show (Format.binary64.mantissaBitsWithoutImplicit : Int) = 52 from rfl]
      omega
    change UnpackedFloat.pack .binary64 (.finite s (n * 2 ^ k) (-k) hm) = _
    unfold UnpackedFloat.pack
    simp only [hbiased]
    have hfits : ¬ 2 ^ Format.binary64.exponentBits ≤ 1075 - k + 1 := by
      rw [show 2 ^ Format.binary64.exponentBits = 2048 from rfl]
      omega
    rw [if_neg hfits, if_pos (by rw [hlog]; rfl)]

/-! ## Numbers -/

/-- The number is the whole number `n`. -/
def IsWhole (x : Float) (n : Int) : Prop := Whole (unpacked x) n

theorem isWhole_pack {u : UnpackedFloat} {n : Int} (h : Whole u n) :
    IsWhole ⟨Float.Model.pack u⟩ n := by
  rwa [IsWhole, h.unpacked_pack]

theorem isWhole_toFloat {n : UInt64} (h : n.toNat < 2 ^ 53) : IsWhole n.toFloat n.toNat := by
  refine isWhole_pack (u := .ofUInt64 .binary64 n) ?_
  have hwhole := whole_normalize (a := n.toNat) (j := 0) (by omega) (by decide) .positive
  rwa [Int.pow_zero, Int.mul_one] at hwhole

namespace IsWhole

variable {x y : Float} {a b n : Int}

theorem mul (hx : IsWhole x a) (hy : IsWhole y b) (h : (a * b).natAbs < 2 ^ 53) :
    IsWhole (x * y) (a * b) := isWhole_pack (Whole.mul hx hy h)

theorem add (hx : IsWhole x a) (hy : IsWhole y b) (h : (a + b).natAbs < 2 ^ 53) :
    IsWhole (x + y) (a + b) := isWhole_pack (Whole.add hx hy h)

theorem neg (h : IsWhole x n) : IsWhole (-x) (-n) := isWhole_pack (Whole.neg h)

theorem sub (hx : IsWhole x a) (hy : IsWhole y b) (h : (a - b).natAbs < 2 ^ 53) :
    IsWhole (x - y) (a - b) := by
  have hsub : (unpacked x).sub .binary64 (unpacked y) =
      (unpacked x).add .binary64 (unpacked y).neg := sub_eq_add_neg ..
  have hwhole := Whole.add hx (Whole.neg hy) h
  rw [← hsub] at hwhole
  exact isWhole_pack hwhole

theorem isFinite (h : IsWhole x n) : x.isFinite = true := Whole.isFinite h

theorem isInf (h : IsWhole x n) : x.isInf = false := Whole.isInf h

theorem isNaN (h : IsWhole x n) : x.isNaN = false := Whole.isNaN h

/-- The size of a whole number in units. -/
theorem units (h : IsWhole x n) : units x = n.natAbs * unitsPerOne := by
  obtain ⟨u, hu⟩ : ∃ u, unpacked x = u := ⟨_, rfl⟩
  rw [IsWhole, hu] at h
  cases h with
  | zero s =>
    rw [Int.natAbs_zero, Nat.zero_mul]
    exact (unpacked_eq_zero_iff x).mp ⟨s, hu⟩
  | @finite s n k hm hlog =>
    rw [log2_mul_two_pow (Nat.pos_of_mul_pos_right hm)] at hlog
    have hexponent : k + (-(k : Int) + 1074).toNat = 1074 := by omega
    have hone : 2 ^ (k + (-(k : Int) + 1074).toNat) = unitsPerOne := by
      unfold unitsPerOne
      rw [← hexponent]
      rfl
    rw [natAbs_apply, (stored_of_unpacked hu).2, Nat.mul_assoc, ← Nat.pow_add, hone]

theorem isNegative (h : IsWhole x n) (hn : n ≠ 0) : isNegative x = decide (n < 0) := by
  obtain ⟨u, hu⟩ : ∃ u, unpacked x = u := ⟨_, rfl⟩
  rw [IsWhole, hu] at h
  cases h with
  | zero s => exact absurd rfl hn
  | @finite s n k hm hlog =>
    rw [isNegative_eq_storedSign, (stored_of_unpacked hu).1]
    have hpos := Nat.pos_of_mul_pos_right hm
    cases s with
    | negative => exact (decide_eq_true (show -(n : Int) < 0 by omega)).symm
    | positive => exact (decide_eq_false (show ¬ (n : Int) < 0 by omega)).symm

theorem units_div (h : IsWhole x n) : Number.units x / unitsPerOne = n.natAbs := by
  have hpos : 0 < unitsPerOne := by
    unfold unitsPerOne
    apply Nat.two_pow_pos
  rw [h.units, Nat.mul_div_cancel _ hpos]

theorem wholePart (h : IsWhole x n) : wholePart x = n := by
  unfold Number.wholePart
  rw [h.units_div]
  dsimp only
  by_cases hn : n = 0
  · subst hn
    split <;> rfl
  · rw [h.isNegative hn]
    simp only [decide_eq_true_eq]
    omega

end IsWhole

/-- Whole numbers that fit into a mantissa are represented. -/
theorem isWhole_ofNat {n : Nat} (h : n < 2 ^ 53) : IsWhole (Float.ofNat n) n := by
  have hsmall : n ≤ 2 ^ 53 - 1 := by omega
  have hone : IsWhole (Float.exactlyRepresentablePowersOfTen[0]) (1 : Nat) :=
    Whole.finite .positive (n := 1) (k := 52) (by decide) (by decide)
  have hnat : n.toUInt64.toNat = n := by
    rw [UInt64.toNat_ofNat', Nat.mod_eq_of_lt (by omega)]
  have hwhole : IsWhole n.toUInt64.toFloat n := by
    have := isWhole_toFloat (n := n.toUInt64) (by omega)
    rwa [hnat] at this
  change IsWhole (Float.ofScientific n false 0) n
  unfold Float.ofScientific
  rw [dif_pos ⟨h, by decide⟩]
  have hproduct := hwhole.mul hone (by omega)
  rwa [Int.natCast_one, Int.mul_one] at hproduct

theorem isWhole_ofInt {n : Int} (h : n.natAbs < 2 ^ 53) : IsWhole (Float.ofInt n) n := by
  cases n with
  | ofNat n => exact isWhole_ofNat h
  | negSucc n => exact (isWhole_ofNat h).neg

theorem IsWhole.truncated {x : Float} {n : Int} (hx : IsWhole x n) (h : n.natAbs < 2 ^ 53) :
    IsWhole (truncated x) n := by
  unfold Number.truncated withSignOf
  rw [if_pos hx.isFinite, hx.units_div]
  by_cases hn : n = 0
  · subst hn
    split
    · exact (isWhole_ofNat (n := 0) (by decide)).neg
    · exact isWhole_ofNat (n := 0) (by decide)
  · rw [hx.isNegative hn]
    obtain hneg | hpos : n < 0 ∨ 0 < n := by omega
    · have hwhole := (isWhole_ofNat h).neg
      rw [Int.ofNat_natAbs_of_nonpos hneg.le, Int.neg_neg] at hwhole
      rwa [if_pos (decide_eq_true hneg)]
    · have hwhole := isWhole_ofNat h
      rw [Int.natAbs_of_nonneg hpos.le] at hwhole
      rwa [if_neg (by simpa using hpos.le)]

end Spreadsheet.Number
