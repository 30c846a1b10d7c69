import Spreadsheet.Proofs.Number.Unsigned

/-! Which computed numbers are finite. A result overflows by its exponent alone, so this goes by
bounds on exponents: rounding adds at most one to what the exact result needs, and from there the
exponents of whole numbers, products and quotients follow from those of their operands. -/

namespace Spreadsheet.Number

open Float.Model UnpackedFloat

/-- The number is zero, or its exponent is at most `bound`. -/
inductive Below (bound : Int) : UnpackedFloat → Prop where
  | zero (s : Sign) : Below bound (.zero s)
  | finite (s : Sign) {m : Nat} {e : Int} (hm : 0 < m) :
    m < 2 ^ 53 → e ≤ bound → Below bound (.finite s m e hm)

theorem Below.isFinite {bound : Int} {u : UnpackedFloat} (h : Below bound u) :
    u.isFinite = true := by
  cases h <;> rfl

theorem Below.neg {bound : Int} {u : UnpackedFloat} (h : Below bound u) : Below bound u.neg := by
  cases h with
  | zero s => exact .zero _
  | finite s hm hlt hle => exact .finite _ hm hlt hle

/-! ## Rounding -/

theorem targetExponent_eq (total : Int) :
    Format.binary64.targetExponent total = max (total - 53) (-1074) := rfl

theorem mantissa_shiftRight (em : ExtendedMantissa) (k : Nat) :
    (em >>> k).mantissa = em.mantissa / 2 ^ k := by
  induction k with
  | zero => exact (Nat.div_one _).symm
  | succ k ih =>
    show (em >>> k).mantissa / 2 = _
    rw [ih, Nat.div_div_eq_div_mul, Nat.pow_succ]

theorem roundedMantissa_le (em : ExtendedMantissa) : em.roundedMantissa ≤ em.mantissa + 1 := by
  obtain ⟨m, roundBit, stickyBit⟩ := em
  cases roundBit <;> cases stickyBit <;>
    simp only [ExtendedMantissa.roundedMantissa, ExtendedMantissa.accuracy,
      Accuracy.roundToNearestEven] <;> omega

theorem mantissa_ofMantissaAndAccuracy (m : Nat) (accuracy : Accuracy) :
    (ExtendedMantissa.ofMantissaAndAccuracy m accuracy).mantissa = m := by
  cases accuracy with
  | exact => rfl
  | inexact o => cases o <;> rfl

theorem log2_lt_of_lt {m k : Nat} (h : m < 2 ^ k) (hk : 0 < k) : m.log2 < k := by
  by_cases hm : m = 0
  · rw [hm]
    exact hk
  · exact (Nat.log2_lt hm).mpr h

theorem div_two_pow_lt {m k : Nat} (h : m.log2 ≤ 52 + k) : m / 2 ^ k < 2 ^ 53 := by
  refine Nat.div_lt_of_lt_mul ?_
  calc m < 2 ^ (m.log2 + 1) := Nat.lt_log2_self
    _ ≤ 2 ^ (k + 53) := Nat.pow_le_pow_right (by decide) (by omega)
    _ = 2 ^ k * 2 ^ 53 := Nat.pow_add ..

/-- A mantissa that is cut to 53 bits, with the exponent that goes with it. -/
theorem shiftToTargetExponent_spec (m : Nat) (e : Int) (accuracy : Accuracy) :
    let cut := shiftToTargetExponent .binary64 m e accuracy
    cut.1.mantissa < 2 ^ 53 ∧ cut.2 = max e (max (m.log2 + e - 52) (-1074)) := by
  simp only [shiftToTargetExponent, shiftToExponent, targetExponent_eq, totalExponent,
    mantissa_shiftRight, mantissa_ofMantissaAndAccuracy]
  exact ⟨div_two_pow_lt (by omega), by omega⟩

/-- Rounding carries into the exponent at most once. -/
theorem below_roundWithAccuracy {bound : Int} {s : Sign} {m : Nat} {e : Int} {accuracy : Accuracy}
    (hexponent : e < bound) (hsize : m.log2 + e - 52 < bound) (hbound : -1074 < bound) :
    Below bound (.roundWithAccuracy .binary64 s m e accuracy) := by
  obtain ⟨hm, he⟩ := shiftToTargetExponent_spec m e accuracy
  unfold roundWithAccuracy
  generalize shiftToTargetExponent .binary64 m e accuracy = cut at hm he
  obtain ⟨em, e'⟩ := cut
  dsimp only at hm he ⊢
  obtain ⟨hfinal, hexponent'⟩ := shiftToTargetExponent_spec em.roundedMantissa e' .exact
  have hrounded : em.roundedMantissa.log2 < 54 :=
    log2_lt_of_lt (by have := roundedMantissa_le em; omega) (by decide)
  split
  · exact .zero s
  · exact .finite s _ hfinal (by omega)

/-! ## Packing -/

theorem storedExponent_packComponents (s : Sign) (e : BitVec 11) (m : BitVec 52) {x : Float}
    (h : pattern x = packComponents .binary64 s e m) : storedExponent x = e.toNat := by
  rw [← unpackExponent_pattern, h, unpackExponent_packComponents]

/-- The stored exponent of a number that is not too large. -/
theorem storedExponent_pack {bound : Nat} {u : UnpackedFloat} (h : Below (bound - 1075) u)
    (hbound : bound < 2047) : storedExponent ⟨Float.Model.pack u⟩ ≤ bound := by
  cases h with
  | zero s => exact (storedExponent_packComponents s 0 0 rfl).le.trans (Nat.zero_le _)
  | @finite s m e hm _ he =>
    have hbias : (e + Format.binary64.exponentBias +
        Format.binary64.mantissaBitsWithoutImplicit).toNat ≤ bound := by
      rw [show (Format.binary64.exponentBias : Int) = 1023 from rfl,
        show (Format.binary64.mantissaBitsWithoutImplicit : Int) = 52 from rfl]
      omega
    have hpattern : pattern ⟨Float.Model.pack (.finite s m e hm)⟩ =
        UnpackedFloat.pack .binary64 (.finite s m e hm) := rfl
    unfold UnpackedFloat.pack at hpattern
    dsimp only at hpattern
    generalize (e + Format.binary64.exponentBias +
      Format.binary64.mantissaBitsWithoutImplicit).toNat = biased at hbias hpattern
    rw [if_neg (show ¬ 2 ^ Format.binary64.exponentBits ≤ biased + 1 by
      rw [show 2 ^ Format.binary64.exponentBits = 2048 from rfl]; omega)] at hpattern
    split at hpattern
    · rw [storedExponent_packComponents _ _ _ hpattern]
      exact (BitVec.toNat_ofNat ..).trans_le ((Nat.mod_le _ _).trans hbias)
    · exact (storedExponent_packComponents _ _ _ hpattern).le.trans (Nat.zero_le _)

theorem below_unpacked {x : Float} {bound : Nat} (h : storedExponent x ≤ bound) (hpos : 0 < bound)
    (hbound : bound < 2047) : Below (bound - 1075) (unpacked x) := by
  have hfraction := storedFraction_lt x
  rw [unpacked_eq, if_neg (by omega)]
  split
  · split
    · exact .zero _
    · exact .finite _ _ (by omega) (by omega)
  · exact .finite _ _ (by omega) (by omega)

/-! ## Whole numbers, products and quotients -/

/-- Zero, or a number with at most the given exponent: less than `2 ^ (exponent + 53)` in size. -/
def IsWithin (exponent : Int) (x : Float) : Prop := Below exponent (unpacked x)

theorem IsWithin.isFinite {exponent : Int} {x : Float} (h : IsWithin exponent x) :
    x.isFinite = true := Below.isFinite h

theorem isWithin_pack {exponent : Int} {u : UnpackedFloat} (h : Below exponent u)
    (hlow : -1075 < exponent) (hhigh : exponent < 972) :
    IsWithin exponent ⟨Float.Model.pack u⟩ := by
  have hnat : ((exponent + 1075).toNat : Int) - 1075 = exponent := by omega
  rw [← hnat] at h ⊢
  exact below_unpacked (storedExponent_pack h (by omega)) (by omega) (by omega)

theorem below_mul {a b exponent : Int} {u v : UnpackedFloat} (hu : Below a u) (hv : Below b v)
    (hexponent : a + b + 53 < exponent) (hlow : -1074 < exponent) :
    Below exponent (u.mul .binary64 v) := by
  cases hu with
  | zero s => cases hv <;> exact .zero _
  | @finite s m e hm hlt hle =>
    cases hv with
    | zero s' => exact .zero _
    | @finite s' m' e' hm' hlt' hle' =>
      have hproduct : (m * m').log2 < 106 := by
        refine log2_lt_of_lt ?_ (by decide)
        calc m * m' < 2 ^ 53 * 2 ^ 53 := Nat.mul_lt_mul'' hlt hlt'
          _ = 2 ^ 106 := rfl
      exact below_roundWithAccuracy (by omega) (by omega) hlow

theorem log2_div_le (m d : Nat) : (m / d).log2 ≤ m.log2 := by
  rw [Nat.log2_eq_log_two, Nat.log2_eq_log_two]
  exact Nat.log_mono_right (Nat.div_le_self m d)

theorem log2_shiftLeft {m : Nat} (hm : m ≠ 0) (k : Nat) : (m <<< k).log2 = m.log2 + k := by
  rw [Nat.shiftLeft_eq, Nat.log2_eq_iff (by positivity)]
  constructor
  · rw [Nat.pow_add]
    exact Nat.mul_le_mul_right _ (Nat.log2_self_le hm)
  · rw [show m.log2 + k + 1 = m.log2 + 1 + k by omega, Nat.pow_add]
    exact Nat.mul_lt_mul_of_pos_right Nat.lt_log2_self (by positivity)

theorem below_div {a exponent : Int} {u : UnpackedFloat} {s' : Sign} {m' : Nat} {e' : Int}
    {hm' : 0 < m'} (hu : Below a u) (hexponent : a - e' < exponent) (hlow : -1074 < exponent) :
    Below exponent (u.div .binary64 (.finite s' m' e' hm')) := by
  cases hu with
  | zero s => exact .zero _
  | @finite s m e hm hlt hle =>
    have hsize : m.log2 < 53 := log2_lt_of_lt hlt (by decide)
    unfold UnpackedFloat.div divCore
    dsimp only
    generalize htarget : min (e - e') _ = target
    have hmin : target ≤ e - e' := htarget ▸ min_le_left _ _
    have hquotient := log2_div_le (m <<< (e - e' - target).toNat) m'
    rw [log2_shiftLeft hm.ne'] at hquotient
    exact below_roundWithAccuracy (by omega) (by omega) hlow

theorem below_round {s : Sign} {m : Nat} {e exponent : Int} (hm : m ≠ 0)
    (hsize : m.log2 + e - 52 < exponent) (hlow : -1074 < exponent) :
    Below exponent (.round .binary64 s m e) := by
  unfold UnpackedFloat.round decreaseExponent
  simp only [targetExponent_eq, totalExponent]
  refine below_roundWithAccuracy ?_ ?_ hlow
  · omega
  · rw [log2_shiftLeft hm]
    omega

theorem isWithin_toFloat {n : UInt64} (h : n.toNat < 2 ^ 53) : IsWithin 1 n.toFloat := by
  refine isWithin_pack (u := .ofUInt64 .binary64 n) ?_ (by decide) (by decide)
  unfold UnpackedFloat.ofUInt64 UnpackedFloat.ofNat UnpackedFloat.ofInt UnpackedFloat.normalize
  split
  · next hlt => exact absurd (Int.compare_eq_lt.mp hlt) (by omega)
  · exact .zero _
  · next hgt =>
    have hpos := Int.compare_eq_gt.mp hgt
    have hlog := log2_lt_of_lt h (by decide)
    exact below_round (by omega) (by rw [Int.toNat_natCast]; omega) (by decide)

theorem isWithin_mul {a b exponent : Int} {x y : Float} (hx : IsWithin a x) (hy : IsWithin b y)
    (hexponent : a + b + 53 < exponent) (hlow : -1074 < exponent) (hhigh : exponent < 972) :
    IsWithin exponent (x * y) :=
  isWithin_pack (below_mul hx hy hexponent hlow) (by omega) hhigh

theorem isWithin_div {a e exponent : Int} {x y : Float} {s : Sign} {m : Nat} {hm : 0 < m}
    (hx : IsWithin a x) (hy : unpacked y = .finite s m e hm) (hexponent : a - e < exponent)
    (hlow : -1074 < exponent) (hhigh : exponent < 972) : IsWithin exponent (x / y) := by
  refine isWithin_pack (u := (unpacked x).div .binary64 (unpacked y)) ?_ (by omega) hhigh
  rw [hy]
  exact below_div hx hexponent hlow

theorem isWithin_ofNat {n : Nat} (h : n < 2 ^ 64) : IsWithin 12 (Float.ofNat n) := by
  change IsWithin 12 (Float.ofScientific n false 0)
  unfold Float.ofScientific
  split
  · next hsmall =>
    have hn : n.toUInt64.toNat < 2 ^ 53 := by
      rw [UInt64.toNat_ofNat', Nat.mod_eq_of_lt (by omega)]
      exact hsmall.1
    have hone : IsWithin (-52) (Float.exactlyRepresentablePowersOfTen[0]) := by
      change Below (-52) (.finite .positive (2 ^ 52) (-52) (by decide))
      exact .finite _ _ (by decide) (le_refl _)
    exact isWithin_mul (isWithin_toFloat hn) hone (by decide) (by decide) (by decide)
  · next hlarge =>
    have hn : 2 ^ 53 ≤ n := by omega
    have hlog : n.log2 < 64 := log2_lt_of_lt h (by decide)
    have hscientific : UnpackedFloat.ofScientific .binary64 n 0 =
        .roundWithAccuracy .binary64 .positive (n <<< 53 * 1) (-53 + 0) .exact := by
      unfold UnpackedFloat.ofScientific
      rw [dif_neg (by omega), if_neg (by decide), if_neg (by simp), if_pos (by decide)]
      rfl
    have hsize : ((n <<< 53 * 1).log2 : Int) + (-53 + 0) - 52 < 12 := by
      rw [Nat.mul_one, log2_shiftLeft (by omega)]
      omega
    have hbelow : Below 12 (.ofScientific .binary64 n 0) := by
      rw [hscientific]
      exact below_roundWithAccuracy (by decide) hsize (by decide)
    exact isWithin_pack hbelow (by decide) (by decide)

theorem IsWithin.neg {exponent : Int} {x : Float} (h : IsWithin exponent x)
    (hlow : -1075 < exponent) (hhigh : exponent < 972) : IsWithin exponent (-x) :=
  isWithin_pack (Below.neg h) hlow hhigh

theorem isWithin_ofInt {n : Int} (h : n.natAbs < 2 ^ 64) : IsWithin 12 (Float.ofInt n) := by
  cases n with
  | ofNat n => exact isWithin_ofNat h
  | negSucc n => exact (isWithin_ofNat h).neg (by decide) (by decide)

end Spreadsheet.Number
