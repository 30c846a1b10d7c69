import Mathlib
import Spreadsheet.Number.Numeral
import Spreadsheet.Number.Text

/-! How numbers are stored, and what follows for equality and text. A number is its sign, its
exponent and its fraction; two finite numbers are equal when they are stored alike or both are
zero, and negation changes the sign alone. -/

namespace Spreadsheet.Number

open Float.Model

/-- The stored form of a number. -/
def pattern (x : Float) : BitVec Format.binary64.numBits := x.toBits.toBitVec

/-- The number as the arithmetic sees it. -/
def unpacked (x : Float) : UnpackedFloat := UnpackedFloat.unpack .binary64 (pattern x)

def storedSign (x : Float) : UnpackedFloat.Sign := if isNegative x then .negative else .positive

/-! ## The fields -/

theorem unpackExponent_pattern (x : Float) :
    (UnpackedFloat.unpackExponent (pattern x)).toNat = storedExponent x := by
  simp [storedExponent, UnpackedFloat.unpackExponent, pattern, BitVec.extractLsb,
    Nat.shiftRight_eq_div_pow]

theorem unpackMantissa_pattern (x : Float) :
    (UnpackedFloat.unpackMantissa (pattern x)).toNat = storedFraction x := by
  simp [storedFraction, UnpackedFloat.unpackMantissa, pattern, BitVec.extractLsb]

theorem unpackSign_pattern (x : Float) :
    UnpackedFloat.Sign.ofBitVec (UnpackedFloat.unpackSign (pattern x)) = storedSign x := by
  have hlt := x.toBits.toNat_lt
  simp only [isNegative, storedSign, UnpackedFloat.unpackSign, UnpackedFloat.Sign.ofBitVec,
    BitVec.extractLsb, pattern, ← BitVec.toNat_inj, BitVec.toNat_cast, BitVec.extractLsb'_toNat,
    Nat.shiftRight_eq_div_pow, UInt64.toNat_toBitVec, Nat.reduceAdd, Nat.reducePow, Nat.sub_self,
    Nat.zero_add, Nat.pow_one, BitVec.toNat_ofNat, Nat.zero_mod, Nat.pow_eq, beq_iff_eq]
  split <;> split <;> first | rfl | omega

theorem storedFraction_lt (x : Float) : storedFraction x < 2 ^ 52 := Nat.mod_lt _ (by decide)

theorem units_eq_zero_iff (x : Float) :
    units x = 0 ↔ storedExponent x = 0 ∧ storedFraction x = 0 := by
  unfold units
  split <;> simp_all

/-! ## Unpacking -/

theorem unpacked_eq (x : Float) :
    unpacked x =
      if storedExponent x = 2047 then
        if storedFraction x = 0 then .infinity (storedSign x) else .notANumber
      else if storedExponent x = 0 then
        if h : storedFraction x = 0 then .zero (storedSign x)
        else .finite (storedSign x) (storedFraction x) (-1074) (by omega)
      else .finite (storedSign x) (2 ^ 52 + storedFraction x) (storedExponent x - 1075)
        (by omega) := by
  have hone : (1#1).toNat <<< 52 ||| storedFraction x = 2 ^ 52 + storedFraction x :=
    (Nat.shiftLeft_add_eq_or_of_lt (storedFraction_lt x) 1).symm
  unfold unpacked UnpackedFloat.unpack
  simp only [unpackSign_pattern, ← BitVec.toNat_inj, unpackExponent_pattern,
    unpackMantissa_pattern, BitVec.toNat_append, hone,
    show (-1#11).toNat = 2047 from rfl, show (0#11).toNat = 0 from rfl,
    show (0#52).toNat = 0 from rfl,
    show (Format.binary64.exponentBias : Int) + (52 : Nat) = 1075 from rfl]
  repeat' split
  all_goals simp_all

theorem isFinite_iff (x : Float) : x.isFinite = true ↔ storedExponent x ≠ 2047 := by
  change (unpacked x).isFinite = true ↔ _
  rw [unpacked_eq]
  repeat' split
  all_goals simp_all [UnpackedFloat.isFinite]

theorem isFinite_of_units_eq_zero {x : Float} (h : units x = 0) : x.isFinite = true := by
  rw [isFinite_iff, ((units_eq_zero_iff x).mp h).1]
  decide

theorem unpacked_eq_zero_iff (x : Float) : (∃ s, unpacked x = .zero s) ↔ units x = 0 := by
  rw [unpacked_eq, units_eq_zero_iff]
  repeat' split
  all_goals simp_all

theorem unpacked_inj {x y : Float} (h : unpacked y = unpacked x) : y = x := by
  have hbits : pattern y = pattern x :=
    (UnpackedFloat.unpack_inj_of_valid y.toModel.valid x.toModel.valid).mp h
  obtain ⟨⟨⟨a⟩, _⟩⟩ := x
  obtain ⟨⟨⟨b⟩, _⟩⟩ := y
  have hab : b = a := hbits
  subst hab
  rfl

/-! ## Equality -/

theorem beq_iff_unpacked (x y : Float) :
    (y == x) = true ↔
      (unpacked y = unpacked x ∧ unpacked x ≠ .notANumber) ∨ units y = 0 ∧ units x = 0 := by
  change (unpacked y).beq (unpacked x) = true ↔ _
  rw [UnpackedFloat.beq_iff_ne_notANumber_and_eq, ← unpacked_eq_zero_iff, ← unpacked_eq_zero_iff]
  constructor
  · rintro ⟨-, hx, h | ⟨hy, hx⟩ | ⟨hy, hx⟩⟩
    · exact .inl ⟨h, hx⟩
    · exact .inr ⟨⟨_, hy⟩, _, hx⟩
    · exact .inr ⟨⟨_, hy⟩, _, hx⟩
  · rintro (⟨h, hx⟩ | ⟨⟨s, hy⟩, t, hx⟩)
    · exact ⟨h ▸ hx, hx, .inl h⟩
    · rw [hy, hx]
      cases s <;> cases t <;> simp

/-- Equal numbers are the same, unless both are zeros. -/
theorem eq_or_zero_of_beq {x y : Float} (h : (y == x) = true) :
    y = x ∨ units y = 0 ∧ units x = 0 :=
  ((beq_iff_unpacked x y).mp h).imp_left fun ⟨he, _⟩ => unpacked_inj he

theorem beq_of_zero {x y : Float} (hy : units y = 0) (hx : units x = 0) : (y == x) = true :=
  (beq_iff_unpacked x y).mpr (.inr ⟨hy, hx⟩)

theorem beq_self {x : Float} (h : x.isFinite = true) : (x == x) = true := by
  refine (beq_iff_unpacked x x).mpr (.inl ⟨rfl, fun hn => ?_⟩)
  change (unpacked x).isFinite = true at h
  rw [hn] at h
  cases h

theorem isFinite_of_beq {x y : Float} (hx : x.isFinite = true) (h : (y == x) = true) :
    y.isFinite = true := by
  obtain rfl | ⟨hy, -⟩ := eq_or_zero_of_beq h
  · exact hx
  · exact isFinite_of_units_eq_zero hy

/-! ## Negation -/

theorem sign_packComponents {spec : Format} (s : UnpackedFloat.Sign)
    (e : BitVec spec.exponentBits) (m : BitVec spec.mantissaBitsWithoutImplicit) :
    UnpackedFloat.Sign.ofBitVec (UnpackedFloat.unpackSign
      (UnpackedFloat.packComponents spec s e m)) = s := by
  rw [UnpackedFloat.unpackSign_packComponents, UnpackedFloat.Sign.ofBitVec_toBitVec]

theorem unpack_neg {spec : Format} (s : UnpackedFloat.Sign) (e : BitVec spec.exponentBits)
    (m : BitVec spec.mantissaBitsWithoutImplicit) :
    UnpackedFloat.unpack spec (UnpackedFloat.packComponents spec (-s) e m) =
      (UnpackedFloat.unpack spec (UnpackedFloat.packComponents spec s e m)).neg := by
  unfold UnpackedFloat.unpack
  simp only [UnpackedFloat.unpackExponent_packComponents,
    UnpackedFloat.unpackMantissa_packComponents, sign_packComponents]
  split_ifs <;> rfl

/-- The negation of a number is stored with the other sign and nothing else changed. -/
theorem pattern_neg {x : Float} (h : x.isFinite = true) :
    pattern (-x) = UnpackedFloat.packComponents .binary64 (-storedSign x)
      (UnpackedFloat.unpackExponent (pattern x)) (UnpackedFloat.unpackMantissa (pattern x)) := by
  have hpattern := UnpackedFloat.packComponents_unpackSign_unpackExponent_unpackMantissa (pattern x)
  have hexponent : UnpackedFloat.unpackExponent (pattern x) ≠ -1#11 := fun he =>
    (isFinite_iff x).mp h (by rw [← unpackExponent_pattern, he]; rfl)
  have hneg : pattern (-x) = (unpacked x).neg.pack .binary64 := rfl
  rw [unpackSign_pattern] at hpattern
  rw [hneg, unpacked, ← hpattern, ← unpack_neg, UnpackedFloat.pack_unpack_of_valid, hpattern]
  refine ⟨fun he => absurd ?_ hexponent⟩
  rwa [UnpackedFloat.unpackExponent_packComponents] at he

section Negation

variable {x : Float} (h : x.isFinite = true)
include h

theorem storedExponent_neg : storedExponent (-x) = storedExponent x := by
  rw [← unpackExponent_pattern, pattern_neg h, UnpackedFloat.unpackExponent_packComponents,
    unpackExponent_pattern]

theorem storedFraction_neg : storedFraction (-x) = storedFraction x := by
  rw [← unpackMantissa_pattern, pattern_neg h, UnpackedFloat.unpackMantissa_packComponents,
    unpackMantissa_pattern]

theorem isNegative_neg : isNegative (-x) = !isNegative x := by
  have hs : storedSign (-x) = -storedSign x := by
    rw [← unpackSign_pattern, pattern_neg h, sign_packComponents]
  unfold storedSign at hs
  cases hx : isNegative x <;> cases hy : isNegative (-x) <;> rw [hx, hy] at hs <;> cases hs <;> rfl

theorem isFinite_neg : (-x).isFinite = true := by
  rw [isFinite_iff, storedExponent_neg h]
  exact (isFinite_iff x).mp h

theorem units_neg : units (-x) = units x := by
  rw [units, storedExponent_neg h, storedFraction_neg h, units]

theorem shortest_neg : shortest (-x) = shortest x := by
  simp only [shortest, Neighbourhood.ofNumber, spacingBelow, spacing, units_neg h,
    storedExponent_neg h, storedFraction_neg h]

end Negation

/-! ## Text -/

theorem text_of_units_eq_zero {x : Float} (h : units x = 0) : text x = "0" := by
  simp [text, isFinite_of_units_eq_zero h, h]

/-- Equal numbers have one text. -/
theorem text_of_beq {x y : Float} (h : (y == x) = true) : text y = text x := by
  obtain rfl | ⟨hy, hx⟩ := eq_or_zero_of_beq h
  · rfl
  · rw [text_of_units_eq_zero hy, text_of_units_eq_zero hx]

theorem isDigit_or_point_of_mem_withPoint {n places : Nat} {c : Char} (h : c ∈ withPoint n places) :
    c.isDigit = true ∨ c = '.' := by
  have hdigits {c : Char} (hc : c ∈ Nat.toDigits 10 n) : c.isDigit = true :=
    Nat.isDigit_of_mem_toDigits (by decide) (by decide) hc
  have hpadded {k : Nat} {c : Char} (hc : c ∈ List.replicate k '0' ++ Nat.toDigits 10 n) :
      c.isDigit = true := by
    obtain hc | hc := List.mem_append.mp hc
    · obtain rfl := List.eq_of_mem_replicate hc
      decide
    · exact hdigits hc
  unfold withPoint at h
  dsimp only at h
  split_ifs at h
  · exact .inl (hdigits h)
  · obtain h | h := List.mem_append.mp h
    · exact .inl (hpadded (List.mem_of_mem_take h))
    · obtain rfl | h := List.mem_cons.mp h
      · exact .inr rfl
      · exact .inl (hpadded (List.mem_of_mem_drop h))

/-- A finite number is written with digits, a point and a minus. -/
theorem mem_text {x : Float} (hx : x.isFinite = true) {c : Char} (h : c ∈ (text x).toList) :
    c.isDigit = true ∨ c = '.' ∨ c = '-' := by
  unfold text shortestText at h
  simp only [hx, Bool.not_true, Bool.false_eq_true, if_false] at h
  split_ifs at h
  · obtain rfl : c = '0' := by simpa using h
    exact .inl (by decide)
  · rw [String.toList_ofList] at h
    obtain h | h := List.mem_append.mp h
    · unfold signText at h
      split_ifs at h
      · exact .inr (.inr (List.mem_singleton.mp h))
      · cases h
    · exact (isDigit_or_point_of_mem_withPoint h).imp_right .inl

theorem text_ne_nil {x : Float} (h : (read? (text x)).any (· == x) = true) :
    (text x).toList ≠ [] := by
  obtain ⟨y, hy, -⟩ := (Option.any_eq_true _ _).mp h
  intro hnil
  rw [read?, hnil] at hy
  cases hy

/-- The text of a number is digits around at most one point, and reads back as an equal number. -/
structure ReadsBack (x : Float) : Prop where
  digits : (text x).toList.all (fun c => c.isDigit || c == '.') = true
  value : (read? (text x)).any (· == x) = true

instance (x : Float) : Decidable (ReadsBack x) :=
  decidable_of_iff (_ ∧ _) ⟨fun h => ⟨h.1, h.2⟩, fun h => ⟨h.digits, h.value⟩⟩

/-- A number that is written without a sign gets one when it is negated, unless it is zero. -/
theorem text_neg {x : Float} (hx : x.isFinite = true) (h : ReadsBack x) :
    units x = 0 ∨ (text (-x)).toList = '-' :: (text x).toList := by
  by_cases hzero : units x = 0
  · exact .inl hzero
  · refine .inr ?_
    have htext : text x = shortestText x := by simp [text, hx, hzero]
    have htext' : text (-x) = shortestText (-x) := by
      simp [text, isFinite_neg hx, units_neg hx, hzero]
    have hpositive : isNegative x = false := by
      have hdigits := h.digits
      rw [htext] at hdigits
      cases hs : isNegative x with
      | false => rfl
      | true => simp [shortestText, signText, hs] at hdigits
    rw [htext, htext', shortestText, shortestText, signText, signText, isNegative_neg hx,
      hpositive, units_neg hx, shortest_neg hx]
    simp [hzero]

end Spreadsheet.Number
