import Spreadsheet.Proofs.Number.Stored

/-! Numerals without a sign are not negative. -/

namespace Spreadsheet.Number

open Float.Model

/-- The number, if it is one, has no minus. -/
def Unsigned : UnpackedFloat → Prop
  | .notANumber => True
  | .infinity s | .zero s | .finite s _ _ _ => s = .positive

theorem unsigned_roundWithAccuracy (spec : Format) (m : Nat) (e : Int)
    (accuracy : UnpackedFloat.Accuracy) :
    Unsigned (.roundWithAccuracy spec .positive m e accuracy) := by
  unfold UnpackedFloat.roundWithAccuracy
  dsimp only
  split <;> rfl

theorem unsigned_mul (spec : Format) {a b : UnpackedFloat} (ha : Unsigned a) (hb : Unsigned b) :
    Unsigned (a.mul spec b) := by
  cases a <;> cases b <;> simp only [Unsigned] at ha hb <;>
    first
    | trivial
    | (subst ha hb; first | rfl | exact unsigned_roundWithAccuracy _ _ _ _)

theorem unsigned_div (spec : Format) {a b : UnpackedFloat} (ha : Unsigned a) (hb : Unsigned b) :
    Unsigned (a.div spec b) := by
  cases a <;> cases b <;> simp only [Unsigned] at ha hb <;>
    first
    | trivial
    | (subst ha hb; first | rfl | trivial | exact unsigned_roundWithAccuracy _ _ _ _)

theorem isNegative_iff_pattern (x : Float) : isNegative x = false ↔
    UnpackedFloat.Sign.ofBitVec (UnpackedFloat.unpackSign (pattern x)) = .positive := by
  rw [unpackSign_pattern, storedSign]
  cases isNegative x <;> simp

theorem isNegative_pack {u : UnpackedFloat} (h : Unsigned u) :
    isNegative ⟨Float.Model.pack u⟩ = false := by
  rw [isNegative_iff_pattern]
  change UnpackedFloat.Sign.ofBitVec (UnpackedFloat.unpackSign (u.pack .binary64)) = _
  cases u with
  | notANumber => exact sign_packComponents _ _ _
  | infinity s =>
    obtain rfl : s = .positive := h
    exact sign_packComponents _ _ _
  | zero s =>
    obtain rfl : s = .positive := h
    exact sign_packComponents _ _ _
  | finite s m e hm =>
    obtain rfl : s = .positive := h
    unfold UnpackedFloat.pack
    dsimp only
    repeat' split
    all_goals exact sign_packComponents _ _ _

theorem unsigned_unpacked {x : Float} (h : isNegative x = false) : Unsigned (unpacked x) := by
  have hs : storedSign x = .positive := by rw [storedSign, h]; rfl
  rw [unpacked_eq, hs]
  repeat' split
  all_goals first | rfl | trivial

theorem isNegative_mul {x y : Float} (hx : isNegative x = false) (hy : isNegative y = false) :
    isNegative (x * y) = false :=
  isNegative_pack (unsigned_mul _ (unsigned_unpacked hx) (unsigned_unpacked hy))

theorem isNegative_div {x y : Float} (hx : isNegative x = false) (hy : isNegative y = false) :
    isNegative (x / y) = false :=
  isNegative_pack (unsigned_div _ (unsigned_unpacked hx) (unsigned_unpacked hy))

theorem isNegative_toFloat (n : UInt64) : isNegative n.toFloat = false := by
  refine isNegative_pack ?_
  unfold UnpackedFloat.ofUInt64 UnpackedFloat.ofNat UnpackedFloat.ofInt UnpackedFloat.normalize
  split
  · next h => exact absurd (Int.compare_eq_lt.mp h) (by omega)
  · rfl
  · exact unsigned_roundWithAccuracy _ _ _ _

theorem isNegative_powerOfTen (e : Fin 23) :
    isNegative (Float.exactlyRepresentablePowersOfTen[e]) = false := by
  revert e
  decide

theorem unsigned_ofScientific (spec : Format) (m : Nat) (e : Int) :
    Unsigned (.ofScientific spec m e) := by
  unfold UnpackedFloat.ofScientific
  repeat' split
  · rfl
  · rfl
  · rfl
  · exact unsigned_mul spec rfl rfl
  · exact unsigned_div spec rfl rfl

theorem isNegative_ofScientific (m : Nat) (s : Bool) (e : Nat) :
    isNegative (Float.ofScientific m s e) = false := by
  unfold Float.ofScientific
  split
  · next h =>
    have hpower := isNegative_powerOfTen ⟨e, by omega⟩
    dsimp only
    split
    · exact isNegative_div (isNegative_toFloat _) hpower
    · exact isNegative_mul (isNegative_toFloat _) hpower
  · exact isNegative_pack (unsigned_ofScientific _ _ _)

theorem Numeral.isNegative_toFloat {n : Numeral} (h : n.negative = false) :
    isNegative n.toFloat = false := by
  simp only [toFloat, h, Bool.false_eq_true, if_false]
  repeat' split
  · decide
  · decide
  · exact isNegative_ofScientific _ _ _

theorem zero_le {x : Float} (finite : x.isFinite = true) (h : isNegative x = false) : 0 ≤ x := by
  have hs : storedSign x = .positive := by rw [storedSign, h]; rfl
  have hzero : unpacked 0 = .zero .positive := rfl
  refine decide_eq_true ?_
  change UnpackedFloat.le (unpacked 0) (unpacked x) = true
  rw [unpacked_eq x, if_neg ((isFinite_iff x).mp finite), hs, hzero]
  repeat' split
  all_goals rfl

theorem isNegative_of_read? {s : String} {x : Float} (unsigned : (readSign s.toList).1 = false)
    (h : read? s = some x) : isNegative x = false := by
  obtain ⟨n, hn, rfl⟩ := Option.map_eq_some_iff.mp h
  refine Numeral.isNegative_toFloat ?_
  simp only [Numeral.read?] at hn
  repeat' split at hn
  all_goals
    first
    | cases hn
    | obtain ⟨power, -, rfl⟩ := Option.map_eq_some_iff.mp hn
      exact unsigned

theorem zero_le_of_read? {s : String} {x : Float} (unsigned : (readSign s.toList).1 = false)
    (h : read? s = some x) (finite : x.isFinite = true) : 0 ≤ x :=
  zero_le finite (isNegative_of_read? unsigned h)

/-! ## One zero -/

/-- The number that the text of `x` is read as: `x` itself, with one zero for both. -/
def reread (x : Float) : Float := if units x = 0 then 0 else x

theorem eq_zero {x : Float} (h : units x = 0) (unsigned : isNegative x = false) : x = 0 := by
  obtain ⟨s, hs⟩ := (unpacked_eq_zero_iff x).mpr h
  have hu : Unsigned (unpacked x) := unsigned_unpacked unsigned
  rw [hs] at hu
  obtain rfl : s = .positive := hu
  exact unpacked_inj hs

/-- Of two equal numbers, one without a sign is what the other is read as. -/
theorem eq_reread {x y : Float} (h : (y == x) = true) (unsigned : isNegative y = false) :
    y = reread x := by
  unfold reread
  split
  · next hx =>
    obtain rfl | ⟨hy, -⟩ := eq_or_zero_of_beq h
    · exact eq_zero hx unsigned
    · exact eq_zero hy unsigned
  · next hx => exact (eq_or_zero_of_beq h).resolve_right fun hzero => hx hzero.2

theorem reread_beq {x : Float} (h : x.isFinite = true) : (reread x == x) = true := by
  unfold reread
  split
  · next hx => exact beq_of_zero rfl hx
  · exact beq_self h

end Spreadsheet.Number
