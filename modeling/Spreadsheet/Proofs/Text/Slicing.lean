import Mathlib
import Spreadsheet.Proofs.Text.Casing

/-! Texts cut at byte offsets. There is no cut inside a character. An ASCII character is one byte,
and no byte of any other character is an ASCII one, so a walk over the bytes that looks for ASCII
alone ends between two characters, where the walk over the characters ends. -/

namespace Spreadsheet.Text

open String (utf8Len)

/-- The offset lies between two characters, or at either end. -/
def isBoundary (text : String) (offset : Nat) : Bool :=
  decide ((String.Pos.Raw.mk offset).IsValid text)

/-- The characters between two offsets; none if an offset lies inside a character or past the end,
or they are the wrong way round. -/
def slice? (text : String) (first last : Nat) : Option String :=
  if h : (String.Pos.Raw.mk first).IsValid text ∧ (String.Pos.Raw.mk last).IsValid text ∧
      first ≤ last then
    some (text.extract ⟨⟨first⟩, h.1⟩ ⟨⟨last⟩, h.2.1⟩)
  else none

/-- The bytes that encode a text. -/
def bytes (text : String) : List UInt8 := text.toByteArray.data.toList

/-! ## Cutting -/

theorem isBoundary_append (before after : String) :
    isBoundary (before ++ after) before.utf8ByteSize = true :=
  decide_eq_true (String.Pos.Raw.isValid_iff_exists_append.mpr ⟨before, after, rfl, rfl⟩)

theorem exists_append_of_isBoundary {text : String} {offset : Nat}
    (h : isBoundary text offset = true) :
    ∃ before after, text = before ++ after ∧ offset = before.utf8ByteSize := by
  obtain ⟨before, after, htext, hoffset⟩ :=
    String.Pos.Raw.isValid_iff_exists_append.mp (of_decide_eq_true h)
  exact ⟨before, after, htext, congrArg String.Pos.Raw.byteIdx hoffset⟩

/-- Where a text is put together, it is taken apart again. -/
theorem slice?_append (before piece after : String) :
    slice? (before ++ piece ++ after) before.utf8ByteSize
      (before.utf8ByteSize + piece.utf8ByteSize) = some piece := by
  have hfirst := isBoundary_append before (piece ++ after)
  have hlast := isBoundary_append (before ++ piece) after
  rw [← String.append_assoc] at hfirst
  rw [String.utf8ByteSize_append] at hlast
  rw [slice?, dif_pos ⟨of_decide_eq_true hfirst, of_decide_eq_true hlast, Nat.le_add_right ..⟩,
    Option.some.injEq, ← String.toByteArray_inj, String.toByteArray_extract]
  have hbefore : before.toByteArray.extract before.toByteArray.size
      (before.toByteArray.size + piece.toByteArray.size) = ByteArray.empty := by
    simp [ByteArray.extract_eq_empty_iff]
  have hpiece : piece.toByteArray.extract 0 piece.toByteArray.size = piece.toByteArray :=
    ByteArray.extract_zero_size
  simp only [String.size_toByteArray] at hbefore hpiece
  simp [ByteArray.extract_append, hbefore, hpiece]

theorem slice?_rest (before rest : String) :
    slice? (before ++ rest) before.utf8ByteSize (before ++ rest).utf8ByteSize = some rest := by
  have hslice := slice?_append before rest ""
  rwa [String.append_empty, ← String.utf8ByteSize_append] at hslice

example : slice? "aéb" 1 3 = some "é" ∧ slice? "aéb" 1 2 = none := by decide +kernel

/-! ## Bytes -/

theorem bytes_append (s t : String) : bytes (s ++ t) = bytes s ++ bytes t := by
  simp [bytes, String.toByteArray_append, ByteArray.data_append]

theorem length_bytes (s : String) : (bytes s).length = s.utf8ByteSize := rfl

theorem bytes_ofList (cs : List Char) :
    bytes (String.ofList cs) = cs.flatMap String.utf8EncodeChar := by
  simp [bytes, List.utf8Encode]

/-- What holds of each ASCII character. -/
theorem of_ascii {P : Char → Prop} (h : ∀ i < 128, P (Char.ofNat i)) {c : Char}
    (hc : c.utf8Size = 1) : P c := by
  have hle : c.toNat ≤ 127 := UInt32.le_iff_toNat_le.mp (Char.utf8Size_eq_one_iff.mp hc)
  rw [← Char.ofNat_toNat c]
  exact h _ (by omega)

/-- Every byte of a character beyond ASCII is beyond ASCII. -/
theorem le_of_mem_utf8EncodeChar {c : Char} (h : c.utf8Size ≠ 1) {b : UInt8}
    (hb : b ∈ String.utf8EncodeChar c) : 128 ≤ b := by
  have marked (x mark : UInt8) (hmark : 128 ≤ mark) : 128 ≤ x ||| mark := by
    rw [UInt8.le_iff_toNat_le, UInt8.toNat_or]
    exact (UInt8.le_iff_toNat_le.mp hmark).trans Nat.right_le_or
  have hlarge : ¬ c.val ≤ 0x7f := fun hsmall => h (Char.utf8Size_eq_one_iff.mpr hsmall)
  rw [String.utf8EncodeChar_eq_utf8EncodeCharFast] at hb
  simp only [String.utf8EncodeCharFast, hlarge, if_false] at hb
  split at hb
  · simp only [List.mem_cons, List.not_mem_nil, or_false] at hb
    obtain rfl | rfl := hb <;> exact marked _ _ (by decide)
  · split at hb
    · simp only [List.mem_cons, List.not_mem_nil, or_false] at hb
      obtain rfl | rfl | rfl := hb <;> exact marked _ _ (by decide)
    · simp only [List.mem_cons, List.not_mem_nil, or_false] at hb
      obtain rfl | rfl | rfl | rfl := hb <;> exact marked _ _ (by decide)

/-- A test of bytes that accepts ASCII only, and the test of characters that goes with it. -/
structure IsAsciiTest (onBytes : UInt8 → Bool) (onChars : Char → Bool) : Prop where
  ascii : ∀ c, c.utf8Size = 1 → onBytes c.val.toUInt8 = onChars c
  bytes : ∀ b, 128 ≤ b → onBytes b = false
  chars : ∀ c, onChars c = true → c.utf8Size = 1

/-- A walk over bytes ends where the walk over characters does. -/
theorem length_takeWhile_bytes {onBytes : UInt8 → Bool} {onChars : Char → Bool}
    (h : IsAsciiTest onBytes onChars) (cs : List Char) :
    ((bytes (String.ofList cs)).takeWhile onBytes).length = utf8Len (cs.takeWhile onChars) := by
  rw [bytes_ofList]
  induction cs with
  | nil => rfl
  | cons c cs ih =>
    rw [List.flatMap_cons]
    by_cases hc : c.utf8Size = 1
    · rw [String.utf8EncodeChar_eq_singleton hc, List.singleton_append, List.takeWhile_cons,
        List.takeWhile_cons, h.ascii c hc]
      split
      · rw [List.length_cons, ih, String.utf8Len_cons, hc]
      · rfl
    · have hstop : onChars c = false := Bool.eq_false_iff.mpr fun hchar => hc (h.chars c hchar)
      obtain ⟨b, bs, hbytes⟩ := List.exists_cons_of_ne_nil (String.utf8EncodeChar_ne_nil (c := c))
      have hb : onBytes b = false :=
        h.bytes b (le_of_mem_utf8EncodeChar hc (hbytes ▸ List.mem_cons_self))
      rw [hbytes, List.cons_append, List.takeWhile_cons, hb, List.takeWhile_cons, hstop]
      rfl

/-! ## Case -/

theorem utf8Size_toUpper (c : Char) : c.toUpper.utf8Size = c.utf8Size :=
  toUpper_cases (P := fun c d => d.utf8Size = c.utf8Size) (fun _ _ => rfl) (by decide) c

theorem utf8Len_map_toUpper (cs : List Char) : utf8Len (cs.map Char.toUpper) = utf8Len cs := by
  induction cs with
  | nil => rfl
  | cons c cs ih =>
    rw [List.map_cons, String.utf8Len_cons, String.utf8Len_cons, ih, utf8Size_toUpper]

theorem utf8Len_eq_of_toUpper {cs : List Char} {start : String}
    (h : cs.map Char.toUpper = start.toList.map Char.toUpper) :
    utf8Len cs = start.utf8ByteSize := by
  rw [← utf8Len_map_toUpper, h, utf8Len_map_toUpper, String.utf8Len_toList]

theorem eq_of_prefix_of_utf8Len {xs ys : List Char} (h : xs <+: ys)
    (hsize : utf8Len xs = utf8Len ys) : xs = ys := by
  obtain ⟨zs, rfl⟩ := h
  have hnone : utf8Len zs = 0 := by rw [String.utf8Len_append] at hsize; omega
  rw [String.utf8Len_eq_zero.mp hnone, List.append_nil]

/-- The text starts with this one, in any case of its letters. It is cut only where it can be. -/
def startsWith? (text start : String) : Option Bool :=
  if start.utf8ByteSize ≤ text.utf8ByteSize && isBoundary text start.utf8ByteSize then
    (slice? text 0 start.utf8ByteSize).map (sameIgnoringCase · start)
  else some false

section Start

variable {before after text start : String}

/-- Where the text can be cut, the piece in front of the cut is the one to compare. -/
theorem take_toUpper_iff (hsize : before.utf8ByteSize = start.utf8ByteSize) :
    ((before ++ after).toList.take start.length).map Char.toUpper = start.toList.map Char.toUpper ↔
      sameIgnoringCase before start = true := by
  rw [sameIgnoringCase_iff, String.toList_append]
  constructor
  · intro hsame
    have hequal : utf8Len ((before.toList ++ after.toList).take start.length) =
        utf8Len before.toList := by
      rw [utf8Len_eq_of_toUpper hsame, ← hsize, String.utf8Len_toList]
    obtain hprefix | hprefix := List.prefix_or_prefix_of_prefix (List.take_prefix start.length _)
      (List.prefix_append before.toList after.toList)
    · rw [← eq_of_prefix_of_utf8Len hprefix hequal, hsame]
    · rw [eq_of_prefix_of_utf8Len hprefix hequal.symm, hsame]
  · intro hsame
    have hlength : start.length = before.toList.length := by
      rw [← String.length_toList]
      simpa using (congrArg List.length hsame).symm
    rw [hlength, List.take_left, hsame]

/-- The text can be cut behind characters that are the start in some case. -/
theorem exists_cut_of_take_toUpper
    (h : (text.toList.take start.length).map Char.toUpper = start.toList.map Char.toUpper) :
    ∃ before after, text = before ++ after ∧ before.utf8ByteSize = start.utf8ByteSize := by
  refine ⟨String.ofList (text.toList.take start.length),
    String.ofList (text.toList.drop start.length), ?_, ?_⟩
  · rw [← String.ofList_append, List.take_append_drop, String.ofList_toList]
  · rw [String.utf8ByteSize_ofList, utf8Len_eq_of_toUpper h]

/-- The first bytes are compared as the first characters are. -/
theorem startsWith?_eq (text start : String) :
    startsWith? text start = some
      ((text.toList.take start.length).map Char.toUpper == start.toList.map Char.toUpper) := by
  unfold startsWith?
  split
  · next hcut =>
    obtain ⟨before, after, rfl, hsize⟩ :=
      exists_append_of_isBoundary (Bool.and_eq_true_iff.mp hcut).2
    have hslice := slice?_append "" before after
    rw [String.empty_append, String.utf8ByteSize_empty, Nat.zero_add, ← hsize] at hslice
    rw [hslice, Option.map_some, Option.some.injEq, Bool.eq_iff_iff, beq_iff_eq]
    exact (take_toUpper_iff hsize.symm).symm
  · next hcut =>
    rw [eq_comm, Option.some.injEq, beq_eq_false_iff_ne]
    intro hsame
    obtain ⟨before, after, rfl, hsize⟩ := exists_cut_of_take_toUpper hsame
    have hboundary := isBoundary_append before after
    have hle : before.utf8ByteSize ≤ (before ++ after).utf8ByteSize := by
      rw [String.utf8ByteSize_append]
      exact Nat.le_add_right ..
    rw [hsize] at hboundary hle
    exact hcut (Bool.and_eq_true_iff.mpr ⟨decide_eq_true hle, hboundary⟩)

end Start

end Spreadsheet.Text
