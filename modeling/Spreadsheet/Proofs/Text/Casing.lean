import Spreadsheet.Text.Case
import Spreadsheet.Text.Letter

/-! The case of ASCII letters. It decides nothing about what a character can be part of, so texts
that differ in it only are names of the same kind and have the same upper-case form, by either way
to make one. -/

namespace Spreadsheet.Text

/-- What holds between each small ASCII letter and its capital, and of each character with itself,
holds between every character and its ASCII upper case. -/
theorem toUpper_cases {P : Char → Char → Prop} (hself : ∀ c, c.toUpper = c → P c c)
    (hletters : ∀ i < 26, P (Char.ofNat (97 + i)) (Char.ofNat (65 + i))) (c : Char) :
    P c c.toUpper := by
  by_cases hsmall : 97 ≤ c.toNat ∧ c.toNat ≤ 122
  · have hupper : ∀ i < 26, (Char.ofNat (97 + i)).toUpper = Char.ofNat (65 + i) := by decide
    obtain ⟨i, hi⟩ : ∃ i, c.toNat = 97 + i := ⟨c.toNat - 97, by omega⟩
    have hc : c = Char.ofNat (97 + i) := by rw [← hi, Char.ofNat_toNat]
    rw [hc, hupper i (by omega)]
    exact hletters i (by omega)
  · have hsame : c.toUpper = c := by
      refine dif_neg fun h => hsmall ⟨?_, ?_⟩
      · exact UInt32.le_iff_toNat_le.mp h.1
      · exact UInt32.le_iff_toNat_le.mp h.2
    rw [hsame]
    exact hself c hsame

theorem toUpper_toUpper (c : Char) : c.toUpper.toUpper = c.toUpper :=
  toUpper_cases (P := fun _ d => d.toUpper = d) (fun _ h => h) (by decide) c

theorem isLetter_toUpper (c : Char) : isLetter c.toUpper = isLetter c :=
  toUpper_cases (P := fun c d => isLetter d = isLetter c) (fun _ _ => rfl) (by decide) c

theorem isNumeric_toUpper (c : Char) : isNumeric c.toUpper = isNumeric c :=
  toUpper_cases (P := fun c d => isNumeric d = isNumeric c) (fun _ _ => rfl) (by decide) c

theorem isLetterOrNumeric_toUpper (c : Char) :
    isLetterOrNumeric c.toUpper = isLetterOrNumeric c := by
  rw [isLetterOrNumeric, isLetter_toUpper, isNumeric_toUpper, ← isLetterOrNumeric]

theorem isDigit_toUpper (c : Char) : c.toUpper.isDigit = c.isDigit :=
  toUpper_cases (P := fun c d => d.isDigit = c.isDigit) (fun _ _ => rfl) (by decide) c

/-- A character that is no letter is no other's upper case. -/
theorem toUpper_eq_iff {d : Char} (h : d.isAlpha = false) (c : Char) : c.toUpper = d ↔ c = d := by
  refine toUpper_cases (P := fun c c' => c' = d ↔ c = d) (fun _ _ => Iff.rfl) (fun i hi => ?_) c
  have halpha : ∀ i < 26, (Char.ofNat (97 + i)).isAlpha = true ∧
      (Char.ofNat (65 + i)).isAlpha = true := by decide
  obtain ⟨hsmall, hcapital⟩ := halpha i hi
  refine iff_of_false ?_ ?_ <;> rintro rfl
  · rw [h] at hcapital
    cases hcapital
  · rw [h] at hsmall
    cases hsmall

theorem upperChar_toUpper (c : Char) : upperChar c.toUpper = upperChar c :=
  toUpper_cases (P := fun c d => upperChar d = upperChar c) (fun _ _ => rfl) (by decide) c

/-! ## Texts that differ in case -/

variable {s t u : String}

theorem sameIgnoringCase_iff :
    sameIgnoringCase s t = true ↔ s.toList.map Char.toUpper = t.toList.map Char.toUpper := beq_iff_eq

theorem sameIgnoringCase_congr (h : sameIgnoringCase s t = true) (u : String) :
    sameIgnoringCase s u = sameIgnoringCase t u := by
  rw [sameIgnoringCase, sameIgnoringCase, sameIgnoringCase_iff.mp h]

theorem upperAscii_eq_iff : upperAscii s = upperAscii t ↔ sameIgnoringCase s t = true := by
  rw [sameIgnoringCase_iff, upperAscii, upperAscii, String.ofList_inj]

theorem upperAscii_upperAscii (s : String) : upperAscii (upperAscii s) = upperAscii s := by
  have hmap : (Char.toUpper ∘ Char.toUpper) = Char.toUpper := funext toUpper_toUpper
  rw [upperAscii, upperAscii, String.toList_ofList, List.map_map, hmap]

theorem upper_eq_of_sameIgnoringCase (h : sameIgnoringCase s t = true) : upper s = upper t := by
  have hmap (u : String) : upper u = String.ofList ((u.toList.map Char.toUpper).flatMap upperChar) := by
    rw [upper, List.flatMap_map]
    simp only [upperChar_toUpper]
  rw [hmap s, hmap t, sameIgnoringCase_iff.mp h]

end Spreadsheet.Text
