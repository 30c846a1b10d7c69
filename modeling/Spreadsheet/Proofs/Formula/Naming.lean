import Spreadsheet.Proofs.Formula.Referring
import Spreadsheet.Proofs.Text.Casing
import Spreadsheet.Sheet.Editing

/-! What can be defined can be referred to. The check of a name and the reader of formulas look at
a text in different ways, but both take it for a name in the same cases, in any case of its ASCII
letters; and a name of a function, which may also be that of a cell, is called by a parenthesis. -/

namespace Spreadsheet

open Grammar

/-! ## Names as identifiers -/

namespace Registry

/-- A name of a function is an identifier without `$`. -/
theorem isName_iff {cs : List Char} : isName cs = true ↔ Token.IsIdentifier cs ∧ '$' ∉ cs := by
  have hdollar : (Text.isLetterOrNumeric '$' || '$' == '_') = false := by decide
  constructor
  · intro h
    cases cs with
    | nil => cases h
    | cons c rest =>
      simp only [isName, Bool.and_eq_true, List.all_eq_true] at h
      obtain ⟨hfirst, hall⟩ := h
      refine ⟨⟨c, rest, rfl, Token.opensIdentifier_of_starts ?_, fun d hd => ?_⟩, fun hmem => ?_⟩
      · rw [Token.startsIdentifier, hfirst, Bool.true_or]
      · rw [Token.isIdentifierChar, hall d (List.mem_cons_of_mem _ hd), Bool.true_or]
      · rw [hall '$' hmem] at hdollar
        cases hdollar
  · rintro ⟨⟨c, rest, rfl, hc, hrest⟩, hfree⟩
    obtain ⟨hfirst, hfree⟩ := not_or.mp (List.mem_cons.not.mp hfree)
    have hstarts := hc.starts
    simp only [Token.startsIdentifier, Bool.or_eq_true, beq_iff_eq, Ne.symm hfirst,
      or_false] at hstarts
    simp only [isName, Bool.and_eq_true, Bool.or_eq_true, beq_iff_eq, List.all_cons,
      Text.isLetterOrNumeric, List.all_eq_true]
    refine ⟨hstarts, by tauto, fun d hd => ?_⟩
    have hchar := hrest d hd
    have hd' : d ≠ '$' := fun h => hfree (h ▸ hd)
    simpa [Token.isIdentifierChar, Text.isLetterOrNumeric, hd'] using hchar

theorem isName_map_toUpper (cs : List Char) : isName (cs.map Char.toUpper) = isName cs := by
  have hunderscore (c : Char) : (c.toUpper == '_') = (c == '_') := by
    rw [Bool.eq_iff_iff, beq_iff_eq, beq_iff_eq, Text.toUpper_eq_iff (by decide)]
  cases cs with
  | nil => rfl
  | cons c cs =>
    simp [isName, List.all_map, Function.comp_def, Text.isLetter_toUpper,
      Text.isLetterOrNumeric_toUpper, hunderscore]

end Registry

theorem lettersValue_map_toUpper (letters : List Char) :
    lettersValue (letters.map Char.toUpper) = lettersValue letters := by
  simp only [lettersValue, List.foldl_map, Text.toUpper_toUpper]

namespace Place

theorem readMarker_map_toUpper (cs : List Char) :
    readMarker (cs.map Char.toUpper) = ((readMarker cs).1, (readMarker cs).2.map Char.toUpper) := by
  cases cs with
  | nil => rfl
  | cons c cs =>
    by_cases hc : c = '$'
    · subst hc
      rfl
    · have hupper : c.toUpper ≠ '$' := fun h => hc ((Text.toUpper_eq_iff (by decide) c).mp h)
      simp [readMarker, hc, hupper]

theorem readColumn?_map_toUpper (letters : List Char) :
    Spreadsheet.readColumn? (letters.map Char.toUpper) = Spreadsheet.readColumn? letters := by
  have hall : (letters.map Char.toUpper).all Char.isAlpha = letters.all Char.isAlpha := by
    simp only [List.all_map, Function.comp_def, Char.isAlpha_toUpper_eq_isAlpha]
  have hempty : (letters.map Char.toUpper).isEmpty = letters.isEmpty := List.isEmpty_map
  simp only [Spreadsheet.readColumn?, lettersValue_map_toUpper, hall, hempty]

theorem readLetters?_map_toUpper (cs : List Char) :
    readLetters? (cs.map Char.toUpper) = readLetters? cs := by
  simp only [readLetters?, readColumn?_map_toUpper, List.length_map]

theorem readRow?_map_toUpper (cs : List Char) :
    Spreadsheet.readRow? (cs.map Char.toUpper) = Spreadsheet.readRow? cs := by
  have hall : (cs.map Char.toUpper).all Char.isDigit = cs.all Char.isDigit := by
    simp [List.all_map, Function.comp_def, Text.isDigit_toUpper]
  cases hdigits : cs.all Char.isDigit with
  | true =>
    have hsame : cs.map Char.toUpper = cs := by
      conv => rhs; rw [← List.map_id cs]
      refine List.map_congr_left fun c hc => ?_
      have hc' := not_isAlpha_of_isDigit (List.all_eq_true.mp hdigits c hc)
      exact (Text.toUpper_eq_iff hc' c).mpr rfl
    rw [hsame]
  | false => simp [Spreadsheet.readRow?, hall, hdigits]

theorem readCell?_map_toUpper (cs : List Char) : readCell? (cs.map Char.toUpper) = readCell? cs := by
  have halpha : Char.isAlpha ∘ Char.toUpper = Char.isAlpha :=
    funext Char.isAlpha_toUpper_eq_isAlpha
  simp only [readCell?, readMarker_map_toUpper, List.takeWhile_map, List.dropWhile_map, halpha,
    readLetters?_map_toUpper, readRow?_map_toUpper]

end Place

/-! ## Names in formulas -/

namespace Reader

/-- What a phrase must be to be a name. -/
structure Names (ts : List Token) (n : String) : Prop where
  single : ∃ t : Token, ts = [t] ∧ t.kind = .identifier ∧ t.text = n
  notLogical : logicalWord? n = none
  notCell : Place.readCell? n.toList = none
  free : '$' ∉ n.toList

theorem names_of_derives {p : Phrase} {ts : List Token} {n : String}
    (h : Derives p ts (.name n)) : Names ts n := by
  generalize he : Expr.name n = e at h
  induction h with
  | operand _ ih | alone _ ih | unsigned _ ih | given _ ih => exact ih he
  | name kind notLogical notCell free =>
    cases he
    exact ⟨⟨_, rfl, kind, rfl⟩, notLogical, notCell, free⟩
  | _ => cases he

end Reader

namespace Sheet

/-- An identifier has no colon, so it can only be the reference to a cell. -/
theorem reference_read?_of_isIdentifier {n : String} (h : Token.IsIdentifier n.toList) :
    Reference.read? n = (Place.readCell? n.toList).map .ofPlace := by
  have hdrop : n.toList.dropWhile (· != ':') = [] := List.dropWhile_eq_nil_iff.mpr fun c hc =>
    Token.ne_colon_of_isIdentifierChar (h.chars c hc)
  rw [Reference.read?, h.trim, hdrop]

theorem isName_iff {n : String} : isName n = true ↔ Registry.isName n.toList = true ∧
    Place.readCell? n.toList = none ∧ Reader.logicalWord? n = none := by
  simp only [isName, Bool.and_eq_true, Option.isNone_iff_eq_none, and_assoc]
  refine and_congr_right fun hname => and_congr_left fun _ => ?_
  rw [reference_read?_of_isIdentifier (Registry.isName_iff.mp hname).1, Option.map_eq_none_iff]

/-- What is a name is one in any case of its ASCII letters. -/
theorem isName_congr {m n : String} (h : Text.sameIgnoringCase m n = true) :
    isName m = isName n := by
  have hupper := Text.sameIgnoringCase_iff.mp h
  have hname : Registry.isName m.toList = Registry.isName n.toList := by
    rw [← Registry.isName_map_toUpper, hupper, Registry.isName_map_toUpper]
  have hcell : Place.readCell? m.toList = Place.readCell? n.toList := by
    rw [← Place.readCell?_map_toUpper, hupper, Place.readCell?_map_toUpper]
  have hlogical : Reader.logicalWord? m = Reader.logicalWord? n := by
    rw [Reader.logicalWord?, Reader.logicalWord?, Text.sameIgnoringCase_congr h,
      Text.sameIgnoringCase_congr h]
  rw [Bool.eq_iff_iff, isName_iff, isName_iff, hname, hcell, hlogical]

/-- A text can be defined exactly when it reads as the name that it is. -/
theorem isName_iff_reads (n : String) : isName n = true ↔
    (Parsed.ofText n).isValid = true ∧ (Parsed.ofText n).expr = .name n := by
  rw [isName_iff]
  constructor
  · rintro ⟨hname, hcell, hlogical⟩
    obtain ⟨hid, hfree⟩ := Registry.isName_iff.mp hname
    have hword : Token.IsIdentifier (Text.trim n).toList := by rwa [hid.trim]
    obtain ⟨start, hwords⟩ := Token.words_identifier hword
    obtain ⟨last, hlex, hlast⟩ := Token.lex_eq n
    rw [hwords, hid.trim] at hlex
    have hd : Derives .primary [⟨.identifier, n, start⟩] (.name n) :=
      .name rfl hlogical hcell hfree
    exact Parsed.ofText_of_derives hlex hlast (Reader.derives_joined hd _)
  · rintro ⟨hvalid, hexpr⟩
    obtain ⟨ts, last, -, hwords, hd⟩ := Parsed.derives_of_isValid hvalid
    rw [hexpr] at hd
    obtain ⟨⟨t, rfl, hkind, rfl⟩, hlogical, hcell, hfree⟩ := Reader.names_of_derives hd
    have hid := (hwords t List.mem_cons_self).identifier hkind
    exact ⟨Registry.isName_iff.mpr ⟨hid, hfree⟩, hcell, hlogical⟩

end Sheet

/-- A name of a function before two parentheses reads as its call without arguments. -/
theorem Registry.reads_call {n : String} (h : isName n.toList = true) :
    (Parsed.ofText (n ++ "()")).isValid = true ∧ (Parsed.ofText (n ++ "()")).expr = .call n [] := by
  obtain ⟨hid, -⟩ := isName_iff.mp h
  obtain ⟨o, ho⟩ := Token.lexFrom_identifier hid (.cons (c := '(') (by decide) [')']) 0
  obtain ⟨o', ho'⟩ := Token.lexFrom_punctuation (c := '(') (by decide) [')'] o
  obtain ⟨o'', ho''⟩ := Token.lexFrom_punctuation (c := ')') (by decide) [] o'
  have hlex : Token.lex (n ++ "()") = [⟨.identifier, n, 0⟩, ⟨.punctuation, "(", o⟩,
      ⟨.punctuation, ")", o'⟩] ++ [⟨.finish, "", o''⟩] := by
    rw [ho', ho'', String.ofList_toList] at ho
    rw [Token.lex, String.toList_append]
    exact ho
  have hd : Derives .primary [⟨.identifier, n, 0⟩, ⟨.punctuation, "(", o⟩,
      ⟨.punctuation, ")", o'⟩] (.call n []) := .bareCall rfl rfl rfl
  exact Parsed.ofText_of_derives hlex rfl (Reader.derives_joined hd _)

end Spreadsheet
