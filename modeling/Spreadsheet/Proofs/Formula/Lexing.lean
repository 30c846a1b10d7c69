import Spreadsheet.Proofs.Formula.Ending
import Spreadsheet.Proofs.Formula.Recognition
import Spreadsheet.Proofs.Text.Trimming

/-! What a text looks like around its tokens. Blanks in front of a token and behind the last one
leave no trace, and without blanks the characters of the tokens are those of the text. So a text
of one word is that word, and a word is what the text is once it is trimmed. -/

namespace Spreadsheet.Token

variable {cs before : List Char}

/-! ## Blanks between tokens -/

theorem lexFrom_blanks (h : ∀ c ∈ before, Text.isBlank c = true) (rest : List Char)
    (offset : Nat) : lexFrom offset 0 (before ++ rest) =
      lexFrom (offset + (String.ofList before).utf8ByteSize) 0 rest := by
  induction before generalizing offset with
  | nil => rfl
  | cons c cs ih =>
    obtain ⟨hc, hcs⟩ := List.forall_mem_cons.mp h
    rw [utf8ByteSize_cons, ← Nat.add_assoc, ← ih hcs]
    simp only [List.cons_append, lexFrom, hc, if_true]

/-- The words of a text are those of what is left when it is trimmed. -/
theorem words_of_trim {P : List Token → Prop} {text : String}
    (h : ∀ offset after, (∀ c ∈ after, Text.isBlank c = true) →
      ∃ ts o, lexFrom offset 0 ((Text.trim text).toList ++ after) = ts ++ lexFrom o 0 after ∧ P ts) :
    P (words text) := by
  obtain ⟨before, after, hbefore, hafter, -, htext⟩ := Text.exists_trim text
  obtain ⟨ts, o, hts, hp⟩ := h (0 + (String.ofList before).utf8ByteSize) after hafter
  have hafter' := lexFrom_blanks hafter [] o
  obtain ⟨last, hlex⟩ : ∃ last, lex text = ts ++ [⟨.finish, "", last⟩] := by
    rw [List.append_nil] at hafter'
    exact ⟨_, by rw [lex, htext, List.append_assoc, lexFrom_blanks hbefore, hts, hafter']; rfl⟩
  rwa [words, hlex, List.dropLast_concat]

theorem not_isIdentifierChar_of_isBlank {c : Char} (h : Text.isBlank c = true) :
    isIdentifierChar c = false := by
  cases hc : isIdentifierChar c with
  | false => rfl
  | true => rw [isBlank_of_isIdentifierChar hc] at h; cases h

theorem not_isNumberChar_of_isBlank {c : Char} (h : Text.isBlank c = true) :
    isNumberChar c = false := by
  cases hc : isNumberChar c with
  | false => rfl
  | true => rw [isBlank_of_isNumberChar hc] at h; cases h

/-! ## The characters of the tokens -/

/-- The characters that are no blanks. -/
def solid (cs : List Char) : List Char := cs.filter fun c => !Text.isBlank c

theorem solid_append (xs ys : List Char) : solid (xs ++ ys) = solid xs ++ solid ys :=
  List.filter_append ..

theorem solid_eq_self (h : ∀ c ∈ cs, Text.isBlank c = false) : solid cs = cs :=
  List.filter_eq_self.mpr fun c hc => by simp [h c hc]

theorem solid_eq_nil (h : ∀ c ∈ cs, Text.isBlank c = true) : solid cs = [] :=
  List.filter_eq_nil_iff.mpr fun c hc => by simp [h c hc]

/-- The characters of some tokens, one token after the other. -/
def spelling (ts : List Token) : List Char := ts.flatMap fun t => t.text.toList

theorem lexFrom_spelling (cs : List Char) (offset taken : Nat) :
    ∃ ts o, lexFrom offset taken cs = ts ++ [⟨.finish, "", o⟩] ∧
      solid (spelling ts) = solid (cs.drop taken) := by
  induction cs generalizing offset taken with
  | nil => exact ⟨[], offset, rfl, by simp [spelling]⟩
  | cons c cs ih =>
    cases taken with
    | succ n => exact ih _ n
    | zero =>
      cases hb : Text.isBlank c with
      | true =>
        obtain ⟨ts, o, hts, hspell⟩ := ih (offset + c.utf8Size) 0
        refine ⟨ts, o, by simp only [lexFrom, hb, if_true, hts], ?_⟩
        rw [hspell, List.drop_zero, List.drop_zero, solid, solid, List.filter_cons_of_neg (by simp [hb])]
      | false =>
        obtain ⟨ts, o, hts, hspell⟩ := ih (offset + c.utf8Size) (scan c cs).2
        refine ⟨_ :: ts, o, by simp only [lexFrom, hb, Bool.false_eq_true, if_false, hts]; rfl, ?_⟩
        have hsplit : spelling (⟨(scan c cs).1, String.ofList (c :: cs.take (scan c cs).2), offset⟩ :: ts)
            = c :: cs.take (scan c cs).2 ++ spelling ts := by simp [spelling]
        rw [hsplit, solid_append, hspell, ← solid_append, List.cons_append, List.take_append_drop,
          List.drop_zero]

/-- Apart from blanks a text is what its words are. -/
theorem solid_spelling_words (text : String) :
    solid (spelling (words text)) = solid text.toList := by
  obtain ⟨ts, o, hts, hspell⟩ := lexFrom_spelling text.toList 0 0
  rw [words, lex, hts, List.dropLast_concat, hspell, List.drop_zero]

/-- A trimmed text without blanks is what its words are, when these have no blanks either. -/
theorem spelling_words {text : String} (h : ∀ c ∈ (Text.trim text).toList, Text.isBlank c = false)
    (hwords : ∀ t ∈ words text, ∀ c ∈ t.text.toList, Text.isBlank c = false) :
    spelling (words text) = (Text.trim text).toList := by
  obtain ⟨before, after, hbefore, hafter, -, htext⟩ := Text.exists_trim text
  have hspell := solid_spelling_words text
  rw [htext, solid_append, solid_append, solid_eq_nil hbefore, solid_eq_nil hafter,
    solid_eq_self h, List.nil_append, List.append_nil] at hspell
  rw [← hspell, solid_eq_self]
  intro c hc
  obtain ⟨t, ht, hct⟩ := List.mem_flatMap.mp hc
  exact hwords t ht c hct

/-! ## Identifiers -/

theorem not_startsIdentifier_of_isDigit {c : Char} (h : c.isDigit = true) :
    startsIdentifier c = false := by
  have hlt : c.toNat < 128 := by
    have hnine : c.val ≤ '9'.val := (of_decide_eq_true (Bool.and_eq_true_iff.mp h).2)
    exact Nat.lt_of_le_of_lt (UInt32.le_iff_toNat_le.mp hnine) (by decide)
  have hletter : Text.isLetter c = false := by
    rw [Text.isLetter, if_pos hlt, Place.not_isAlpha_of_isDigit h]
  have hunderscore : c ≠ '_' := by rintro rfl; revert h; decide
  have hdollar : c ≠ '$' := by rintro rfl; revert h; decide
  simp [startsIdentifier, hletter, hunderscore, hdollar]

theorem isIdentifierChar_of_starts {c : Char} (h : startsIdentifier c = true) :
    isIdentifierChar c = true := by
  simp only [startsIdentifier, isIdentifierChar, Text.isLetterOrNumeric, Bool.or_eq_true] at h ⊢
  tauto

theorem opensIdentifier_of_starts {c : Char} (h : startsIdentifier c = true) :
    OpensIdentifier c := by
  refine ⟨isBlank_of_isIdentifierChar (isIdentifierChar_of_starts h), ?_, ?_, ?_, h⟩
  · by_contra hnumber
    simp only [isNumberChar, Bool.not_eq_false, Bool.or_eq_true, beq_iff_eq] at hnumber
    obtain hdigit | rfl := hnumber
    · rw [not_startsIdentifier_of_isDigit hdigit] at h
      cases h
    · revert h
      decide
  · rintro rfl
    revert h
    decide
  · rintro rfl
    revert h
    decide

theorem IsIdentifier.chars (h : IsIdentifier cs) : ∀ c ∈ cs, isIdentifierChar c = true := by
  obtain ⟨c, rest, rfl, hc, hrest⟩ := h
  exact List.forall_mem_cons.mpr ⟨isIdentifierChar_of_starts hc.starts, hrest⟩

/-- An identifier is trimmed. -/
theorem IsIdentifier.trim {n : String} (h : IsIdentifier n.toList) : Text.trim n = n :=
  Text.trim_of_notBlank fun c hc => isBlank_of_isIdentifierChar (h.chars c hc)

/-- A text that is an identifier once it is trimmed has no other word. -/
theorem words_identifier {text : String} (h : IsIdentifier (Text.trim text).toList) :
    ∃ start, words text = [⟨.identifier, Text.trim text, start⟩] := by
  refine words_of_trim (P := fun ts => ∃ start, ts = [⟨.identifier, Text.trim text, start⟩])
    fun offset after hafter => ?_
  have hstop : ∀ c ∈ after.head?, isIdentifierChar c = false := fun c hc =>
    not_isIdentifierChar_of_isBlank (hafter c (List.mem_of_mem_head? hc))
  obtain ⟨o, ho⟩ := lexFrom_identifier_stop h hstop offset
  rw [String.ofList_toList] at ho
  exact ⟨_, o, ho, offset, rfl⟩

end Spreadsheet.Token
