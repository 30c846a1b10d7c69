import Spreadsheet.Proofs.Formula.Revising

/-! What a printed formula ends with. Its last character is never a blank, so the text of a formula
is not changed when the blanks around it are taken away. -/

namespace Spreadsheet

open Grammar

/-- The last of the characters is no blank. -/
def Stops (cs : List Char) : Prop := ∃ ds c, cs = ds ++ [c] ∧ Text.isBlank c = false

theorem Stops.prepend {cs : List Char} (h : Stops cs) (ds : List Char) : Stops (ds ++ cs) := by
  obtain ⟨es, c, rfl, hc⟩ := h
  exact ⟨ds ++ es, c, (List.append_assoc _ _ _).symm, hc⟩

theorem stops_of_chars {cs : List Char} (hne : cs ≠ []) (h : ∀ c ∈ cs, Text.isBlank c = false) :
    Stops cs :=
  ⟨_, _, (List.dropLast_append_getLast hne).symm, h _ (List.getLast_mem hne)⟩

/-! ## Words -/

theorem isBlank_of_isIdentifierChar {c : Char} (h : Token.isIdentifierChar c = true) :
    Text.isBlank c = false := by
  have hblanks : ∀ n ∈ [9, 10, 11, 12, 13, 0x20, 0x85, 0xA0, 0x1680, 0x2000, 0x2001, 0x2002, 0x2003,
      0x2004, 0x2005, 0x2006, 0x2007, 0x2008, 0x2009, 0x200A, 0x2028, 0x2029, 0x202F, 0x205F,
      0x3000], Token.isIdentifierChar (Char.ofNat n) = false := by decide +kernel
  by_contra hblank
  have hmem := hblanks c.toNat (by
    simp only [Text.isBlank, Bool.not_eq_false, Bool.or_eq_true, Bool.and_eq_true,
      decide_eq_true_eq, beq_iff_eq] at hblank
    simp only [List.mem_cons, List.not_mem_nil, or_false]
    omega)
  rw [Char.ofNat_toNat, h] at hmem
  cases hmem

theorem stops_of_isIdentifier {cs : List Char} (h : Token.IsIdentifier cs) : Stops cs := by
  obtain ⟨c, rest, rfl, hc, hrest⟩ := h
  refine stops_of_chars (List.cons_ne_nil _ _) (List.forall_mem_cons.mpr ⟨hc.notBlank, ?_⟩)
  exact fun d hd => isBlank_of_isIdentifierChar (hrest d hd)

theorem Place.stops_name (p : Place) : Stops p.name := by
  have hrow (m : Mark) : Stops (rowText m) := by
    refine (stops_of_chars (rowDigits_ne_nil _) fun c hc => ?_).prepend _
    exact Text.isBlank_of_isDigit (isDigit_of_mem_rowDigits hc)
  cases p with
  | cell r c _ => exact (hrow r).prepend _
  | column c _ =>
    refine (stops_of_chars (columnLetters_ne_nil _) fun d hd => ?_).prepend _
    exact (opensIdentifier_of_capital (isCapital_of_mem_columnLetters hd)).notBlank
  | row r _ => exact hrow r

/-! ## Phrases -/

variable {p : Phrase} {ts : List Token} {e : Expr}

theorem stops_of_writes {t : Token} {l : Literal} (h : t.Writes l) (hr : t.Reprints) :
    Stops l.print := by
  cases h with
  | @number x kind value finite =>
    have hback := hr.number x (.number kind value finite)
    exact stops_of_chars (Number.text_ne_nil hback.value) fun c hc =>
      Token.isBlank_of_isNumberChar (List.all_eq_true.mp hback.digits c hc)
  | text _ =>
    exact ⟨'"' :: Text.doubleQuotes (Text.unquote t.text).toList, '"', String.toList_ofList,
      by decide⟩
  | @error e _ _ =>
    have hchars : e.text.toList.all (fun c => !Text.isBlank c) = true := by cases e <;> decide
    exact stops_of_chars (by cases e <;> decide)
      fun c hc => by simpa using List.all_eq_true.mp hchars c hc
  | @logical b _ _ => exact stops_of_isIdentifier (Token.isIdentifier_logicalText b)

theorem stops_single {t : Target} (h : t.Spelled) : Stops (Reference.single t).text.toList := by
  cases h with
  | @cell p grid _ =>
    have htext := Reference.text_ofPlace grid.valid
    rw [Reference.ofPlace] at htext
    rw [htext]
    exact p.stops_name
  | @range p q first last _ _ =>
    rw [Reference.text_range first.valid last.valid]
    exact (q.stops_name.prepend [':']).prepend p.name

theorem stops_of_derives (h : Derives p ts e)
    (hp : p ≠ .argument ∧ (∀ f, p ≠ .arguments f) ∧ p ≠ .parts) (hr : ∀ t ∈ ts, t.Reprints) :
    Stops e.print := by
  have hspelled := h.spelled
  induction h with
  | operand _ ih | alone _ ih | unsigned _ ih => exact ih (by simp) hr hspelled
  | binary _ _ _ _ _ ih =>
    have hright := ih (by simp) (fun t ht => hr t (by simp [ht])) hspelled.2
    exact hright.prepend _
  | @sign s _ _ _ _ _ ih =>
    exact (ih (by simp) (fun t ht => hr t (List.mem_cons_of_mem _ ht)) hspelled).prepend [s.symbol]
  | literal h => exact stops_of_writes h (hr _ List.mem_cons_self)
  | cell _ _ | range _ _ _ => exact stops_single (Reference.spelled_single.mp hspelled)
  | name kind _ _ _ => exact stops_of_isIdentifier ((hr _ List.mem_cons_self).identifier kind)
  | bareCall _ _ _ | call _ _ _ _ _ => exact ⟨_, ')', rfl, by decide⟩
  | paren _ _ _ _ => exact ⟨_, ')', rfl, by decide⟩
  | union _ _ _ _ _ _ _ =>
    have hclose : Stops [')'] := ⟨[], ')', rfl, by decide⟩
    rw [Expr.print, Reference.toList_text_union (Reference.Spelled.isValid hspelled)]
    exact ((hclose.prepend _).prepend _).prepend ['(']
  | array _ _ _ => exact ⟨_, '\x7d', rfl, by decide⟩
  | omitted | given _ _ | lastArgument _ _ _ | nextArgument _ _ _ _ _ | noPart
    | nextPart _ _ _ _ _ => simp at hp

/-! ## Formulas -/

namespace Formula

variable {text : String} (valid : (ofText text).isValid = true)
  (numbers : ∀ t ∈ Token.lex (body text), ∀ x : Float, t.Writes (.number x) → 0 ≤ x →
    Number.ReadsBack x)
include valid numbers

/-- The words that make up a formula without faults can be printed and read again. -/
theorem derives_of_isValid : ∃ ts, Derives .expression ts (ofText text).expr ∧
    ∀ t ∈ ts, t.Reprints := by
  rw [isValid_ofText] at valid
  obtain ⟨ts, last, hlex, hwords, hd⟩ := Parsed.derives_of_isValid valid
  rw [← expr_ofText] at hd
  exact ⟨ts, hd, fun t ht => ⟨(hwords t ht).identifier, fun x hx =>
    numbers t (hlex ▸ List.mem_append_left _ ht) x hx ((hwords t ht).zero_le hx)⟩⟩

theorem ofText_text : (ofText (ofText text).text).isValid = true ∧
    ((ofText (ofText text).text).expr == (ofText text).expr) = true := by
  obtain ⟨ts, hd, hreprints⟩ := derives_of_isValid valid numbers
  rw [isValid_ofText, expr_ofText, body_text]
  exact Parsed.ofText_text_of_prints (derives_prints hd hreprints)

/-- The text of a formula without faults stands between no blanks. -/
theorem trim_text : Text.trim (ofText text).text = (ofText text).text := by
  obtain ⟨ts, hd, hreprints⟩ := derives_of_isValid valid numbers
  obtain ⟨cs, c, hprint, hc⟩ := stops_of_derives hd (by simp) hreprints
  have htext : (ofText text).text.toList = '=' :: cs ++ [c] := by
    rw [Formula.text, Expr.text, String.toList_append, hprint]
    exact congrArg ('=' :: ·) String.toList_ofList
  refine Text.trim_eq_self (fun d hd => ?_) fun d hd => ?_
  · rw [htext] at hd
    cases hd
    decide
  · rw [htext, List.getLast?_append_of_ne_nil _ (List.cons_ne_nil _ _)] at hd
    cases hd
    exact hc

end Formula

end Spreadsheet
