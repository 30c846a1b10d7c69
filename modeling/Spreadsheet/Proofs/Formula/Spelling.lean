import Spreadsheet.Proofs.Formula.Grammar
import Spreadsheet.Proofs.Formula.Words
import Spreadsheet.Proofs.Grid.Naming
import Spreadsheet.Proofs.Number.Unsigned

/-! How the small parts of a formula are spelled: the names of places, literals, and the rows of
array constants. Each is one run of characters whose tokens are again that part, before anything
that ends a word. -/

namespace Spreadsheet

open Grammar

/-! ## Names of places -/

open Token in
theorem opensIdentifier_of_capital {c : Char} (h : IsCapital c) : OpensIdentifier c := by
  obtain ⟨i, hi, rfl⟩ := h
  have hall : ∀ i < 26, Text.isBlank (Char.ofNat (65 + i)) = false ∧
      isNumberChar (Char.ofNat (65 + i)) = false ∧ Char.ofNat (65 + i) ≠ '"' ∧
      Char.ofNat (65 + i) ≠ '#' ∧ startsIdentifier (Char.ofNat (65 + i)) = true := by decide
  obtain ⟨hb, hn, hq, hh, hs⟩ := hall i hi
  exact ⟨hb, hn, hq, hh, hs⟩

theorem isIdentifierChar_of_capital {c : Char} (h : IsCapital c) :
    Token.isIdentifierChar c = true := by
  simp [Token.isIdentifierChar, Text.isLetterOrNumeric, Text.isLetter_of_isAlpha h.isAlpha]

theorem isIdentifierChar_of_digit {c : Char} (h : c.isDigit = true) :
    Token.isIdentifierChar c = true := by
  have hlt : c.toNat < 128 := by
    have hnine : c.val ≤ '9'.val := (of_decide_eq_true (Bool.and_eq_true_iff.mp h).2)
    exact Nat.lt_of_le_of_lt (UInt32.le_iff_toNat_le.mp hnine) (by decide)
  simp [Token.isIdentifierChar, Text.isLetterOrNumeric, Text.isNumeric, hlt, h]

namespace Place

theorem isIdentifierChar_of_mem_marker {fixed : Bool} {c : Char} (h : c ∈ marker fixed) :
    Token.isIdentifierChar c = true := by
  cases fixed with
  | true =>
    obtain rfl := List.mem_singleton.mp h
    decide
  | false => cases h

theorem isIdentifierChar_of_mem_rowText {m : Mark} {c : Char} (h : c ∈ rowText m) :
    Token.isIdentifierChar c = true := by
  obtain h | h := List.mem_append.mp h
  · exact isIdentifierChar_of_mem_marker h
  · exact isIdentifierChar_of_digit (isDigit_of_mem_rowDigits h)

theorem opensIdentifier_dollar : Token.OpensIdentifier '$' := by
  refine ⟨?_, ?_, ?_, ?_, ?_⟩ <;> decide

theorem isIdentifier_columnText (m : Mark) {cs : List Char}
    (h : ∀ c ∈ cs, Token.isIdentifierChar c = true) : Token.IsIdentifier (columnText m ++ cs) := by
  obtain ⟨c, rest, hc⟩ := List.exists_cons_of_ne_nil (columnLetters_ne_nil m.index)
  have hcapital : ∀ d ∈ c :: rest, IsCapital d := fun d hd =>
    isCapital_of_mem_columnLetters (hc ▸ hd)
  have hletters : ∀ d ∈ c :: rest, Token.isIdentifierChar d = true := fun d hd =>
    isIdentifierChar_of_capital (hcapital d hd)
  rw [columnText, marker, hc]
  cases m.fixed with
  | true =>
    exact ⟨'$', c :: rest ++ cs, rfl, opensIdentifier_dollar,
      fun d hd => (List.mem_append.mp hd).elim (hletters d) (h d)⟩
  | false =>
    exact ⟨c, rest ++ cs, rfl, opensIdentifier_of_capital (hcapital c List.mem_cons_self),
      fun d hd => (List.mem_append.mp hd).elim (fun hd => hletters d (List.mem_cons_of_mem _ hd))
        (h d)⟩

theorem isIdentifier_name {p : Place} (h : ∀ m v, p = row m v → m.fixed = true) :
    Token.IsIdentifier p.name := by
  cases p with
  | cell r c _ => exact isIdentifier_columnText c fun d hd => isIdentifierChar_of_mem_rowText hd
  | column c _ =>
    have hname : Token.IsIdentifier (columnText c ++ []) := isIdentifier_columnText c nofun
    rwa [List.append_nil] at hname
  | row r v =>
    rw [name, rowText, h r v rfl]
    exact ⟨'$', rowDigits r.index, rfl, opensIdentifier_dollar,
      fun d hd => isIdentifierChar_of_digit (isDigit_of_mem_rowDigits hd)⟩

end Place

theorem Number.read?_digits {cs : List Char} (hne : cs ≠ []) (h : ∀ c ∈ cs, c.isDigit = true) :
    ∃ x, Number.read? (String.ofList cs) = some x := by
  have hsign : Number.readSign cs = (false, cs) := by
    unfold Number.readSign
    split
    · exact absurd (h '-' List.mem_cons_self) (by decide)
    · exact absurd (h '+' List.mem_cons_self) (by decide)
    · rfl
  have hall : cs.takeWhile Char.isDigit = cs := List.takeWhile_eq_self_iff.mpr h
  have hrest : cs.dropWhile Char.isDigit = [] := List.dropWhile_eq_nil_iff.mpr h
  simp [Number.read?, Number.Numeral.read?, hsign, hall, hrest, hne, Number.readPower?]

open Token in
/-- The name of a place is one token, from which the place is read back. -/
theorem Place.lexes_name {p : Place} (h : p.InGrid) :
    Lexes p.name fun ts => ∃ t, ts = [t] ∧ t.Ends p.kind p := by
  by_cases hrow : ∃ m v, p = row m v ∧ m.fixed = false
  · obtain ⟨m, v, rfl, hfixed⟩ := hrow
    have hname : name (row m v) = rowDigits m.index := by simp [name, rowText, hfixed, marker]
    have hdigit : ∀ c ∈ name (row m v), c.isDigit = true := fun c hc =>
      isDigit_of_mem_rowDigits (hname ▸ hc)
    obtain ⟨x, hx⟩ := Number.read?_digits (hname ▸ rowDigits_ne_nil m.index) hdigit
    have hchars : ∀ c ∈ name (row m v), isNumberChar c = true := fun c hc => by
      simp [isNumberChar, hdigit c hc]
    refine .word (fun offset rest hr => lexFrom_number hchars hx hr offset) fun start => ?_
    exact ⟨_, rfl, .inr ⟨rfl, rfl⟩, by rw [String.toList_ofList]; exact read?_name h⟩
  · have hid : IsIdentifier p.name := isIdentifier_name fun m v hp => by
      cases hf : m.fixed with
      | true => rfl
      | false => exact absurd ⟨m, v, hp, hf⟩ hrow
    refine .word (fun offset rest hr => lexFrom_identifier hid hr offset) fun start => ?_
    exact ⟨_, rfl, .inl rfl, by rw [String.toList_ofList]; exact read?_name h⟩

/-! ## What an expression starts with -/

/-- The characters go on with no operator in front of them. -/
def Starts (cs : List Char) : Prop := ∃ c rest, cs = c :: rest ∧ c ≠ '=' ∧ c ≠ '>'

theorem Starts.append {cs : List Char} (h : Starts cs) (ds : List Char) : Starts (cs ++ ds) := by
  obtain ⟨c, rest, rfl, hc⟩ := h
  exact ⟨c, rest ++ ds, rfl, hc⟩

theorem starts_of_chars {cs : List Char} {p : Char → Bool} (hne : cs ≠ [])
    (h : ∀ c ∈ cs, p c = true) (hequal : p '=' = false) (hgreater : p '>' = false) :
    Starts cs := by
  obtain ⟨c, rest, rfl⟩ := List.exists_cons_of_ne_nil hne
  have hc := h c List.mem_cons_self
  refine ⟨c, rest, rfl, ?_, ?_⟩ <;> rintro rfl <;> simp_all

theorem starts_of_isIdentifier {cs : List Char} (h : Token.IsIdentifier cs) : Starts cs := by
  obtain ⟨c, rest, rfl, hc, -⟩ := h
  have hstarts := hc.starts
  refine ⟨c, rest, rfl, ?_, ?_⟩ <;> rintro rfl <;> exact absurd hstarts (by decide)

theorem Place.starts_name (p : Place) : Starts p.name := by
  have hcolumn (m : Mark) : Starts (columnText m) := by
    have hname : Token.IsIdentifier (columnText m ++ []) := isIdentifier_columnText m nofun
    rw [List.append_nil] at hname
    exact starts_of_isIdentifier hname
  cases p with
  | cell r c _ => exact (hcolumn c).append _
  | column c _ => exact hcolumn c
  | row r _ =>
    refine starts_of_chars ?_ (fun c hc => isIdentifierChar_of_mem_rowText hc) (by decide)
      (by decide)
    exact List.append_ne_nil_of_right_ne_nil _ (rowDigits_ne_nil _)

/-! ## References -/

namespace Reference

theorem isValid_union_cons (r : Reference) (rs : List Reference) :
    (union (r :: rs)).isValid = (r.isValid && (union rs).isValid) := by
  simp [isValid, targets, targetsOf]

theorem text_of_isValid {r : Reference} (h : r.isValid = true) : r.text = r.validText := by
  rw [text, if_pos h]

theorem toList_intercalate_validTexts (r : Reference) {rs : List Reference}
    (h : (union (r :: rs)).isValid = true) :
    (",".intercalate (validTexts (r :: rs))).toList =
      r.text.toList ++ rs.flatMap fun r => ',' :: r.text.toList := by
  have hcomma : ",".toList = [','] := rfl
  rw [String.toList_intercalate, hcomma]
  induction rs generalizing r with
  | nil =>
    rw [isValid_union_cons, Bool.and_eq_true] at h
    simp [validTexts, text_of_isValid h.1]
  | cons r' rs ih =>
    rw [isValid_union_cons, Bool.and_eq_true] at h
    have htail := ih r' h.2
    simp only [validTexts, List.map_cons] at htail ⊢
    rw [List.intercalate_cons_cons, htail, text_of_isValid h.1]
    simp

theorem toList_text_union {r : Reference} {rs : List Reference}
    (h : (union (r :: rs)).isValid = true) :
    (union (r :: rs)).text.toList =
      '(' :: (r.text.toList ++ ((rs.flatMap fun r => ',' :: r.text.toList) ++ [')'])) := by
  rw [text_of_isValid h, validText]
  simp [toList_intercalate_validTexts r h]

end Reference

/-- What formulas refer to is valid when they are read. -/
theorem Grammar.Derives.isValid {p : Phrase} {ts : List Token} {r : Reference}
    (h : Derives p ts (.reference r)) : r.isValid = true := by
  generalize he : Expr.reference r = e at h
  induction h generalizing r with
  | operand _ ih | alone _ ih | unsigned _ ih | given _ ih => exact ih he
  | @cell t p _ value =>
    cases he
    have hread : Place.read? .cell t.text.toList = some p := value
    exact (Reference.isValid_single _).trans (Place.inGrid_of_read? hread).valid
  | range start _ finish =>
    cases he
    obtain ⟨p', q', hpq, -, hp', hq'⟩ :=
      Target.between_eq_range (Place.inGrid_of_read? start.2) (Place.inGrid_of_read? finish.2)
    refine (Reference.isValid_single _).trans ?_
    rw [hpq, Target.isValid, hp'.1.valid, hq'.1.valid]
    rfl
  | union _ _ _ _ _ ih ih' =>
    cases he
    rw [Reference.isValid_union_cons, ih rfl, ih' rfl]
    rfl
  | nextPart _ _ _ ih ih' =>
    cases he
    rw [Reference.isValid_union_cons, ih rfl, ih' rfl]
    rfl
  | noPart =>
    cases he
    rfl
  | _ => cases he

/-! ## Literals -/

/-- What the text of a literal is read as: the literal, with one zero. -/
def Literal.reread : Literal → Literal
  | .number x => .number (Number.reread x)
  | l => l

namespace Token

/-- The token is an identifier as such, or a number whose text reads back. -/
structure Reprints (t : Token) : Prop where
  identifier : t.kind = .identifier → IsIdentifier t.text.toList
  number : ∀ x, t.Writes (.number x) → Number.ReadsBack x

theorem isIdentifier_logicalText (b : Bool) : IsIdentifier (Value.logicalText b).toList := by
  have hpart {cs : List Char} (h : cs.all isIdentifierChar = true) :
      ∀ c ∈ cs, isIdentifierChar c = true := List.all_eq_true.mp h
  cases b with
  | true =>
    have hT : IsCapital 'T' := ⟨19, by decide, by decide⟩
    exact ⟨'T', ['R', 'U', 'E'], rfl, opensIdentifier_of_capital hT, hpart (by decide)⟩
  | false =>
    have hF : IsCapital 'F' := ⟨5, by decide, by decide⟩
    exact ⟨'F', ['A', 'L', 'S', 'E'], rfl, opensIdentifier_of_capital hF, hpart (by decide)⟩

theorem logicalWord?_logicalText (b : Bool) :
    Reader.logicalWord? (Value.logicalText b) = some b := by cases b <;> decide

theorem ofText?_text (e : ErrorCode) : ErrorCode.ofText? e.text = some e := by
  cases e <;> decide

theorem readSign_of_isNumberChar {cs : List Char} (h : ∀ c ∈ cs, isNumberChar c = true) :
    (Number.readSign cs).1 = false := by
  unfold Number.readSign
  split
  · exact absurd (h '-' List.mem_cons_self) (by decide)
  · rfl
  · rfl

/-- A number reads back from its text. -/
theorem lexes_number {x : Float} (finite : x.isFinite = true) (h : Number.ReadsBack x) :
    Lexes (Number.text x).toList fun ts =>
      ∃ u, ts = [u] ∧ u.Writes (.number (Number.reread x)) := by
  obtain ⟨y, hy, hyx⟩ := (Option.any_eq_true _ _).mp h.value
  have hchars : ∀ c ∈ (Number.text x).toList, isNumberChar c = true :=
    List.all_eq_true.mp h.digits
  have hread : Number.read? (String.ofList (Number.text x).toList) = some y := by
    rw [String.ofList_toList]
    exact hy
  have hunsigned := Number.isNegative_of_read? (readSign_of_isNumberChar hchars) hy
  refine .word (fun offset rest hr => lexFrom_number hchars hread hr offset) fun start => ?_
  rw [← Number.eq_reread hyx hunsigned]
  exact ⟨_, rfl, .number rfl hread (Number.isFinite_of_beq finite hyx)⟩

/-- A literal that a token writes reads back from its own text. -/
theorem lexes_literal {t : Token} {l : Literal} (h : t.Writes l) (hr : t.Reprints) :
    Lexes l.print fun ts => ∃ u, ts = [u] ∧ u.Writes l.reread := by
  cases h with
  | @number x kind value finite =>
    exact lexes_number finite (hr.number x (.number kind value finite))
  | text _ =>
    refine .word (fun offset rest hb => lexFrom_quote _ hb offset) fun start => ?_
    refine ⟨_, rfl, ?_⟩
    have hwrites := Writes.text (t := ⟨.string, Text.quote (Text.unquote t.text), start⟩) rfl
    rwa [Text.unquote_quote] at hwrites
  | @error e _ _ =>
    refine .word (fun offset rest _ => lexFrom_error e rest offset) fun start => ?_
    exact ⟨_, rfl, .error rfl (ofText?_text e)⟩
  | @logical b _ _ =>
    refine .word (fun offset rest hb => lexFrom_identifier (isIdentifier_logicalText b) hb offset)
      fun start => ?_
    exact ⟨_, rfl, .logical rfl
      (by rw [String.ofList_toList]; exact logicalWord?_logicalText b)⟩

/-! ## Array constants -/

theorem lexes_item {ts : List Token} {l : Literal} (h : Item ts l) (hr : ∀ t ∈ ts, t.Reprints) :
    Lexes l.print fun us => Item us l.reread := by
  cases h with
  | plain h =>
    refine (lexes_literal h (hr _ List.mem_cons_self)).mono ?_
    rintro us ⟨u, rfl, hu⟩
    exact .plain hu
  | plus _ h =>
    refine (lexes_literal h (hr _ (by simp))).mono ?_
    rintro us ⟨u, rfl, hu⟩
    exact .plain hu
  | @minus s t x mark h =>
    have finite : x.isFinite = true := by cases h; assumption
    have hback := (hr t (by simp)).number x h
    have hlex := lexes_number finite hback
    -- Negative zero prints without its sign, and then no minus is read back.
    have hunits : Number.units (-x) = Number.units x := Number.units_neg finite
    by_cases hzero : Number.units x = 0
    · have htext : Number.text (-x) = Number.text x := by
        rw [Number.text_of_units_eq_zero hzero, Number.text_of_units_eq_zero (hunits.trans hzero)]
      have hreread : Number.reread (-x) = Number.reread x := by
        rw [Number.reread, Number.reread, if_pos hzero, if_pos (hunits.trans hzero)]
      rw [Literal.print, htext, Literal.reread, hreread]
      refine hlex.mono ?_
      rintro us ⟨u, rfl, hu⟩
      exact .plain hu
    · have hminus := (Number.text_neg finite hback).resolve_left hzero
      have hreread : Number.reread (-x) = -Number.reread x := by
        rw [Number.reread, Number.reread, if_neg hzero, if_neg (hunits ▸ hzero)]
      rw [Literal.print, hminus, Literal.reread, hreread]
      refine (Lexes.operator (by decide) hlex).mono ?_
      rintro ts ⟨u, us, rfl, hu, v, rfl, hv⟩
      exact .minus hu hv

end Token

namespace Expr

theorem separated_cons (c : Char) (item : List Char) {items : List (List Char)}
    (h : items ≠ []) : separated c (item :: items) = item ++ c :: separated c items := by
  cases items with
  | nil => exact absurd rfl h
  | cons => rfl

theorem separated_append (c : Char) (cs item : List Char) (items : List (List Char)) :
    separated c ((cs ++ item) :: items) = cs ++ separated c (item :: items) := by
  cases items <;> simp [separated]

end Expr

/-- The rows of an array constant as it prints them, with the closing brace. -/
def rowsText (rows : List (List Literal)) : List Char :=
  Expr.separated ';' (rows.map fun row => Expr.separated ',' (row.map Literal.print)) ++ ['\x7d']

theorem rows_eq_cons {ts : List Token} {rows : List (List Literal)} (h : Rows ts rows) :
    ∃ l row rest, rows = (l :: row) :: rest := by
  cases h <;> exact ⟨_, _, _, rfl⟩

theorem rowsText_next (l : Literal) {row : List Literal} (h : row ≠ [])
    (rows : List (List Literal)) :
    rowsText ((l :: row) :: rows) = l.print ++ ',' :: rowsText (row :: rows) := by
  have hrow : row.map Literal.print ≠ [] := by simpa using h
  simp only [rowsText, List.map_cons]
  rw [Expr.separated_cons ',' l.print hrow, List.append_cons l.print, Expr.separated_append,
    List.append_assoc, List.append_assoc]
  rfl

theorem rowsText_newRow (l : Literal) {rows : List (List Literal)} (h : rows ≠ []) :
    rowsText ([l] :: rows) = l.print ++ ';' :: rowsText rows := by
  have hrows : rows.map (fun row => Expr.separated ',' (row.map Literal.print)) ≠ [] := by
    simpa using h
  simp only [rowsText, List.map_cons]
  rw [Expr.separated_cons ';' _ hrows]
  simp [Expr.separated]

open Token in
theorem lexes_rows {ts : List Token} {rows : List (List Literal)} (h : Rows ts rows)
    (hr : ∀ t ∈ ts, t.Reprints) :
    Lexes (rowsText rows) fun us => Rows us (rows.map (·.map Literal.reread)) := by
  induction h with
  | @last ts l close item mark =>
    have hi := lexes_item item fun t ht => hr t (List.mem_append_left _ ht)
    refine (hi.closedBy (by decide)).mono ?_
    rintro us ⟨vs, t, rfl, hl, ht⟩
    exact .last hl ht
  | @next ts more l comma row rows item mark rest ih =>
    have hi := lexes_item item fun t ht => hr t (List.mem_append_left _ ht)
    have hrest := ih fun t ht => hr t (by simp [ht])
    obtain ⟨l₀, row₀, rows₀, hrows⟩ := rows_eq_cons rest
    cases hrows
    rw [rowsText_next l (List.cons_ne_nil _ _)]
    refine hi.append (.punctuation (by decide) hrest) (.cons (by decide) _) ?_
    rintro us vs hl ⟨t, ws, rfl, ht, hrows'⟩
    exact .next hl ht hrows'
  | @newRow ts more l semicolon rows item mark rest ih =>
    have hi := lexes_item item fun t ht => hr t (List.mem_append_left _ ht)
    have hrest := ih fun t ht => hr t (by simp [ht])
    have hne : rows ≠ [] := by
      obtain ⟨l₀, row₀, rows₀, rfl⟩ := rows_eq_cons rest
      exact List.cons_ne_nil _ _
    rw [rowsText_newRow l hne]
    refine hi.append (.punctuation (by decide) hrest) (.cons (by decide) _) ?_
    rintro us vs hl ⟨t, ws, rfl, ht, hrows'⟩
    exact .newRow hl ht hrows'

end Spreadsheet
