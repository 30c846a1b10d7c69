import Spreadsheet.Proofs.Formula.Lexing

/-! A text is a reference by itself exactly when it is one as a formula. One reader splits the text
at its colon, the other takes it for tokens, of which a row can be a number and a place with `$` in
front is an identifier. They differ only in what they skip: between tokens blanks may stand. -/

namespace Spreadsheet

open Grammar

theorem Token.ne_colon_of_isIdentifierChar {c : Char} (h : isIdentifierChar c = true) :
    (c != ':') = true := by
  rw [bne_iff_ne]
  rintro rfl
  revert h
  decide

namespace Place

/-! ## The characters of a place -/

theorem readMarker_append (cs : List Char) : cs = marker (readMarker cs).1 ++ (readMarker cs).2 := by
  unfold readMarker
  split <;> rfl

theorem isIdentifierChar_of_isAlpha {c : Char} (h : c.isAlpha = true) :
    Token.isIdentifierChar c = true := by
  simp [Token.isIdentifierChar, Text.isLetterOrNumeric, Text.isLetter_of_isAlpha h]

/-- What stands behind the first mark is letters for a column, else digits for a row. -/
theorem body_of_read? {kind : Kind} {cs : List Char} {p : Place} (h : read? kind cs = some p) :
    (∀ c ∈ (readMarker cs).2, Token.isIdentifierChar c = true) ∧
      ((∃ c rest, (readMarker cs).2 = c :: rest ∧ c.isAlpha = true) ∨
        kind = .row ∧ (readMarker cs).2 ≠ [] ∧ ∀ c ∈ (readMarker cs).2, c.isDigit = true) := by
  cases kind with
  | cell =>
    obtain ⟨r, c, -, hc, hr⟩ := readCell?_eq_some h
    obtain ⟨hne, -, halpha⟩ := of_readLetters? hc
    obtain ⟨-, hdigit⟩ := of_readRow? hr
    have hsplit := List.takeWhile_append_dropWhile (p := Char.isAlpha) (l := (readMarker cs).2)
    generalize (readMarker cs).2.takeWhile Char.isAlpha = letters at *
    generalize (readMarker cs).2.dropWhile Char.isAlpha = number at *
    obtain ⟨d, ds, rfl⟩ := List.exists_cons_of_ne_nil hne
    rw [← hsplit]
    refine ⟨fun x hx => ?_, .inl ⟨d, ds ++ number, rfl, halpha d List.mem_cons_self⟩⟩
    rw [readMarker_append number, List.mem_append, List.mem_append] at hx
    obtain hx | hx | hx := hx
    · exact isIdentifierChar_of_isAlpha (halpha x hx)
    · exact isIdentifierChar_of_mem_marker hx
    · exact isIdentifierChar_of_digit (hdigit x hx)
  | column =>
    obtain ⟨c, hc, -⟩ := Option.map_eq_some_iff.mp h
    change readLetters? (readMarker cs).2 = some c at hc
    obtain ⟨hne, -, halpha⟩ := of_readLetters? hc
    obtain ⟨d, ds, hds⟩ := List.exists_cons_of_ne_nil hne
    exact ⟨fun c hc => isIdentifierChar_of_isAlpha (halpha c hc),
      .inl ⟨d, ds, hds, halpha d (hds ▸ List.mem_cons_self)⟩⟩
  | row =>
    obtain ⟨r, hr, -⟩ := Option.map_eq_some_iff.mp h
    change Spreadsheet.readRow? (readMarker cs).2 = some r at hr
    obtain ⟨hne, hdigit⟩ := of_readRow? hr
    exact ⟨fun c hc => isIdentifierChar_of_digit (hdigit c hc), .inr ⟨rfl, hne, hdigit⟩⟩

theorem isIdentifierChar_of_read? {kind : Kind} {cs : List Char} {p : Place}
    (h : read? kind cs = some p) : ∀ c ∈ cs, Token.isIdentifierChar c = true := by
  intro c hc
  rw [readMarker_append cs, List.mem_append] at hc
  exact hc.elim isIdentifierChar_of_mem_marker ((body_of_read? h).1 c)

/-- A place is an identifier, unless it is a row without `$`: that is a number. -/
theorem word_of_read? {kind : Kind} {cs : List Char} {p : Place} (h : read? kind cs = some p) :
    Token.IsIdentifier cs ∨ kind = .row ∧ cs ≠ [] ∧ ∀ c ∈ cs, c.isDigit = true := by
  obtain ⟨hbody, hfirst⟩ := body_of_read? h
  have hcs := readMarker_append cs
  generalize (readMarker cs).1 = fixed at *
  generalize (readMarker cs).2 = body at *
  subst hcs
  cases fixed with
  | true => exact .inl ⟨'$', body, rfl, opensIdentifier_dollar, hbody⟩
  | false =>
    obtain ⟨c, rest, rfl, halpha⟩ | hdigits := hfirst
    · refine .inl ⟨c, rest, rfl, Token.opensIdentifier_of_starts ?_,
        fun d hd => hbody d (List.mem_cons_of_mem _ hd)⟩
      simp [Token.startsIdentifier, Text.isLetter_of_isAlpha halpha]
    · exact .inr hdigits

theorem notBlank_of_read? {kind : Kind} {cs : List Char} {p : Place} (h : read? kind cs = some p) :
    ∀ c ∈ cs, Text.isBlank c = false := fun c hc =>
  isBlank_of_isIdentifierChar (isIdentifierChar_of_read? h c hc)

theorem ne_colon_of_read? {kind : Kind} {cs : List Char} {p : Place} (h : read? kind cs = some p) :
    ∀ c ∈ cs, (c != ':') = true := fun c hc =>
  Token.ne_colon_of_isIdentifierChar (isIdentifierChar_of_read? h c hc)

end Place

namespace Token

/-! ## The tokens of a reference -/

/-- A place that ends where no identifier and no number goes on is one token. -/
theorem lexFrom_place {kind : Place.Kind} {cs rest : List Char} {p : Place}
    (h : Place.read? kind cs = some p)
    (hr : ∀ c ∈ rest.head?, isIdentifierChar c = false ∧ isNumberChar c = false) (offset : Nat) :
    ∃ t o, lexFrom offset 0 (cs ++ rest) = t :: lexFrom o 0 rest ∧ t.Ends kind p := by
  obtain hid | ⟨rfl, hne, hdigit⟩ := Place.word_of_read? h
  · obtain ⟨o, ho⟩ := lexFrom_identifier_stop hid (fun c hc => (hr c hc).1) offset
    exact ⟨_, o, ho, .inl rfl, by rw [String.toList_ofList]; exact h⟩
  · obtain ⟨x, hx⟩ := Number.read?_digits hne hdigit
    have hchars : ∀ c ∈ cs, isNumberChar c = true := fun c hc => by
      simp [isNumberChar, hdigit c hc]
    obtain ⟨o, ho⟩ := lexFrom_number_stop hchars hx (fun c hc => (hr c hc).2) offset
    exact ⟨_, o, ho, .inr ⟨rfl, rfl⟩, by rw [String.toList_ofList]; exact h⟩

theorem ends_before_blanks {after : List Char} (h : ∀ c ∈ after, Text.isBlank c = true) :
    ∀ c ∈ after.head?, isIdentifierChar c = false ∧ isNumberChar c = false := fun c hc =>
  have hblank := h c (List.mem_of_mem_head? hc)
  ⟨not_isIdentifierChar_of_isBlank hblank, not_isNumberChar_of_isBlank hblank⟩

theorem words_place {kind : Place.Kind} {text : String} {p : Place}
    (h : Place.read? kind (Text.trim text).toList = some p) :
    ∃ t, words text = [t] ∧ t.Ends kind p := by
  refine words_of_trim (P := fun ts => ∃ t, ts = [t] ∧ t.Ends kind p) fun offset after hafter => ?_
  obtain ⟨t, o, ho, ht⟩ := lexFrom_place h (ends_before_blanks hafter) offset
  exact ⟨_, o, ho, t, rfl, ht⟩

theorem words_range {kind : Place.Kind} {text : String} {left right : List Char} {p q : Place}
    (htext : (Text.trim text).toList = left ++ ':' :: right)
    (hleft : Place.read? kind left = some p) (hright : Place.read? kind right = some q) :
    ∃ first colon last, words text = [first, colon, last] ∧ first.Ends kind p ∧
      colon.isOperator ":" = true ∧ last.Ends kind q := by
  refine words_of_trim (P := fun ts => ∃ first colon last, ts = [first, colon, last] ∧
    first.Ends kind p ∧ colon.isOperator ":" = true ∧ last.Ends kind q)
    fun offset after hafter => ?_
  have hcolon : ∀ c ∈ (':' :: (right ++ after)).head?,
      isIdentifierChar c = false ∧ isNumberChar c = false := by
    rintro _ ⟨⟩
    exact ⟨by decide, by decide⟩
  obtain ⟨first, o, ho, hfirst⟩ := lexFrom_place hleft hcolon offset
  obtain ⟨o', ho'⟩ := lexFrom_operator (c := ':') (by decide) (right ++ after) o
  obtain ⟨last, o'', ho'', hlast⟩ := lexFrom_place hright (ends_before_blanks hafter) o'
  refine ⟨[first, ⟨.operator, String.ofList [':'], o⟩, last], o'', ?_, first, _, last, rfl, hfirst,
    by simp [isOperator], hlast⟩
  rw [htext, List.append_assoc, List.cons_append, ho, ho', ho'']
  rfl

end Token

namespace Reader

/-! ## References as phrases -/

theorem derives_joined {ts : List Token} {e : Expr} (h : Derives .primary ts e)
    (levels : List (List BinaryOp)) : Derives (.joined levels) ts e := by
  induction levels with
  | nil => exact .operand (.unsigned h)
  | cons level tighter ih => exact .alone ih

/-- What a phrase must be to be a reference that is no union. -/
inductive Refers : List Token → Target → Prop
  | cell {t : Token} {p : Place} (kind : t.kind = .identifier)
      (value : Place.readCell? t.text.toList = some p) : Refers [t] (.place p)
  | range {first colon last : Token} {kind : Place.Kind} {p q : Place} (start : first.Ends kind p)
      (mark : colon.isOperator ":" = true) (finish : last.Ends kind q) :
      Refers [first, colon, last] (.between p q)

theorem refers_of_derives {p : Phrase} {ts : List Token} {target : Target}
    (h : Derives p ts (.reference (.single target))) : Refers ts target := by
  generalize he : Expr.reference (.single target) = e at h
  induction h with
  | operand _ ih | alone _ ih | unsigned _ ih | given _ ih => exact ih he
  | cell kind value => cases he; exact .cell kind value
  | range start mark finish => cases he; exact .range start mark finish
  | _ => cases he

end Reader

namespace Reference

/-! ## The two readers -/

/-- What splits a text at its first colon. -/
theorem split_at_colon {left : List Char} (h : ∀ c ∈ left, (c != ':') = true) (right : List Char) :
    (left ++ ':' :: right).takeWhile (· != ':') = left ∧
      (left ++ ':' :: right).dropWhile (· != ':') = ':' :: right := by
  have hstop : ∀ c ∈ (':' :: right).head?, (c != ':') = false := by
    rintro _ ⟨⟩
    rfl
  exact ⟨Token.takeWhile_append_stop h hstop, Token.dropWhile_append_stop h hstop⟩

/-- Only one kind of place fits the start of a range. -/
theorem readRange?_of_read? {kind : Place.Kind} {left right : List Char} {p q : Place}
    (hp : Place.read? kind left = some p) (hq : Place.read? kind right = some q) :
    readRange? left right = some (.between p q) := by
  have hother {kind' : Place.Kind} (hk : kind ≠ kind') : Place.read? kind' left = none :=
    Place.read?_eq_none hp hk
  cases kind with
  | cell => simp [readRange?, hp, hq]
  | column => simp [readRange?, hp, hq, hother (show Place.Kind.column ≠ .cell by decide)]
  | row =>
    simp [readRange?, hp, hq, hother (show Place.Kind.row ≠ .cell by decide),
      hother (show Place.Kind.row ≠ .column by decide)]

/-- The words of a reference derive it. -/
theorem derives_of_read? {text : String} {r : Reference} (h : read? text = some r) :
    Derives .primary (Token.words text) (.reference r) := by
  obtain ⟨p, hp, rfl⟩ | ⟨kind, left, right, p, q, htext, hp, hq, rfl⟩ := read?_eq_some h
  · obtain ⟨t, hwords, ⟨hkind | ⟨hrow, -⟩, hvalue⟩⟩ := Token.words_place hp
    · exact hwords ▸ .cell hkind hvalue
    · cases hrow
  · obtain ⟨first, mark, last, hwords, hfirst, hmark, hlast⟩ := Token.words_range htext hp hq
    exact hwords ▸ .range hfirst hmark hlast

theorem read?_of_cell {text : String} {p : Place}
    (h : Place.read? .cell (Text.trim text).toList = some p) : read? text = some (ofPlace p) := by
  have hread : Place.readCell? (Text.trim text).toList = some p := h
  have hdrop : (Text.trim text).toList.dropWhile (· != ':') = [] :=
    List.dropWhile_eq_nil_iff.mpr (Place.ne_colon_of_read? h)
  simp only [read?, hdrop, hread, Option.map_some]

theorem read?_of_range {text : String} {kind : Place.Kind} {left right : List Char} {p q : Place}
    (htext : (Text.trim text).toList = left ++ ':' :: right) (hp : Place.read? kind left = some p)
    (hq : Place.read? kind right = some q) : read? text = some (single (.between p q)) := by
  obtain ⟨htake, hdrop⟩ := split_at_colon (Place.ne_colon_of_read? hp) right
  simp only [read?, htext, hdrop, htake, readRange?_of_read? hp hq, Option.map_some]

/-- Where no blanks stand between them, the words that a reference is made of are its text. -/
theorem read?_of_refers {text : String} {target : Target}
    (hblank : ∀ c ∈ (Text.trim text).toList, Text.isBlank c = false)
    (h : Reader.Refers (Token.words text) target) : read? text = some (single target) := by
  have hends {t : Token} {kind : Place.Kind} {p : Place} (ht : t.Ends kind p) :
      ∀ c ∈ t.text.toList, Text.isBlank c = false := Place.notBlank_of_read? ht.2
  generalize hwords : Token.words text = ts at h
  cases h with
  | @cell t p kind value =>
    have hread : Place.read? .cell t.text.toList = some p := value
    have hspell := Token.spelling_words hblank (by
      rw [hwords, List.forall_mem_singleton]
      exact Place.notBlank_of_read? hread)
    have htext : (Text.trim text).toList = t.text.toList := by
      rw [← hspell, hwords]
      exact List.append_nil _
    exact read?_of_cell (htext ▸ hread)
  | @range first colon last kind p q start mark finish =>
    have hcolon : colon.text.toList = [':'] := by
      simp only [Token.isOperator, Bool.and_eq_true, beq_iff_eq] at mark
      rw [mark.2]
      rfl
    have hspell := Token.spelling_words hblank (by
      rw [hwords]
      simp only [List.forall_mem_cons, hcolon]
      exact ⟨hends start, ⟨by decide, nofun⟩, hends finish, nofun⟩)
    have htext : (Text.trim text).toList = first.text.toList ++ ':' :: last.text.toList := by
      rw [← hspell, hwords]
      simp [Token.spelling, hcolon]
    exact read?_of_range htext start.2 finish.2

/-- The reader of references and the reader of formulas agree. A text that is a reference reads as
that reference, without faults; a text that reads as a reference other than a union, and that has
no blanks but at its ends, is that reference. -/
theorem read?_agrees_with_formula (text : String) :
    (∀ r, read? text = some r →
      (Parsed.ofText text).isValid = true ∧ (Parsed.ofText text).expr = .reference r) ∧
    ∀ target, (Parsed.ofText text).isValid = true →
      (Parsed.ofText text).expr = .reference (single target) →
      (∀ c ∈ (Text.trim text).toList, Text.isBlank c = false) →
      read? text = some (single target) := by
  refine ⟨fun r hread => ?_, fun target hvalid hexpr hblank => ?_⟩
  · obtain ⟨last, hlex, hlast⟩ := Token.lex_eq text
    exact Parsed.ofText_of_derives hlex hlast (Reader.derives_joined (derives_of_read? hread) _)
  · obtain ⟨ts, last, hlex, -, hd⟩ := Parsed.derives_of_isValid hvalid
    have hwords : Token.words text = ts := by rw [Token.words, hlex, List.dropLast_concat]
    rw [hexpr, ← hwords] at hd
    exact read?_of_refers hblank (Reader.refers_of_derives hd)

/-- A range with its corners the wrong way round, between blanks. -/
theorem read?_agrees_with_formula_range :
    let corner (r c : Nat) (rowFixed columnFixed : Bool) : Place :=
      .cell ⟨r, rowFixed⟩ ⟨c, columnFixed⟩ true
    let target : Target := .range (corner 0 0 true false) (corner 1 1 false true)
    read? " $B2:a$01 " = some (single target) ∧ (Parsed.ofText " $B2:a$01 ").isValid = true ∧
      (Parsed.ofText " $B2:a$01 ").expr = .reference (single target) := by
  intro corner target
  obtain ⟨hto, hfrom⟩ := read?_agrees_with_formula " $B2:a$01 "
  have hread : read? " $B2:a$01 " = some (single target) := rfl
  obtain ⟨hvalid, hexpr⟩ := hto _ hread
  have hblank : (Text.trim " $B2:a$01 ").toList.all (fun c => !Text.isBlank c) = true := by decide
  exact ⟨hfrom _ hvalid hexpr (by simpa using hblank), hvalid, hexpr⟩

end Reference

end Spreadsheet
