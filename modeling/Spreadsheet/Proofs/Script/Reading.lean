import Spreadsheet.Script.Statement
import Spreadsheet.Proofs.Formula.Ending
import Spreadsheet.Proofs.Text.Trimming

/-! Which statement a line of a script is. The three forms of a line overlap and are tried in a
fixed order, so what stands left of the colon does not always decide: the colon of a definition
is taken for a range by a name that is spelled like the word for formats, and an input that starts
with `=` right behind the colon makes a definition of a line that fills a cell. -/

namespace Spreadsheet

namespace Statement

/-! ## Words between blanks -/

section Pieces

variable {p : Char → Bool} {xs ys : List Char}

theorem exists_pieces (p : Char → Bool) (xs : List Char) :
    ∃ piece rest, pieces p xs = piece :: rest := by
  fun_induction pieces p xs with
  | case1 => exact ⟨_, _, rfl⟩
  | case2 => exact ⟨_, _, rfl⟩
  | case3 => exact ⟨_, _, rfl⟩
  | case4 => exact ⟨_, _, rfl⟩

/-- Characters that separate nothing lengthen the first piece. -/
theorem pieces_prepend {piece : List Char} {rest : List (List Char)} (hx : ∀ c ∈ xs, p c = false)
    (hy : pieces p ys = piece :: rest) : pieces p (xs ++ ys) = (xs ++ piece) :: rest := by
  induction xs with
  | nil => exact hy
  | cons x xs ih =>
    obtain ⟨hfirst, hxs⟩ := List.forall_mem_cons.mp hx
    simp only [List.cons_append, pieces, hfirst, ih hxs, Bool.false_eq_true, if_false]

theorem pieces_eq_singleton (hx : ∀ c ∈ xs, p c = false) : pieces p xs = [xs] := by
  have h : pieces p (xs ++ []) = [xs ++ []] := pieces_prepend hx rfl
  rwa [List.append_nil] at h

theorem pieces_append {c : Char} (h : p c = true) :
    pieces p (xs ++ c :: ys) = pieces p xs ++ pieces p ys := by
  induction xs with
  | nil => simp [pieces, h]
  | cons x xs ih =>
    cases hx : p x with
    | true => simp [pieces, hx, ih]
    | false =>
      obtain ⟨piece, rest, hxs⟩ := exists_pieces p xs
      simp [pieces, hx, ih, hxs]

theorem pieces_intercalate {c : Char} {lines : List (List Char)} (hne : lines ≠ [])
    (hc : p c = true) (h : ∀ line ∈ lines, ∀ d ∈ line, p d = false) :
    pieces p ([c].intercalate lines) = lines := by
  induction lines with
  | nil => exact absurd rfl hne
  | cons line rest ih =>
    obtain ⟨hline, hrest⟩ := List.forall_mem_cons.mp h
    cases rest with
    | nil => simpa [List.intercalate] using pieces_eq_singleton hline
    | cons next rest =>
      rw [List.intercalate_cons_cons, List.append_assoc, List.singleton_append, pieces_append hc,
        pieces_eq_singleton hline, ih (List.cons_ne_nil _ _) hrest]
      rfl

end Pieces

section Words

variable {xs ys : List Char}

theorem words_append {c : Char} (h : Text.isBlank c = true) :
    words (xs ++ c :: ys) = words xs ++ words ys := by
  rw [words, pieces_append h, List.filter_append, ← words, ← words]

theorem words_eq_singleton (hne : xs ≠ []) (h : ∀ c ∈ xs, Text.isBlank c = false) :
    words xs = [xs] := by
  simp [words, pieces_eq_singleton h, hne]

theorem words_of_blanks (h : ∀ c ∈ xs, Text.isBlank c = true) : words xs = [] := by
  induction xs with
  | nil => rfl
  | cons c xs ih =>
    obtain ⟨hfirst, hxs⟩ := List.forall_mem_cons.mp h
    rw [← List.nil_append (c :: xs), words_append hfirst, ih hxs]
    rfl

theorem words_append_blanks (h : ∀ c ∈ ys, Text.isBlank c = true) : words (xs ++ ys) = words xs := by
  cases ys with
  | nil => rw [List.append_nil]
  | cons c ys =>
    obtain ⟨hfirst, hys⟩ := List.forall_mem_cons.mp h
    rw [words_append hfirst, words_of_blanks hys, List.append_nil]

theorem words_dropFinalBlanks (xs : List Char) : words (Text.dropFinalBlanks xs) = words xs := by
  obtain ⟨after, hblank, hsplit⟩ := Text.exists_dropFinalBlanks xs
  conv => rhs; rw [hsplit, words_append_blanks hblank]

/-- The first word goes on after characters that are no blanks. -/
theorem exists_words (hne : xs ≠ []) (h : ∀ c ∈ xs, Text.isBlank c = false) (ys : List Char) :
    ∃ more rest, words (xs ++ ys) = (xs ++ more) :: rest := by
  obtain ⟨piece, rest, hy⟩ := exists_pieces Text.isBlank ys
  refine ⟨piece, rest.filter fun word => !word.isEmpty, ?_⟩
  rw [words, pieces_prepend h hy, List.filter_cons_of_pos]
  simp [hne]

end Words

/-! ## The parts of a line -/

/-- The text is a letter or underscore and then letters, digits and underscores, all of ASCII. -/
structure IsPlainName (name : String) : Prop where
  notEmpty : name.toList ≠ []
  chars : ∀ c ∈ name.toList, isNameChar c = true
  first : ∀ c ∈ name.toList.head?, c.isDigit = false

theorem isBlank_of_isNameChar {c : Char} (h : isNameChar c = true) : Text.isBlank c = false := by
  refine isBlank_of_isIdentifierChar ?_
  simp only [isNameChar, Char.isAlphanum, Bool.or_eq_true] at h
  obtain (h | h) | h := h
  · simp [Token.isIdentifierChar, Text.isLetterOrNumeric, Text.isLetter_of_isAlpha h]
  · exact isIdentifierChar_of_digit h
  · simp [Token.isIdentifierChar, h]

theorem IsPlainName.notBlank {name : String} (h : IsPlainName name) :
    ∀ c ∈ name.toList, Text.isBlank c = false := fun c hc => isBlank_of_isNameChar (h.chars c hc)

theorem IsPlainName.first_notBlank {name : String} (h : IsPlainName name) (rest : List Char) :
    ∀ c ∈ (name.toList ++ rest).head?, Text.isBlank c = false := by
  obtain ⟨c, cs, hcs⟩ := List.exists_cons_of_ne_nil h.notEmpty
  rw [hcs]
  rintro _ ⟨⟩
  exact h.notBlank c (by rw [hcs]; exact List.mem_cons_self)

/-- What a definition says: a range where the text is a reference, else a value. -/
def meaning (text : String) : Definition :=
  match Reference.read? text with
  | some r => .reference r
  | none => .value (Value.infer Calendar.defaultPatterns text)

theorem readDefinition_eq (name text : String) : readDefinition name text =
    if text = "" then .error (.missingDefinition name) else .ok (.define name (meaning text)) := by
  simp only [readDefinition, meaning, String.isEmpty_iff]
  split
  · rfl
  · cases Reference.read? text <;> rfl

/-- The line that defines `name` by `text` has the words of a statement that formats. -/
def looksLikeFormat (name text : String) : Bool :=
  Text.sameIgnoringCase name "format" &&
    match words text.toList with
    | kind :: rest => kind.all isKindLetter && rest.length ≤ 1
    | [] => false

theorem words_definition {name : String} (h : IsPlainName name) (text : List Char) :
    words (name.toList ++ [' ', ':', '=', ' '] ++ text) = name.toList :: [':', '='] :: words text := by
  have hsplit : name.toList ++ [' ', ':', '=', ' '] ++ text =
      name.toList ++ ' ' :: ([':', '='] ++ ' ' :: text) := by simp
  have hcolon : ∀ c ∈ [':', '='], Text.isBlank c = false := by simp [Text.isBlank]
  rw [hsplit, words_append (by decide), words_eq_singleton h.notEmpty h.notBlank,
    words_append (by decide), words_eq_singleton (by decide) hcolon]
  rfl

theorem formatWords?_definition {name : String} (h : IsPlainName name) (text : String) :
    formatWords? (name.toList ++ [' ', ':', '=', ' '] ++ text.toList) =
      if looksLikeFormat name text then
        (words text.toList).head?.map fun kind =>
          (":=", String.ofList kind, (words text.toList).tail.head?)
      else none := by
  rw [formatWords?, words_definition h, looksLikeFormat]
  cases words text.toList with
  | nil => simp
  | cons kind rest => simp [Bool.and_assoc]

/-- Where a definition is taken for a format, its colon is the range. -/
theorem readFormatting_colon (kind : String) (decimals : Option (List Char)) :
    readFormatting ":=" kind decimals = .error (.badRange ":=") := by
  have hread : Reference.read? ":=" = none := by decide
  rw [readFormatting, hread]
  rfl

theorem definitionParts?_definition {name : String} (h : IsPlainName name) (text : List Char) :
    definitionParts? (name.toList ++ [' ', ':', '=', ' '] ++ text) =
      some (name, Text.trim (String.ofList text)) := by
  have hname : (name.toList ++ [' ', ':', '=', ' '] ++ text).takeWhile isNameChar = name.toList := by
    rw [List.append_assoc]
    exact Token.takeWhile_append_stop h.chars fun c hc => by cases hc; decide
  have hrest : Text.dropBlanks ((name.toList ++ [' ', ':', '=', ' '] ++ text).drop name.toList.length) =
      ':' :: '=' :: ' ' :: text := by
    rw [List.append_assoc, List.drop_left]
    rfl
  obtain ⟨c, cs, hcs⟩ := List.exists_cons_of_ne_nil h.notEmpty
  have hdigit : c.isDigit = false := h.first c (by rw [hcs]; rfl)
  have htrim : Text.trim (String.ofList (' ' :: text)) = Text.trim (String.ofList text) := by
    rw [Text.trim, Text.trim, String.toList_ofList, String.toList_ofList]
    rfl
  rw [definitionParts?, hname, hrest]
  simp only [hcs, hdigit, htrim]
  rw [← hcs, String.ofList_toList]
  rfl

/-- A definition is read as one, unless its words are those of a statement that formats. -/
theorem read_definition {name : String} (h : IsPlainName name) (text : String)
    (hblank : Text.trim text ≠ "") :
    read (String.ofList (name.toList ++ [' ', ':', '=', ' '] ++ text.toList)) =
      if looksLikeFormat name text then .error (.badRange ":=")
      else .ok (.define name (meaning (Text.trim text))) := by
  rw [read, String.toList_ofList, formatWords?_definition h]
  cases hformat : looksLikeFormat name text with
  | true =>
    obtain ⟨kind, rest, hwords⟩ : ∃ kind rest, words text.toList = kind :: rest := by
      cases hw : words text.toList with
      | nil => simp [looksLikeFormat, hw] at hformat
      | cons kind rest => exact ⟨_, _, rfl⟩
    rw [hwords]
    exact readFormatting_colon _ _
  | false =>
    simp only [Bool.false_eq_true, if_false, definitionParts?_definition h, String.ofList_toList,
      readDefinition_eq, if_neg hblank]

/-! ## Lines that fill a cell -/

theorem not_isDigit_of_isAlpha {c : Char} (h : c.isAlpha = true) : c.isDigit = false := by
  cases hdigit : c.isDigit with
  | false => rfl
  | true => rw [Place.not_isAlpha_of_isDigit hdigit] at h; cases h

/-- The name of a cell is up to three letters and then digits. -/
structure SpellsCell (cell : String) (p : Position) (letters digits : List Char) : Prop where
  text : cell.toList = letters ++ digits
  short : letters.length ≤ 3
  alpha : ∀ c ∈ letters, c.isAlpha = true
  digit : ∀ c ∈ digits, c.isDigit = true
  column : readColumn? letters = some p.column
  row : readRow? digits = some p.row

theorem exists_spellsCell {cell : String} {p : Position} (h : Position.read? cell = some p) :
    ∃ letters digits, SpellsCell cell p letters digits := by
  simp only [Position.read?, Position.read] at h
  split at h
  · cases h
  · next letters digits hsplit =>
    split at h
    · cases h
    · cases h
    · next column row hcolumn hrow =>
      cases h
      simp only [Position.splitName?, Option.ite_none_left_eq_some, Bool.or_eq_true,
        List.isEmpty_iff, decide_eq_true_eq, Bool.not_eq_true', not_or, Bool.not_eq_false,
        Option.some.injEq, Prod.mk.injEq] at hsplit
      obtain ⟨⟨⟨⟨-, hshort⟩, -⟩, hall⟩, rfl, rfl⟩ := hsplit
      exact ⟨_, _, List.takeWhile_append_dropWhile.symm, Nat.le_of_not_lt hshort,
        fun c hc => List.all_eq_true.mp List.all_takeWhile c hc,
        fun c hc => List.all_eq_true.mp hall c hc, hcolumn, hrow⟩

theorem SpellsCell.exists_letter {cell : String} {p : Position} {letters digits : List Char}
    (h : SpellsCell cell p letters digits) : ∃ c cs, letters = c :: cs := by
  refine List.exists_cons_of_ne_nil fun hnil => ?_
  have := h.column
  rw [hnil] at this
  cases this

theorem SpellsCell.exists_digit {cell : String} {p : Position} {letters digits : List Char}
    (h : SpellsCell cell p letters digits) : ∃ c cs, digits = c :: cs := by
  refine List.exists_cons_of_ne_nil fun hnil => ?_
  have := h.row
  rw [hnil] at this
  cases this

theorem isPlainName_of_position_read? {cell : String} {p : Position}
    (h : Position.read? cell = some p) : IsPlainName cell := by
  obtain ⟨letters, digits, hspell⟩ := exists_spellsCell h
  obtain ⟨first, more, rfl⟩ := hspell.exists_letter
  refine ⟨by simp [hspell.text], fun c hc => ?_, fun c hc => ?_⟩
  · rw [hspell.text, List.mem_append] at hc
    obtain hc | hc := hc
    · simp [isNameChar, Char.isAlphanum, hspell.alpha c hc]
    · simp [isNameChar, Char.isAlphanum, hspell.digit c hc]
  · rw [hspell.text] at hc
    cases hc
    exact not_isDigit_of_isAlpha (hspell.alpha first List.mem_cons_self)

theorem SpellsCell.readCell? {cell : String} {p : Position} {letters digits : List Char}
    (h : SpellsCell cell p letters digits) :
    Place.readCell? cell.toList = some (.cell ⟨p.row, false⟩ ⟨p.column, false⟩ true) := by
  obtain ⟨c, cs, rfl⟩ := h.exists_letter
  obtain ⟨d, ds, rfl⟩ := h.exists_digit
  have hd : d.isDigit = true := h.digit d List.mem_cons_self
  have hc : c ≠ '$' := fun heq => by
    have := heq ▸ h.alpha c List.mem_cons_self
    revert this
    decide
  have hd' : d ≠ '$' := fun heq => by
    revert hd
    rw [heq]
    decide
  have hstop : ∀ x ∈ (d :: ds).head?, x.isAlpha = false := by
    rintro _ ⟨⟩
    exact Place.not_isAlpha_of_isDigit hd
  have hletters : (c :: cs ++ d :: ds).takeWhile Char.isAlpha = c :: cs :=
    Token.takeWhile_append_stop h.alpha hstop
  have hdigits : (c :: cs ++ d :: ds).dropWhile Char.isAlpha = d :: ds :=
    Token.dropWhile_append_stop h.alpha hstop
  have hcolumn : Place.readLetters? (c :: cs) = some p.column := by
    rw [Place.readLetters?, if_neg (Nat.not_lt.mpr h.short), h.column]
  have hmark : Place.readMarker (c :: cs ++ d :: ds) = (false, c :: cs ++ d :: ds) :=
    Place.readMarker_marker false hc _
  have hmark' : Place.readMarker (d :: ds) = (false, d :: ds) := Place.readMarker_marker false hd' _
  simp only [h.text, Place.readCell?, hmark, hletters, hdigits, hmark', hcolumn, h.row]
  rfl

/-- A cell is a reference, so no name is spelled like one. -/
theorem isName_of_position_read? {cell : String} {p : Position}
    (h : Position.read? cell = some p) : Sheet.isName cell = false := by
  obtain ⟨letters, digits, hspell⟩ := exists_spellsCell h
  have hname := isPlainName_of_position_read? h
  have htrim : Text.trim cell = cell := Text.trim_of_notBlank hname.notBlank
  have hcolon : cell.toList.dropWhile (· != ':') = [] := by
    rw [List.dropWhile_eq_nil_iff]
    rintro c hc
    have := hname.chars c hc
    simp only [bne_iff_ne]
    rintro rfl
    revert this
    decide
  have hread : Reference.read? cell = some (.ofPlace (.cell ⟨p.row, false⟩ ⟨p.column, false⟩ true)) := by
    rw [Reference.read?, htrim, hcolon, hspell.readCell?]
    rfl
  simp [Sheet.isName, hread]

/-- The first word of the line has a colon in it. -/
theorem formatWords?_assignment {cell : String} (h : IsPlainName cell) (input : List Char) :
    formatWords? (cell.toList ++ ':' :: input) = none := by
  have hblank : ∀ c ∈ cell.toList ++ [':'], Text.isBlank c = false := by
    simp only [List.forall_mem_append, List.forall_mem_singleton]
    exact ⟨h.notBlank, by decide⟩
  obtain ⟨more, rest, hwords⟩ := exists_words (by simp) hblank input
  rw [List.append_assoc, List.singleton_append] at hwords
  have hverb : Text.sameIgnoringCase (String.ofList (cell.toList ++ [':'] ++ more)) "format" =
      false := by
    by_contra hsame
    simp only [Text.sameIgnoringCase, Bool.not_eq_false, beq_iff_eq,
      String.toList_ofList] at hsame
    have hcolon : ':' ∈ "format".toList.map Char.toUpper := by
      rw [← hsame]
      exact List.mem_map.mpr ⟨':', by simp, rfl⟩
    revert hcolon
    decide
  rw [formatWords?, hwords]
  split
  · next verb range kind rest hsplit =>
    cases hsplit
    rw [hverb, Bool.false_and, Bool.false_and]
    rfl
  · rfl

theorem definitionParts?_assignment {cell : String} (h : IsPlainName cell) (input : List Char) :
    definitionParts? (cell.toList ++ ':' :: input) =
      if input.head? = some '=' then some (cell, Text.trim (String.ofList input.tail)) else none := by
  have hname : (cell.toList ++ ':' :: input).takeWhile isNameChar = cell.toList :=
    Token.takeWhile_append_stop h.chars fun c hc => by cases hc; decide
  have hrest : Text.dropBlanks ((cell.toList ++ ':' :: input).drop cell.toList.length) =
      ':' :: input := by
    rw [List.drop_left]
    rfl
  obtain ⟨c, cs, hcs⟩ := List.exists_cons_of_ne_nil h.notEmpty
  have hdigit : c.isDigit = false := h.first c (by rw [hcs]; rfl)
  rw [definitionParts?, hname, hrest]
  cases input with
  | nil => rfl
  | cons d ds =>
    obtain rfl | hd := Decidable.em (d = '=')
    · simp only [hcs, hdigit]
      rw [← hcs, String.ofList_toList]
      rfl
    · simp [hd]

theorem assignmentParts?_assignment {cell : String} {p : Position}
    (h : Position.read? cell = some p) (input : List Char) :
    assignmentParts? (cell.toList ++ ':' :: input) =
      some (cell, Text.trim (String.ofList input)) := by
  obtain ⟨letters, digits, hspell⟩ := exists_spellsCell h
  obtain ⟨d, ds, rfl⟩ := hspell.exists_digit
  have hline : cell.toList ++ ':' :: input = letters ++ (d :: ds ++ ':' :: input) := by
    rw [hspell.text, List.append_assoc]
  have hfront : (cell.toList ++ ':' :: input).takeWhile Char.isAlpha = letters := by
    rw [hline]
    refine Token.takeWhile_append_stop hspell.alpha fun c hc => ?_
    cases hc
    exact Place.not_isAlpha_of_isDigit (hspell.digit d List.mem_cons_self)
  have hback : ((cell.toList ++ ':' :: input).drop letters.length).takeWhile Char.isDigit =
      d :: ds := by
    rw [hline, List.drop_left]
    exact Token.takeWhile_append_stop hspell.digit fun c hc => by cases hc; decide
  have hrest : Text.dropBlanks ((cell.toList ++ ':' :: input).drop
      (letters.length + (d :: ds).length)) = ':' :: input := by
    rw [hspell.text, ← List.length_append, List.drop_left]
    rfl
  rw [assignmentParts?, hfront, hback, hrest]
  obtain ⟨c, cs, rfl⟩ := hspell.exists_letter
  simp [← hspell.text]

/-- A line that starts with the name of a cell and a colon fills the cell, unless `=` follows. -/
theorem read_assignment {cell : String} {p : Position} (h : Position.read? cell = some p)
    (input : List Char) :
    read (String.ofList (cell.toList ++ ':' :: input)) =
      if input.head? = some '=' then readDefinition cell (Text.trim (String.ofList input.tail))
      else .ok (.assign p (Text.trim (String.ofList input))) := by
  have hname := isPlainName_of_position_read? h
  rw [read, String.toList_ofList, formatWords?_assignment hname, definitionParts?_assignment hname]
  by_cases hequals : input.head? = some '='
  · simp only [hequals, if_true]
  · simp only [hequals, if_false, assignmentParts?_assignment h, readAssignment, h]

end Statement

namespace ScriptLine

open Statement

/-! ## The lines of a script -/

/-- A script is read line by line. -/
theorem readAll_lines {lines : List String} (hne : lines ≠ [])
    (h : ∀ line ∈ lines, '\n' ∉ line.toList) :
    readAll ("\n".intercalate lines) = readFrom 1 (lines.map String.toList) := by
  rw [readAll, String.toList_intercalate, show "\n".toList = ['\n'] from rfl,
    pieces_intercalate (by simpa using hne) (by rfl)]
  simp only [List.mem_map, forall_exists_index, and_imp, forall_apply_eq_imp_iff₂]
  intro line hline c hc
  simpa using fun heq : c = '\n' => h line hline (heq ▸ hc)

theorem readAll_single {text : String} (h : '\n' ∉ text.toList) :
    readAll text = (read? 1 text.toList).map Option.toList := by
  have hlines : readAll ("\n".intercalate [text]) = readFrom 1 [text.toList] :=
    readAll_lines (List.cons_ne_nil _ _) (by simpa using h)
  rw [show "\n".intercalate [text] = text from rfl] at hlines
  rw [hlines, readFrom]
  cases read? 1 text.toList with
  | error fault => rfl
  | ok line => simp [readFrom, Except.map, bind, Except.bind, pure, Except.pure]

/-- A line that starts with a name says something. -/
theorem read?_eq {name : String} (hname : IsPlainName name) {raw rest : List Char}
    (h : Text.trim (String.ofList raw) = String.ofList (name.toList ++ rest)) (number : Nat) :
    read? number raw = ((read (String.ofList (name.toList ++ rest))).map fun st =>
      some ⟨number, st⟩).mapError fun cause => ⟨number, cause⟩ := by
  obtain ⟨c, cs, hcs⟩ := List.exists_cons_of_ne_nil hname.notEmpty
  have hhash : c ≠ '#' := by
    rintro rfl
    have := hname.chars '#' (by rw [hcs]; exact List.mem_cons_self)
    revert this
    decide
  have hkept : ((String.ofList (name.toList ++ rest)).isEmpty ||
      (String.ofList (name.toList ++ rest)).toList.head? == some '#') = false := by
    rw [hcs]
    simp [hhash]
  rw [read?, h]
  simp only [hkept]
  cases read (String.ofList (name.toList ++ rest)) <;> rfl

/-- A definition on a line of its own. -/
theorem read?_definition {name : String} (h : IsPlainName name) (text : String)
    (hblank : Text.trim text ≠ "") (number : Nat) :
    read? number (name ++ " := " ++ text).toList =
      if looksLikeFormat name text then .error ⟨number, .badRange ":="⟩
      else .ok (some ⟨number, .define name (meaning (Text.trim text))⟩) := by
  have hcut := Text.trim_append (by simp) (h.first_notBlank [' ', ':', '=', ' '])
    (Text.dropFinalBlanks_append_of_ne_nil (Text.dropFinalBlanks_ne_nil hblank))
  have htrim : Text.trim (String.ofList (Text.dropFinalBlanks text.toList)) = Text.trim text := by
    rw [Text.trim_dropFinalBlanks, String.ofList_toList]
  have hformat : looksLikeFormat name (String.ofList (Text.dropFinalBlanks text.toList)) =
      looksLikeFormat name text := by
    rw [looksLikeFormat, looksLikeFormat, String.toList_ofList, words_dropFinalBlanks]
  have hread := read_definition h (String.ofList (Text.dropFinalBlanks text.toList)) (by rwa [htrim])
  rw [String.toList_ofList, htrim, hformat, List.append_assoc] at hread
  have hline : (name ++ " := " ++ text).toList =
      name.toList ++ [' ', ':', '=', ' '] ++ text.toList := by simp
  rw [hline, read?_eq h (by rw [hcut, List.append_assoc]), hread]
  split <;> rfl

/-- A line on its own that starts with the name of a cell and a colon. -/
theorem read?_assignment {cell : String} {p : Position} (h : Position.read? cell = some p)
    (input : String) (number : Nat) :
    read? number (cell ++ ":" ++ input).toList =
      if input.toList.head? = some '=' then
        ((readDefinition cell (Text.trim (String.ofList input.toList.tail))).map fun st =>
          some ⟨number, st⟩).mapError fun cause => ⟨number, cause⟩
      else .ok (some ⟨number, .assign p (Text.trim input)⟩) := by
  have hname := isPlainName_of_position_read? h
  have hcolon : ∀ c ∈ (cell.toList ++ [':']).getLast?, Text.isBlank c = false := by
    rw [List.getLast?_concat]
    rintro _ ⟨⟩
    decide
  have hfinal : Text.dropFinalBlanks (cell.toList ++ [':'] ++ input.toList) =
      cell.toList ++ [':'] ++ Text.dropFinalBlanks input.toList := Text.dropFinalBlanks_append hcolon
  have hcut := Text.trim_append (by simp) (hname.first_notBlank [':']) hfinal
  have hline : (cell ++ ":" ++ input).toList = cell.toList ++ [':'] ++ input.toList := by simp
  rw [hline, read?_eq hname (by rw [hcut, List.append_assoc]), List.singleton_append,
    read_assignment h]
  by_cases hequals : input.toList.head? = some '='
  · obtain ⟨rest, hrest⟩ := List.head?_eq_some_iff.mp hequals
    rw [hrest, Text.dropFinalBlanks_cons (by decide)]
    simp only [List.head?_cons, if_true, List.tail_cons, Text.trim_dropFinalBlanks]
  · rw [if_neg fun hhead => hequals (Text.head?_of_dropFinalBlanks hhead), if_neg hequals,
      Text.trim_dropFinalBlanks, String.ofList_toList]
    rfl

/-- What stands on the left of a line says what the line means. If it is a name, `left := right`
defines it by what the right side means, unless the line is spelled like a statement that formats:
then its colon is refused as a range. If it is the name of a cell, `left:right` fills the cell with
the right side, unless `=` stands right behind the colon: then the line defines the name of the
cell, which is no name. And a script is read line by line. -/
theorem read_by_form (number : Nat) (left right : String) :
    (IsPlainName left → Text.trim right ≠ "" →
      read? number (left ++ " := " ++ right).toList =
        if looksLikeFormat left right then .error ⟨number, .badRange ":="⟩
        else .ok (some ⟨number, .define left (meaning (Text.trim right))⟩)) ∧
    (∀ p : Position, Position.read? left = some p →
      Sheet.isName left = false ∧
      read? number (left ++ ":" ++ right).toList =
        if right.toList.head? = some '=' then
          let text := Text.trim (String.ofList right.toList.tail)
          if text = "" then .error ⟨number, .missingDefinition left⟩
          else .ok (some ⟨number, .define left (meaning text)⟩)
        else .ok (some ⟨number, .assign p (Text.trim right)⟩)) ∧
    ∀ lines : List String, lines ≠ [] → (∀ line ∈ lines, '\n' ∉ line.toList) →
      readAll ("\n".intercalate lines) = readFrom 1 (lines.map String.toList) := by
  refine ⟨fun hname hblank => read?_definition hname right hblank number, fun p hcell =>
    ⟨isName_of_position_read? hcell, ?_⟩, fun lines => readAll_lines⟩
  rw [read?_assignment hcell]
  by_cases hequals : right.toList.head? = some '='
  · simp only [if_pos hequals, readDefinition_eq]
    split <;> rfl
  · simp only [if_neg hequals]

/-- The forms met by a script of two lines. -/
theorem read_by_form_of_two :
    readAll ("\n".intercalate ["rate := 0.2", "A1: =rate"]) =
      readFrom 1 (["rate := 0.2", "A1: =rate"].map String.toList) ∧
    read? 1 ("rate" ++ " := " ++ "0.2").toList =
      .ok (some ⟨1, .define "rate" (meaning (Text.trim "0.2"))⟩) ∧
    read? 2 ("A1" ++ ":" ++ " =rate").toList =
      .ok (some ⟨2, .assign ⟨0, 0⟩ (Text.trim " =rate")⟩) := by
  obtain ⟨hdefinition, -, hlines⟩ := read_by_form 1 "rate" "0.2"
  obtain ⟨-, hassignment, -⟩ := read_by_form 2 "A1" " =rate"
  refine ⟨hlines _ (by decide) (by simp), ?_, ?_⟩
  · have hname : IsPlainName "rate" := ⟨by decide,
      List.all_eq_true.mp (by decide : "rate".toList.all isNameChar = true), by simp⟩
    exact hdefinition hname (by decide)
  · exact (hassignment ⟨0, 0⟩ (by decide)).2

/-- A name that can be defined whose definition is refused as a format, and a cell whose input is
taken for a definition. -/
theorem lines_taken_for_others :
    (Sheet.isName "format" = true ∧ IsPlainName "format" ∧
      readAll "format := money" = .error ⟨1, .badRange ":="⟩) ∧
    Position.read? "A1" = some ⟨0, 0⟩ ∧
      readAll "A1:=B2" = .ok [⟨1, .define "A1" (meaning "B2")⟩] := by
  have hname : IsPlainName "format" := ⟨by decide,
    List.all_eq_true.mp (by decide : "format".toList.all isNameChar = true), by simp⟩
  have hcell : Position.read? "A1" = some ⟨0, 0⟩ := by decide
  refine ⟨⟨by decide, hname, ?_⟩, hcell, ?_⟩
  · have hread := read?_definition hname "money" (by decide) 1
    rw [if_pos (by decide)] at hread
    rw [readAll_single (by simp)]
    exact congrArg (Except.map Option.toList) hread
  · have hread := read?_assignment hcell "=B2" 1
    rw [if_pos (by decide)] at hread
    rw [readAll_single (by simp)]
    exact congrArg (Except.map Option.toList) hread

end ScriptLine

end Spreadsheet
