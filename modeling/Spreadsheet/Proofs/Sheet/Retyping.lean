import Spreadsheet.Proofs.Calendar.Printing
import Spreadsheet.Proofs.Formula.Ending
import Spreadsheet.Sheet.Cell

/-! A cell typed in again. The text that is shown for typing in a cell anew gives the cell back,
unless the patterns for dates see something else in it: a text that is written without quotes, as it
is a date under none of the patterns that the settings start with, may be a date under those that
they have now; and a date without a time is written in one form, which they need not know. What a
pattern means is left to the reader of dates. -/

namespace Spreadsheet.Contents

variable {patterns : List String} {input : String} {c : Contents} {dates : Calendar.Reader}

/-! ## Reading input -/

/-- What input can put into a cell. -/
inductive Typed (input : String) : Contents → Prop
  | formula : Typed input (.formula (.ofText (Text.trim input)))
  | text (s : String) : Typed input (.value (.text s))
  | number {x : Float} (h : x.isFinite = true) : Typed input (.value (.number x))
  | date {m : Calendar.Moment} (h : m.Written) : Typed input (.value (.date m))
  | logical (b : Bool) : Typed input (.value (.logical b))

theorem typed_infer (hdates : dates.Faithful) {raw : String} (hraw : raw.isEmpty = false) :
    Typed input (.value (Value.infer patterns raw dates)) := by
  unfold Value.infer
  simp only [hraw, Bool.false_eq_true, if_false]
  split
  · exact .text raw
  · split
    · next h => exact .number (Option.filter_eq_some_iff.mp h).2
    · split
      · next h => exact .date (hdates.written_of_read? h)
      · split
        · exact .logical _
        · exact .text raw

theorem typed_of_ofInput? (hdates : dates.Faithful) (h : ofInput? patterns input dates = some c) :
    Typed input c := by
  unfold ofInput? at h
  dsimp only at h
  split_ifs at h with hempty hformula
  · cases h
    exact .formula
  · split at h
    · cases h
      exact .text _
    · cases h
      exact typed_infer hdates (Bool.eq_false_of_not_eq_true hempty)

theorem quoted?_eq_none {s : String} (h : startsWith '"' s = false) : quoted? s = none := by
  unfold quoted?
  split
  · next heq => simp [startsWith, heq] at h
  · rfl

/-- Nothing about the text, as it is typed in, says that it is more than a value. -/
structure Unmarked (s : String) : Prop where
  trimmed : Text.trim s = s
  nonempty : s.isEmpty = false
  noFormula : startsWith '=' s = false
  noQuote : startsWith '"' s = false

namespace Unmarked

variable {s : String} (h : Unmarked s)
include h

theorem ofInput?_eq :
    ofInput? patterns s dates = some (.value (Value.infer patterns s dates)) := by
  unfold ofInput?
  simp only [h.trimmed, h.nonempty, h.noFormula, quoted?_eq_none h.noQuote, Bool.false_eq_true,
    if_false]

theorem infer_of_number {x : Float} (hx : Number.readFinite? s = some x) :
    Value.infer patterns s dates = .number x := by
  unfold Value.infer
  simp only [h.trimmed, h.nonempty, hx, Bool.false_eq_true, if_false]

theorem infer_of_date (hnumber : Number.readFinite? s = none) {m : Calendar.Moment}
    (hm : Calendar.read? patterns s dates = some m) : Value.infer patterns s dates = .date m := by
  unfold Value.infer
  simp only [h.trimmed, h.nonempty, hnumber, hm, Bool.false_eq_true, if_false]

theorem infer_of_logical (hnumber : Number.readFinite? s = none)
    (hdate : Calendar.read? patterns s dates = none) {b : Bool} (hb : Value.readLogical? s = some b) :
    Value.infer patterns s dates = .logical b := by
  unfold Value.infer
  simp only [h.trimmed, h.nonempty, hnumber, hdate, hb, Bool.false_eq_true, if_false]

theorem infer_of_text (hnumber : Number.readFinite? s = none)
    (hdate : Calendar.read? patterns s dates = none) (hlogical : Value.readLogical? s = none) :
    Value.infer patterns s dates = .text s := by
  unfold Value.infer
  simp only [h.trimmed, h.nonempty, hnumber, hdate, hlogical, Bool.false_eq_true, if_false]

/-- What is taken for a text is nothing else. -/
theorem of_infer_eq_text {t : String} (ht : Value.infer patterns s dates = .text t) :
    Number.readFinite? s = none ∧ Value.readLogical? s = none ∧
      Calendar.read? patterns s dates = none := by
  cases hnumber : Number.readFinite? s with
  | some x =>
    rw [h.infer_of_number hnumber] at ht
    cases ht
  | none =>
    cases hdate : Calendar.read? patterns s dates with
    | some m =>
      rw [h.infer_of_date hnumber hdate] at ht
      cases ht
    | none =>
      cases hlogical : Value.readLogical? s with
      | some b =>
        rw [h.infer_of_logical hnumber hdate hlogical] at ht
        cases ht
      | none => exact ⟨rfl, rfl, rfl⟩

end Unmarked

/-! ## Texts that are shown for typing in -/

theorem inputText_number (x : Float) :
    inputText (.value (.number x)) dates = Number.text x := by
  rw [inputText, Value.display]
  nofun

theorem inputText_date (m : Calendar.Moment) : inputText (.value (.date m)) dates = m.text := by
  rw [inputText, Value.display]
  nofun

theorem inputText_logical (b : Bool) :
    inputText (.value (.logical b)) dates = Value.logicalText b := by
  rw [inputText, Value.display]
  nofun

theorem inputText_plain {s : String} (h : isPlain s dates = true) :
    inputText (.value (.text s)) dates = s := by
  rw [inputText, if_pos h]

theorem inputText_quoted {s : String} (h : isPlain s dates = false) :
    inputText (.value (.text s)) dates = "\"" ++ s ++ "\"" := by
  rw [inputText, h]
  rfl

theorem startsWith_eq_false {s : String} {c : Char} (h : ∀ d ∈ s.toList.head?, d ≠ c) :
    startsWith c s = false := by
  unfold startsWith
  cases hs : s.toList.head? with
  | none => rfl
  | some d => simpa using h d hs

/-- A character that numbers and dates start and end with. -/
def IsFigure (c : Char) : Prop := c.isDigit = true ∨ c ∈ ['.', '-', '+']

instance (c : Char) : Decidable (IsFigure c) := inferInstanceAs (Decidable (_ ∨ _))

theorem IsFigure.notBlank {c : Char} (h : IsFigure c) : Text.isBlank c = false := by
  obtain hdigit | hsign := h
  · exact Text.isBlank_of_isDigit hdigit
  · simp only [List.mem_cons, List.not_mem_nil, or_false] at hsign
    obtain rfl | rfl | rfl := hsign <;> decide

theorem IsFigure.ne {c d : Char} (h : IsFigure c) (hd : ¬ IsFigure d) : c ≠ d := by
  rintro rfl
  exact hd h

theorem unmarked_of_ends {s : String} (hne : s.isEmpty = false)
    (hfirst : ∀ c ∈ s.toList.head?, IsFigure c) (hlast : ∀ c ∈ s.toList.getLast?, IsFigure c) :
    Unmarked s where
  trimmed := Text.trim_eq_self (fun c hc => (hfirst c hc).notBlank) fun c hc =>
    (hlast c hc).notBlank
  nonempty := hne
  noFormula := startsWith_eq_false fun c hc => (hfirst c hc).ne (by decide)
  noQuote := startsWith_eq_false fun c hc => (hfirst c hc).ne (by decide)

theorem unmarked_number {x : Float} (hx : x.isFinite = true)
    (hback : (Number.read? (Number.text x)).any (· == x) = true) : Unmarked (Number.text x) := by
  have hfigure {c : Char} (hc : c ∈ (Number.text x).toList) : IsFigure c :=
    (Number.mem_text hx hc).imp_right fun hc => by rcases hc with rfl | rfl <;> simp
  exact unmarked_of_ends (by simpa using Number.text_ne_nil hback)
    (fun c hc => hfigure (List.mem_of_mem_head? hc)) fun c hc => hfigure (List.mem_of_getLast? hc)

theorem unmarked_date (m : Calendar.Moment) : Unmarked m.text := by
  have hne : m.text.toList ≠ [] := by
    obtain ⟨cs, n, htext⟩ := m.text_eq_append_padded
    rw [htext]
    exact List.append_ne_nil_of_right_ne_nil _ Calendar.padded_ne_nil
  have hfirst (c : Char) (hc : c ∈ m.text.toList.head?) : IsFigure c :=
    (Calendar.Moment.head?_text hc).imp_right fun hc => by rcases hc with rfl | rfl <;> simp
  exact unmarked_of_ends (by simpa using hne) hfirst fun c hc =>
    .inl (Calendar.Moment.getLast?_text hc)

theorem unmarked_logical (b : Bool) : Unmarked (Value.logicalText b) := by
  cases b <;> exact ⟨by decide +kernel, by decide, by decide, by decide⟩

theorem isPlain_iff {s : String} : isPlain s dates = true ↔
    Unmarked s ∧ ∃ t, Value.infer Calendar.defaultPatterns s dates = .text t := by
  constructor
  · intro h
    unfold isPlain at h
    split at h
    · next t ht =>
      simp only [Bool.and_eq_true, beq_iff_eq, Bool.not_eq_true'] at h
      obtain ⟨⟨⟨htrimmed, hnonempty⟩, hnoFormula⟩, hnoQuote⟩ := h
      exact ⟨⟨htrimmed, hnonempty, hnoFormula, hnoQuote⟩, t, ht⟩
    · cases h
  · rintro ⟨h, t, ht⟩
    simp [isPlain, ht, h.trimmed, h.nonempty, h.noFormula, h.noQuote]

/-! ## Typing in again -/

/-- The numbers that the contents have, or that their formula was written with, read back from
their own texts. -/
def NumbersReadBack (input : String) : Contents → Prop
  | value (.number x) => (Number.read? (Number.text x)).any (· == x) = true
  | value _ => True
  | formula _ => ∀ t ∈ Token.lex (Formula.body (Text.trim input)), ∀ x : Float,
      t.Writes (.number x) → 0 ≤ x → Number.ReadsBack x

/-- The patterns for dates see in the text that is shown for typing in what the contents are: in a
text without quotes no date, and in the one form of a date without a time that date. -/
def SeenAlike (patterns : List String) (dates : Calendar.Reader) : Contents → Prop
  | value (.text s) => isPlain s dates = true → Calendar.read? patterns s dates = none
  | value (.date m) => m.IsMidnight →
      (patterns.findSome? fun p => dates.day? p m.text) = some m.day
  | _ => True

/-- Typing in the text that is shown for the contents gives them again. -/
def Retypes (patterns : List String) (dates : Calendar.Reader) (c : Contents) : Prop :=
  (ofInput? patterns (c.inputText dates) dates == some c) = true

theorem retypes_iff {s : String} (hs : c.inputText dates = s) {c' : Contents}
    (h : ofInput? patterns s dates = some c') :
    c.Retypes patterns dates ↔ (c' == c) = true := by
  rw [Retypes, hs, h]
  exact Iff.rfl

theorem beq_value {v w : Value} : (value v == value w) = (v == w) := rfl

theorem beq_formula {f g : Formula} :
    (formula f == formula g) = (f.expr == g.expr && f.diagnostics == g.diagnostics) := rfl

theorem retypes_formula (hvalid : (Formula.ofText (Text.trim input)).isValid = true)
    (hnumbers : NumbersReadBack input (.formula (.ofText (Text.trim input)))) :
    (formula (.ofText (Text.trim input))).Retypes patterns dates := by
  have htrim := Formula.trim_text hvalid hnumbers
  obtain ⟨hback, hexpr⟩ := Formula.ofText_text hvalid hnumbers
  generalize Formula.ofText (Text.trim input) = f at *
  have hread : ofInput? patterns f.text dates = some (.formula (.ofText f.text)) := by
    have hempty : f.text.isEmpty = false := by simp [Formula.text]
    have hequals : startsWith '=' f.text = true := by simp [startsWith, Formula.text]
    unfold ofInput?
    simp only [htrim, hempty, hequals, Bool.false_eq_true, if_false, if_true]
  have htext : inputText (.formula f) dates = f.text := rfl
  rw [retypes_iff htext hread, beq_formula, Bool.and_eq_true]
  refine ⟨hexpr, ?_⟩
  rw [List.isEmpty_iff.mp hback, List.isEmpty_iff.mp hvalid]
  rfl

theorem retypes_number {x : Float} (hx : x.isFinite = true)
    (hback : (Number.read? (Number.text x)).any (· == x) = true) :
    (value (.number x)).Retypes patterns dates := by
  obtain ⟨y, hy, hyx⟩ := (Option.any_eq_true _ _).mp hback
  have hread : Number.readFinite? (Number.text x) = some y :=
    Option.filter_eq_some_iff.mpr ⟨hy, Number.isFinite_of_beq hx hyx⟩
  have hunmarked := unmarked_number hx hback
  rw [retypes_iff (inputText_number x) hunmarked.ofInput?_eq, hunmarked.infer_of_number hread]
  exact hyx

theorem retypes_logical (hdates : dates.Faithful) (b : Bool) :
    (value (.logical b)).Retypes patterns dates := by
  have hunmarked := unmarked_logical b
  have hnumber : Number.readFinite? (Value.logicalText b) = none := by cases b <;> decide +kernel
  have hdigitless : ((Value.logicalText b).toList.all fun c => !c.isDigit) = true := by
    cases b <;> decide +kernel
  have hdate : Calendar.read? patterns (Value.logicalText b) dates = none :=
    hdates.read?_eq_none_of_digitless
      (fun c hc => by simpa using List.all_eq_true.mp hdigitless c hc) _
  have hlogical : Value.readLogical? (Value.logicalText b) = some b := by
    cases b <;> decide +kernel
  rw [retypes_iff (inputText_logical b) hunmarked.ofInput?_eq,
    hunmarked.infer_of_logical hnumber hdate hlogical]
  exact beq_self_eq_true b

theorem retypes_date (hdates : dates.Faithful) {m : Calendar.Moment} (h : m.Written) :
    (value (.date m)).Retypes patterns dates ↔ (m.IsMidnight →
      (patterns.findSome? fun p => dates.day? p m.text) = some m.day) := by
  have hread := h.read?_text hdates patterns
  have hunmarked := unmarked_date m
  have hnumber := m.readFinite?_text
  have hsame (m' : Calendar.Moment) : (Value.date m' == .date m) = true ↔ m' = m := by
    change (m' == m) = true ↔ m' = m
    exact beq_iff_eq
  rw [retypes_iff (inputText_date m) hunmarked.ofInput?_eq]
  split_ifs at hread with hmidnight
  · simp only [hmidnight, forall_const]
    cases hfound : patterns.findSome? fun p => dates.day? p m.text with
    | some n =>
      have hday : Calendar.Moment.midnight n = m ↔ n = m.day := by
        obtain ⟨day, second, nanosecond⟩ := m
        obtain ⟨rfl, rfl⟩ : second = 0 ∧ nanosecond = 0 := hmidnight
        exact ⟨congrArg Calendar.Moment.day, congrArg Calendar.Moment.midnight⟩
      rw [hfound] at hread
      rw [hunmarked.infer_of_date hnumber hread, beq_value, hsame, Option.some_inj]
      exact hday
    | none =>
      rw [hfound] at hread
      refine iff_of_false ?_ nofun
      cases hlogical : Value.readLogical? m.text with
      | some b =>
        rw [hunmarked.infer_of_logical hnumber hread hlogical]
        nofun
      | none =>
        rw [hunmarked.infer_of_text hnumber hread hlogical]
        nofun
  · rw [hunmarked.infer_of_date hnumber hread, beq_value, hsame]
    simp [hmidnight]

theorem retypes_plain {s : String} (hplain : isPlain s dates = true) :
    (value (.text s)).Retypes patterns dates ↔ Calendar.read? patterns s dates = none := by
  obtain ⟨hunmarked, t, hinfer⟩ := isPlain_iff.mp hplain
  obtain ⟨hnumber, hlogical, -⟩ := hunmarked.of_infer_eq_text hinfer
  rw [retypes_iff (inputText_plain hplain) hunmarked.ofInput?_eq]
  cases hdate : Calendar.read? patterns s dates with
  | some m =>
    rw [hunmarked.infer_of_date hnumber hdate]
    exact iff_of_false nofun nofun
  | none =>
    rw [hunmarked.infer_of_text hnumber hdate hlogical]
    exact iff_of_true (beq_self_eq_true s) rfl

theorem retypes_quoted {s : String} (hplain : isPlain s dates = false) :
    (value (.text s)).Retypes patterns dates := by
  have hchars : ("\"" ++ s ++ "\"").toList = '"' :: (s.toList ++ ['"']) := by simp
  have htrim : Text.trim ("\"" ++ s ++ "\"") = "\"" ++ s ++ "\"" := by
    refine Text.trim_eq_self (fun c hc => ?_) fun c hc => ?_
    · rw [hchars] at hc
      cases hc
      decide
    · rw [hchars, ← List.cons_append, List.getLast?_append_of_ne_nil _ (List.cons_ne_nil _ _)] at hc
      cases hc
      decide
  have hread : ofInput? patterns ("\"" ++ s ++ "\"") dates = some (.value (.text s)) := by
    have hempty : ("\"" ++ s ++ "\"").isEmpty = false := by simp
    have hequals : startsWith '=' ("\"" ++ s ++ "\"") = false := by simp [startsWith]
    have hquoted : quoted? ("\"" ++ s ++ "\"") = some s := by
      rw [quoted?, hchars]
      simp
    unfold ofInput?
    simp only [htrim, hempty, hequals, hquoted, Bool.false_eq_true, if_false]
  rw [retypes_iff (inputText_quoted hplain) hread]
  exact beq_self_eq_true s

theorem NumbersReadBack.retypes_iff_seenAlike (hnumbers : c.NumbersReadBack input)
    (hdates : dates.Faithful) (h : Typed input c) (hvalid : ∀ f, c = .formula f → f.isValid = true) :
    c.Retypes patterns dates ↔ c.SeenAlike patterns dates := by
  cases h with
  | formula => exact iff_of_true (retypes_formula (hvalid _ rfl) hnumbers) trivial
  | number hx => exact iff_of_true (retypes_number hx hnumbers) trivial
  | logical b => exact iff_of_true (retypes_logical hdates b) trivial
  | date hm => exact retypes_date hdates hm
  | text s =>
    cases hplain : isPlain s dates with
    | true =>
      rw [retypes_plain hplain]
      exact ⟨fun hdate _ => hdate, fun halike => halike hplain⟩
    | false =>
      refine iff_of_true (retypes_quoted hplain) fun htrue => ?_
      rw [hplain] at htrue
      cases htrue

/-- The patterns that the settings start with see in what is shown what the contents are. -/
theorem seenAlike_defaultPatterns (hdates : dates.Faithful) (h : Typed input c) :
    c.SeenAlike Calendar.defaultPatterns dates := by
  cases h with
  | formula | number _ | logical _ => trivial
  | text s =>
    intro hplain
    obtain ⟨hunmarked, t, hinfer⟩ := isPlain_iff.mp hplain
    exact (hunmarked.of_infer_eq_text hinfer).2.2
  | date hm =>
    intro hmidnight
    rw [Calendar.defaultPatterns, List.findSome?_cons, hdates.day, hm.readDay?_text hmidnight]

/-! ## The contents again -/

/-- What is shown for typing in gives the contents of a cell again, a formula without faults
included, exactly when the patterns for dates see in it what the contents are; the patterns that the
settings start with always do. The numbers of the cell are to read back from their own text, and
dates in the forms in which they are printed. -/
theorem retypes_exactly (hdates : dates.Faithful) (h : ofInput? patterns input dates = some c)
    (hvalid : ∀ f, c = .formula f → f.isValid = true) (hnumbers : c.NumbersReadBack input) :
    (c.Retypes patterns dates ↔ c.SeenAlike patterns dates) ∧
      (patterns = Calendar.defaultPatterns → c.Retypes patterns dates) := by
  have htyped := typed_of_ofInput? hdates h
  have hiff : c.Retypes patterns dates ↔ c.SeenAlike patterns dates :=
    hnumbers.retypes_iff_seenAlike hdates htyped hvalid
  refine ⟨hiff, ?_⟩
  rintro rfl
  exact hiff.mpr (seenAlike_defaultPatterns hdates htyped)

theorem retypes_exactly_day_first :
    let dates := Calendar.Reader.byFields
    let patterns := ["%d/%m/%Y", "%Y-%m-%d"]
    let c := value (.date ⟨45657, 0, 0⟩)
    dates.Faithful ∧ ofInput? patterns "31/12/2024" dates = some c ∧
      c.inputText dates = "2024-12-31" ∧ c.Retypes patterns dates := by
  intro dates patterns c
  have hread : ofInput? patterns "31/12/2024" dates = some c := by rfl
  have halike : c.SeenAlike patterns dates := fun _ => by decide +kernel
  have htext : c.inputText dates = "2024-12-31" := by
    have hdate : c.inputText dates = Calendar.Moment.text ⟨45657, 0, 0⟩ := inputText_date _
    rw [hdate]
    decide +kernel
  have hdates := Calendar.Reader.faithful_byFields
  exact ⟨hdates, hread, htext, (retypes_exactly hdates hread nofun trivial).1.mpr halike⟩

/-- A text that is a date under the patterns of the settings is shown without its quotes, and is a
date when it is typed in again. -/
theorem quoted_date_not_retyped :
    let dates := Calendar.Reader.byFields
    let patterns := ["%d.%m.%Y"]
    let c := value (.text "01.02.2024")
    ofInput? patterns "\"01.02.2024\"" dates = some c ∧ c.inputText dates = "01.02.2024" ∧
      ¬ c.Retypes patterns dates := by
  intro dates patterns c
  have hplain : isPlain "01.02.2024" dates = true := by decide +kernel
  have hdate : Calendar.read? patterns "01.02.2024" dates ≠ none := by decide +kernel
  refine ⟨by rfl, inputText_plain hplain, ?_⟩
  rwa [retypes_plain hplain]

end Spreadsheet.Contents
