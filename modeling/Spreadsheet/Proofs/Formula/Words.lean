import Spreadsheet.Formula.Reading

/-! What the tokens of a text are. A text without a lexical fault is a run of words up to its end,
and each kind of word is read back from its characters when no character that could belong to it
follows. -/

namespace Spreadsheet.Token

/-- An identifier starts with the character: nothing else does. -/
structure OpensIdentifier (c : Char) : Prop where
  notBlank : Text.isBlank c = false
  notNumber : isNumberChar c = false
  notQuote : c ≠ '"'
  notHash : c ≠ '#'
  starts : startsIdentifier c = true

/-! ## The tokens of a text -/

theorem kind_of_isOperator {t : Token} {s : String} (h : t.isOperator s = true) :
    t.kind = .operator := by
  simp only [isOperator, Bool.and_eq_true, beq_iff_eq] at h
  exact h.1

theorem kind_of_isPunctuation {t : Token} {s : String} (h : t.isPunctuation s = true) :
    t.kind = .punctuation := by
  simp only [isPunctuation, Bool.and_eq_true, beq_iff_eq] at h
  exact h.1

theorem notFinish_of_isOperator {t : Token} {s : String} (h : t.isOperator s = true) :
    t.kind ≠ .finish := by simp [kind_of_isOperator h]

theorem notFinish_of_isPunctuation {t : Token} {s : String} (h : t.isPunctuation s = true) :
    t.kind ≠ .finish := by simp [kind_of_isPunctuation h]

/-- The characters are those of one identifier. -/
def IsIdentifier (cs : List Char) : Prop :=
  ∃ c rest, cs = c :: rest ∧ OpensIdentifier c ∧ ∀ d ∈ rest, isIdentifierChar d = true

/-- The token is neither bad nor the end, and its text is what its kind says. -/
structure IsWord (t : Token) : Prop where
  notFinish : t.kind ≠ .finish
  notBad : ∀ fault, t.kind ≠ .bad fault
  number : t.kind = .number → ∃ x, Number.read? t.text = some x
  numeral : t.kind = .number → ∀ c ∈ t.text.toList, isNumberChar c = true
  error : t.kind = .error → ∃ e, ErrorCode.ofText? t.text = some e
  identifier : t.kind = .identifier → IsIdentifier t.text.toList

/-- Words up to the end of a text. -/
inductive Closed : List Token → Prop
  | finish {t : Token} (h : t.kind = .finish) : Closed [t]
  | word {t : Token} {ts : List Token} (h : t.IsWord) (rest : Closed ts) : Closed (t :: ts)

theorem Closed.tail {t : Token} {ts : List Token} (h : Closed (t :: ts)) (ht : t.kind ≠ .finish) :
    t.IsWord ∧ Closed ts := by
  cases h with
  | finish hf => exact absurd hf ht
  | word hw hr => exact ⟨hw, hr⟩

theorem Closed.words {ts : List Token} {last : Token} (h : Closed (ts ++ [last])) :
    (∀ t ∈ ts, t.IsWord) ∧ last.kind = .finish := by
  induction ts with
  | nil =>
    cases h with
    | finish hk => exact ⟨nofun, hk⟩
    | word _ rest => cases rest
  | cons t ts ih =>
    have hrest : t.IsWord ∧ Closed (ts ++ [last]) := by
      have hne : ts ++ [last] ≠ [] := by simp
      rw [List.cons_append] at h
      generalize ts ++ [last] = us at h hne ⊢
      cases h with
      | finish _ => exact absurd rfl hne
      | word hw rest => exact ⟨hw, rest⟩
    obtain ⟨hts, hlast⟩ := ih hrest.2
    exact ⟨List.forall_mem_cons.mpr ⟨hrest.1, hts⟩, hlast⟩

theorem take_length_takeWhile (p : Char → Bool) (cs : List Char) :
    cs.take (cs.takeWhile p).length = cs.takeWhile p :=
  (List.prefix_iff_eq_take.mp (List.takeWhile_prefix p)).symm

theorem ofText?_isSome_of_errorLiteral? {cs : List Char} {e : ErrorCode}
    (h : errorLiteral? cs = some e) :
    ∃ e', ErrorCode.ofText? (String.ofList (cs.take e.text.length)) = some e' := by
  have hmatch := List.find?_some h
  refine Option.isSome_iff_exists.mp (List.find?_isSome.mpr ⟨e, e.mem_all, ?_⟩)
  simp only [beq_iff_eq] at hmatch
  simp [Text.sameIgnoringCase, hmatch]

theorem length_text_pos (e : ErrorCode) : 0 < e.text.length := by cases e <;> decide

theorem scan_isWord {c : Char} {rest : List Char} (hb : Text.isBlank c = false)
    (hbad : ∀ fault, (scan c rest).1 ≠ .bad fault) (start : Nat) :
    IsWord ⟨(scan c rest).1, String.ofList (c :: rest.take (scan c rest).2), start⟩ := by
  generalize hs : scan c rest = r at hbad ⊢
  simp only [scan] at hs
  split at hs
  · next hnumber =>
    split at hs
    · next hread =>
      subst hs
      refine ⟨nofun, nofun, fun _ => ?_, fun _ => ?_, nofun, nofun⟩
      · rw [take_length_takeWhile]
        obtain ⟨n, hn⟩ := Option.isSome_iff_exists.mp hread
        exact ⟨n.toFloat, by rw [Number.read?, String.toList_ofList, hn]; rfl⟩
      · rw [take_length_takeWhile, String.toList_ofList, List.forall_mem_cons]
        exact ⟨hnumber, fun d hd => List.all_eq_true.mp List.all_takeWhile d hd⟩
    · subst hs
      exact absurd rfl (hbad _)
  · next hnumber =>
    split at hs
    · split at hs
      · subst hs
        exact ⟨nofun, nofun, nofun, nofun, nofun, nofun⟩
      · subst hs
        exact absurd rfl (hbad _)
    · next hquote =>
      split at hs
      · split at hs
        · next e he =>
          subst hs
          refine ⟨nofun, nofun, nofun, nofun, fun _ => ?_, nofun⟩
          have hpos := length_text_pos e
          have htake : c :: rest.take (e.text.length - 1) = (c :: rest).take e.text.length := by
            rw [← List.take_succ_cons, Nat.sub_add_cancel hpos]
          rw [htake]
          exact ofText?_isSome_of_errorLiteral? he
        · subst hs
          exact absurd rfl (hbad _)
      · next hhash =>
        split at hs
        · next hstart =>
          subst hs
          refine ⟨nofun, nofun, nofun, nofun, nofun, fun _ =>
            ⟨c, rest.takeWhile isIdentifierChar, ?_, ?_, ?_⟩⟩
          · rw [String.toList_ofList, take_length_takeWhile]
          · exact ⟨hb, by simpa using hnumber, by simpa using hquote, by simpa using hhash, hstart⟩
          · exact fun d hd => List.all_eq_true.mp List.all_takeWhile d hd
        · repeat' split at hs
          all_goals subst hs
          all_goals first
            | exact absurd rfl (hbad _)
            | exact ⟨nofun, nofun, nofun, nofun, nofun, nofun⟩

theorem lexFrom_closed (cs : List Char) (offset taken : Nat)
    (h : ∀ t ∈ lexFrom offset taken cs, t.diagnostic? = none) :
    Closed (lexFrom offset taken cs) := by
  induction cs generalizing offset taken with
  | nil => exact .finish rfl
  | cons c rest ih =>
    cases taken with
    | succ n => exact ih _ _ h
    | zero =>
      cases hb : Text.isBlank c with
      | true =>
        simp only [lexFrom, hb, if_true] at h ⊢
        exact ih _ _ h
      | false =>
        simp only [lexFrom, hb, Bool.false_eq_true, if_false] at h ⊢
        refine .word (scan_isWord hb (fun fault hf => ?_) offset)
          (ih _ _ fun t ht => h t (List.mem_cons_of_mem _ ht))
        have := h _ List.mem_cons_self
        simp [diagnostic?, hf] at this

/-! ## Words read back -/

/-- The characters that end any word before them. -/
def closers : List Char := "+-*/^&=<>:(),;\x7b\x7d".toList

/-- No word goes on into `rest`. -/
def Boundary (rest : List Char) : Prop := ∀ c ∈ rest.head?, c ∈ closers

theorem Boundary.nil : Boundary [] := nofun

theorem Boundary.cons {c : Char} (h : c ∈ closers) (rest : List Char) : Boundary (c :: rest) := by
  rintro d hd
  cases hd
  exact h

theorem closers_spec {c : Char} (h : c ∈ closers) :
    isIdentifierChar c = false ∧ isNumberChar c = false ∧ c ≠ '"' := by
  have hall : closers.all (fun c => !isIdentifierChar c && !isNumberChar c && c != '"') = true := by
    decide
  simpa [and_assoc] using List.all_eq_true.mp hall c h

theorem takeWhile_append_stop {p : Char → Bool} {xs rest : List Char} (hx : ∀ c ∈ xs, p c = true)
    (hr : ∀ c ∈ rest.head?, p c = false) : (xs ++ rest).takeWhile p = xs := by
  rw [List.takeWhile_append_of_pos hx]
  obtain _ | ⟨c, rest⟩ := rest
  · simp
  · simp [hr c rfl]

theorem dropWhile_append_stop {p : Char → Bool} {xs rest : List Char} (hx : ∀ c ∈ xs, p c = true)
    (hr : ∀ c ∈ rest.head?, p c = false) : (xs ++ rest).dropWhile p = rest := by
  rw [List.dropWhile_append_of_pos hx]
  obtain _ | ⟨c, rest⟩ := rest
  · simp
  · simp [hr c rfl]

theorem utf8ByteSize_cons (c : Char) (cs : List Char) :
    (String.ofList (c :: cs)).utf8ByteSize = c.utf8Size + (String.ofList cs).utf8ByteSize := by
  rw [String.ofList_cons, String.utf8ByteSize_append, String.utf8ByteSize_singleton]

/-- Characters that already belong to a token are passed over. -/
theorem lexFrom_skip (cs : List Char) (offset taken : Nat) :
    lexFrom offset taken cs =
      lexFrom (offset + (String.ofList (cs.take taken)).utf8ByteSize) 0 (cs.drop taken) := by
  induction cs generalizing offset taken with
  | nil => cases taken <;> rfl
  | cons c cs ih =>
    cases taken with
    | zero => rfl
    | succ n =>
      rw [List.take_succ_cons, List.drop_succ_cons, utf8ByteSize_cons, ← Nat.add_assoc, ← ih]
      rfl

/-- One token, when the scan of its characters stops where they end. -/
theorem lexFrom_word {c : Char} {xs rest : List Char} {kind : Kind} (hb : Text.isBlank c = false)
    (hs : scan c (xs ++ rest) = (kind, xs.length)) (offset : Nat) :
    ∃ o, lexFrom offset 0 (c :: (xs ++ rest)) =
      ⟨kind, String.ofList (c :: xs), offset⟩ :: lexFrom o 0 rest := by
  have hrest := lexFrom_skip (xs ++ rest) (offset + c.utf8Size) xs.length
  rw [List.take_left, List.drop_left] at hrest
  refine ⟨offset + c.utf8Size + (String.ofList xs).utf8ByteSize, ?_⟩
  simp only [lexFrom, hb, Bool.false_eq_true, if_false, hs, List.take_left, hrest]

theorem lexFrom_identifier_stop {cs rest : List Char} (h : IsIdentifier cs)
    (hr : ∀ c ∈ rest.head?, isIdentifierChar c = false) (offset : Nat) :
    ∃ o, lexFrom offset 0 (cs ++ rest) =
      ⟨.identifier, String.ofList cs, offset⟩ :: lexFrom o 0 rest := by
  obtain ⟨c, xs, rfl, hc, hx⟩ := h
  refine lexFrom_word hc.notBlank ?_ offset
  have htake := takeWhile_append_stop hx hr
  simp [scan, hc.notNumber, hc.notQuote, hc.notHash, hc.starts, htake]

theorem lexFrom_identifier {cs rest : List Char} (h : IsIdentifier cs) (hr : Boundary rest)
    (offset : Nat) :
    ∃ o, lexFrom offset 0 (cs ++ rest) =
      ⟨.identifier, String.ofList cs, offset⟩ :: lexFrom o 0 rest :=
  lexFrom_identifier_stop h (fun d hd => (closers_spec (hr d hd)).1) offset

theorem isBlank_of_isNumberChar {c : Char} (h : isNumberChar c = true) :
    Text.isBlank c = false := by
  simp only [isNumberChar, Bool.or_eq_true, beq_iff_eq] at h
  obtain h | rfl := h
  · exact Text.isBlank_of_isDigit h
  · decide

theorem lexFrom_number_stop {cs rest : List Char} {x : Float}
    (h : ∀ c ∈ cs, isNumberChar c = true) (hx : Number.read? (String.ofList cs) = some x)
    (hr : ∀ c ∈ rest.head?, isNumberChar c = false) (offset : Nat) :
    ∃ o, lexFrom offset 0 (cs ++ rest) =
      ⟨.number, String.ofList cs, offset⟩ :: lexFrom o 0 rest := by
  obtain ⟨n, hn, -⟩ := Option.map_eq_some_iff.mp hx
  rw [String.toList_ofList] at hn
  obtain _ | ⟨c, xs⟩ := cs
  · cases hn
  have hc := h c List.mem_cons_self
  refine lexFrom_word (isBlank_of_isNumberChar hc) ?_ offset
  have htake := takeWhile_append_stop (fun d hd => h d (List.mem_cons_of_mem _ hd)) hr
  simp [scan, hc, htake, hn]

theorem lexFrom_number {cs rest : List Char} {x : Float} (h : ∀ c ∈ cs, isNumberChar c = true)
    (hx : Number.read? (String.ofList cs) = some x) (hr : Boundary rest) (offset : Nat) :
    ∃ o, lexFrom offset 0 (cs ++ rest) =
      ⟨.number, String.ofList cs, offset⟩ :: lexFrom o 0 rest :=
  lexFrom_number_stop h hx (fun d hd => (closers_spec (hr d hd)).2.1) offset

theorem stringEnd?_doubleQuotes (cs : List Char) {rest : List Char}
    (hr : ∀ c ∈ rest.head?, c ≠ '"') :
    stringEnd? (Text.doubleQuotes cs ++ '"' :: rest) =
      some ((Text.doubleQuotes cs).length + 1) := by
  induction cs with
  | nil =>
    obtain _ | ⟨c, rest⟩ := rest
    · rfl
    · have := hr c rfl
      simp [Text.doubleQuotes, stringEnd?, this]
  | cons c cs ih =>
    by_cases h : c = '"'
    · simp [Text.doubleQuotes, h, stringEnd?, ih]
    · simp [Text.doubleQuotes, h, stringEnd?, ih]

theorem lexFrom_quote (s : String) {rest : List Char} (hr : Boundary rest) (offset : Nat) :
    ∃ o, lexFrom offset 0 ((Text.quote s).toList ++ rest) =
      ⟨.string, Text.quote s, offset⟩ :: lexFrom o 0 rest := by
  have hend := stringEnd?_doubleQuotes s.toList fun c hc => (closers_spec (hr c hc)).2.2
  have hscan : scan '"' (Text.doubleQuotes s.toList ++ ['"'] ++ rest) =
      (.string, (Text.doubleQuotes s.toList ++ ['"']).length) := by
    have hnumber : isNumberChar '"' = false := by decide
    simp [scan, hend, hnumber]
  have := lexFrom_word (by decide) hscan offset
  simpa [Text.quote] using this

/-- No error's text starts another's. -/
theorem eq_of_text_prefix {e e' : ErrorCode}
    (h : e.text.toList.map Char.toUpper <+: e'.text.toList.map Char.toUpper) : e = e' := by
  cases e <;> cases e' <;> first | rfl | exact absurd h (by decide)

theorem errorLiteral?_text (e : ErrorCode) (rest : List Char) :
    errorLiteral? (e.text.toList ++ rest) = some e := by
  have hself : (errorLiteral? (e.text.toList ++ rest)).isSome := by
    refine List.find?_isSome.mpr ⟨e, e.mem_all, ?_⟩
    simp [← String.length_toList]
  obtain ⟨e', he'⟩ := Option.isSome_iff_exists.mp hself
  have hmatch := List.find?_some he'
  simp only [beq_iff_eq] at hmatch
  have hprefix : e'.text.toList.map Char.toUpper <+: (e.text.toList ++ rest).map Char.toUpper :=
    hmatch ▸ (List.take_prefix _ _).map _
  have hprefix' : e.text.toList.map Char.toUpper <+: (e.text.toList ++ rest).map Char.toUpper :=
    (List.prefix_append _ _).map _
  obtain h | h := List.prefix_or_prefix_of_prefix hprefix hprefix'
  · rw [he', eq_of_text_prefix h]
  · rw [he', eq_of_text_prefix h]

theorem lexFrom_error (e : ErrorCode) (rest : List Char) (offset : Nat) :
    ∃ o, lexFrom offset 0 (e.text.toList ++ rest) =
      ⟨.error, e.text, offset⟩ :: lexFrom o 0 rest := by
  obtain ⟨cs, hcs⟩ : ∃ cs, e.text.toList = '#' :: cs := by cases e <;> exact ⟨_, rfl⟩
  have hliteral := errorLiteral?_text e rest
  have hlength : e.text.length - 1 = cs.length := by rw [← String.length_toList, hcs]; rfl
  have htext : String.ofList ('#' :: cs) = e.text := by rw [← hcs, String.ofList_toList]
  rw [hcs] at hliteral ⊢
  have hscan : scan '#' (cs ++ rest) = (.error, cs.length) := by
    have hnumber : isNumberChar '#' = false := by decide
    simp only [List.cons_append] at hliteral
    simp [scan, hliteral, hnumber, hlength]
  rw [← htext]
  exact lexFrom_word (by decide) hscan offset

theorem lexFrom_punctuation {c : Char} (h : c ∈ "(),;\x7b\x7d".toList) (rest : List Char)
    (offset : Nat) :
    ∃ o, lexFrom offset 0 (c :: rest) =
      ⟨.punctuation, String.ofList [c], offset⟩ :: lexFrom o 0 rest := by
  have hscan : Text.isBlank c = false ∧ scan c ([] ++ rest) = (.punctuation, 0) := by
    have h : c = '(' ∨ c = ')' ∨ c = ',' ∨ c = ';' ∨ c = '\x7b' ∨ c = '\x7d' := by simpa using h
    obtain rfl | rfl | rfl | rfl | rfl | rfl := h <;> simp +decide [scan]
  exact lexFrom_word hscan.1 hscan.2 offset

theorem lexFrom_operator {c : Char} (h : c ∈ "+-*/^&=:".toList) (rest : List Char)
    (offset : Nat) :
    ∃ o, lexFrom offset 0 (c :: rest) =
      ⟨.operator, String.ofList [c], offset⟩ :: lexFrom o 0 rest := by
  have hscan : Text.isBlank c = false ∧ scan c ([] ++ rest) = (.operator, 0) := by
    have h : c = '+' ∨ c = '-' ∨ c = '*' ∨ c = '/' ∨ c = '^' ∨ c = '&' ∨ c = '=' ∨ c = ':' := by
      simpa using h
    obtain rfl | rfl | rfl | rfl | rfl | rfl | rfl | rfl := h <;> simp +decide [scan]
  exact lexFrom_word hscan.1 hscan.2 offset

theorem lexFrom_symbol (op : BinaryOp) {rest : List Char}
    (hr : ∀ c ∈ rest.head?, c ≠ '=' ∧ c ≠ '>') (offset : Nat) :
    ∃ o, lexFrom offset 0 (op.symbol.toList ++ rest) =
      ⟨.operator, op.symbol, offset⟩ :: lexFrom o 0 rest := by
  have hequal : rest.head? ≠ some '=' := fun h => (hr '=' h).1 rfl
  have hgreater : rest.head? ≠ some '>' := fun h => (hr '>' h).2 rfl
  have more (c : Char) (xs : List Char) (hb : Text.isBlank c = false)
      (hs : scan c (xs ++ rest) = (.operator, xs.length)) :
      ∃ o, lexFrom offset 0 (c :: xs ++ rest) =
        ⟨.operator, String.ofList (c :: xs), offset⟩ :: lexFrom o 0 rest :=
    lexFrom_word hb hs offset
  cases op with
  | less => exact more '<' [] (by decide) (by simp +decide [scan, hequal, hgreater])
  | greater => exact more '>' [] (by decide) (by simp +decide [scan, hequal])
  | unequal => exact more '<' ['>'] (by decide) (by simp +decide [scan])
  | atMost => exact more '<' ['='] (by decide) (by simp +decide [scan])
  | atLeast => exact more '>' ['='] (by decide) (by simp +decide [scan])
  | _ => exact lexFrom_operator (by decide) rest offset

/-- Up to any boundary that follows, the tokens of the characters satisfy `P`. -/
def Lexes (cs : List Char) (P : List Token → Prop) : Prop :=
  ∀ offset rest, Boundary rest →
    ∃ ts o, lexFrom offset 0 (cs ++ rest) = ts ++ lexFrom o 0 rest ∧ P ts

/-- The characters end any word before them. -/
def Joins (cs : List Char) : Prop := ∀ rest, Boundary rest → Boundary (cs ++ rest)

theorem Joins.nil : Joins [] := fun _ h => h

theorem Joins.cons {c : Char} (h : c ∈ closers) (cs : List Char) : Joins (c :: cs) :=
  fun rest _ => .cons h (cs ++ rest)

namespace Lexes

variable {cs ds : List Char} {P Q R : List Token → Prop}

theorem nil (h : P []) : Lexes [] P := fun offset _ _ => ⟨[], offset, rfl, h⟩

theorem mono (h : Lexes cs P) (hp : ∀ ts, P ts → Q ts) : Lexes cs Q := by
  intro offset rest hr
  obtain ⟨ts, o, he, hts⟩ := h offset rest hr
  exact ⟨ts, o, he, hp ts hts⟩

theorem append (h : Lexes cs P) (h' : Lexes ds Q) (hj : Joins ds)
    (hr : ∀ us vs, P us → Q vs → R (us ++ vs)) : Lexes (cs ++ ds) R := by
  intro offset rest hrest
  obtain ⟨us, o, he, hus⟩ := h offset (ds ++ rest) (hj rest hrest)
  obtain ⟨vs, o', he', hvs⟩ := h' o rest hrest
  exact ⟨us ++ vs, o', by rw [List.append_assoc, he, he', List.append_assoc], hr us vs hus hvs⟩

theorem both (h : Lexes cs P) (h' : Lexes ds Q) (hj : Joins ds) :
    Lexes (cs ++ ds) fun ts => ∃ us vs, ts = us ++ vs ∧ P us ∧ Q vs :=
  h.append h' hj fun us vs hus hvs => ⟨us, vs, rfl, hus, hvs⟩

/-- A character that is one token whatever follows. -/
theorem token {c : Char} {kind : Kind} {text : String} (h : ∀ offset rest, ∃ o,
      lexFrom offset 0 (c :: rest) = ⟨kind, text, offset⟩ :: lexFrom o 0 rest)
    (h' : Lexes ds Q) (hr : ∀ start us, Q us → R (⟨kind, text, start⟩ :: us)) :
    Lexes (c :: ds) R := by
  intro offset rest hrest
  obtain ⟨o, he⟩ := h offset (ds ++ rest)
  obtain ⟨us, o', he', hus⟩ := h' o rest hrest
  exact ⟨_ :: us, o', by rw [List.cons_append, he, he', List.cons_append], hr offset us hus⟩

/-- Characters that are one word before a boundary. -/
theorem word {kind : Kind} {text : String} (h : ∀ offset rest, Boundary rest → ∃ o,
      lexFrom offset 0 (cs ++ rest) = ⟨kind, text, offset⟩ :: lexFrom o 0 rest)
    (hp : ∀ start, P [⟨kind, text, start⟩]) : Lexes cs P := by
  intro offset rest hrest
  obtain ⟨o, he⟩ := h offset rest hrest
  exact ⟨[_], o, he, hp offset⟩

theorem punctuation {c : Char} (hc : c ∈ "(),;\x7b\x7d".toList) (h : Lexes ds Q) :
    Lexes (c :: ds) fun ts => ∃ t us, ts = t :: us ∧
      t.isPunctuation (String.ofList [c]) = true ∧ Q us :=
  token (fun offset rest => lexFrom_punctuation hc rest offset) h
    fun start us hus => ⟨_, us, rfl, by simp [isPunctuation], hus⟩

theorem mark {c : Char} (hc : c ∈ "(),;\x7b\x7d".toList) :
    Lexes [c] fun ts => ∃ t, ts = [t] ∧ t.isPunctuation (String.ofList [c]) = true :=
  (punctuation hc (nil rfl)).mono fun _ ⟨t, _, hts, ht, hus⟩ => ⟨t, by rw [hts, hus], ht⟩

theorem closedBy {c : Char} (hc : c ∈ "(),;\x7b\x7d".toList) (h : Lexes cs P) :
    Lexes (cs ++ [c]) fun ts => ∃ us t, ts = us ++ [t] ∧ P us ∧
      t.isPunctuation (String.ofList [c]) = true := by
  have hcloser : c ∈ closers := by
    have hsub : "(),;\x7b\x7d".toList ⊆ closers := by decide
    exact hsub hc
  refine h.append (mark hc) (.cons hcloser []) ?_
  rintro us vs hus ⟨t, rfl, ht⟩
  exact ⟨us, t, rfl, hus, ht⟩

theorem operator {c : Char} (hc : c ∈ "+-*/^&=:".toList) (h : Lexes ds Q) :
    Lexes (c :: ds) fun ts => ∃ t us, ts = t :: us ∧
      t.isOperator (String.ofList [c]) = true ∧ Q us :=
  token (fun offset rest => lexFrom_operator hc rest offset) h
    fun start us hus => ⟨_, us, rfl, by simp [isOperator], hus⟩

/-- An operator in front of characters that do not make it a longer one. -/
theorem symbol (op : BinaryOp) (h : Lexes ds Q) {c : Char} {ds' : List Char} (hd : ds = c :: ds')
    (hc : c ≠ '=' ∧ c ≠ '>') :
    Lexes (op.symbol.toList ++ ds) fun ts => ∃ t us, ts = t :: us ∧
      t.isOperator op.symbol = true ∧ Q us := by
  intro offset rest hrest
  have hhead : ∀ d ∈ (ds ++ rest).head?, d ≠ '=' ∧ d ≠ '>' := by
    subst hd
    rintro d hd
    cases hd
    exact hc
  obtain ⟨o, he⟩ := lexFrom_symbol op hhead offset
  obtain ⟨us, o', he', hus⟩ := h o rest hrest
  refine ⟨⟨.operator, op.symbol, offset⟩ :: us, o', ?_, _, us, rfl, by simp [isOperator], hus⟩
  rw [List.append_assoc, he, he', List.cons_append]

end Lexes

end Spreadsheet.Token
