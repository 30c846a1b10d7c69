import Spreadsheet.Proofs.Formula.Lexing
import Spreadsheet.Proofs.Text.Slicing

/-! Lexing loses nothing. The tokens of a text are its pieces from front to back with only blanks
around them, and the lexer that walks over the text by byte offsets finds them: it goes on by at
least one character each time, and all its cuts lie between characters. -/

namespace Spreadsheet.Token

open String (utf8Len)

/-- Where the next token can start. -/
def stop (t : Token) : Nat := t.start + t.text.utf8ByteSize

def isBad (t : Token) : Bool :=
  match t.kind with
  | .bad _ => true
  | _ => false

/-! ## Tokens in a text -/

/-- The characters from `offset` on are blanks and these tokens, in turn. -/
inductive Interleaved : Nat → List Token → List Char → Prop
  | done (offset : Nat) : Interleaved offset [] []
  | blank {offset : Nat} {ts : List Token} {c : Char} {cs : List Char} (hc : Text.isBlank c = true)
    (rest : Interleaved (offset + c.utf8Size) ts cs) : Interleaved offset ts (c :: cs)
  | token {t : Token} {ts : List Token} {cs : List Char} (hk : t.kind ≠ .finish) (ht : t.text ≠ "")
    (rest : Interleaved t.stop ts cs) : Interleaved t.start (t :: ts) (t.text.toList ++ cs)

/-- The token that a character starts, with the characters behind it. -/
def first (offset : Nat) (c : Char) (cs : List Char) : Token :=
  ⟨(scan c cs).1, String.ofList (c :: cs.take (scan c cs).2), offset⟩

theorem scan_ne_finish (c : Char) (cs : List Char) : (scan c cs).1 ≠ .finish := by
  unfold scan
  dsimp only
  repeat' split
  all_goals nofun

theorem lexFrom_first {c : Char} (hc : Text.isBlank c = false) (cs : List Char) (offset : Nat) :
    lexFrom offset 0 (c :: cs) = first offset c cs ::
      lexFrom (first offset c cs).stop 0 (cs.drop (scan c cs).2) := by
  have hrest := lexFrom_skip cs (offset + c.utf8Size) (scan c cs).2
  simp only [lexFrom, hc, Bool.false_eq_true, if_false, hrest, first, stop, utf8ByteSize_cons,
    Nat.add_assoc]

/-- The tokens lie in the text in turn with blanks, and the end behind it. -/
theorem interleaved_lexFrom (cs : List Char) (offset : Nat) :
    ∃ ts, lexFrom offset 0 cs = ts ++ [⟨.finish, "", offset + utf8Len cs⟩] ∧
      Interleaved offset ts cs := by
  -- a token takes several characters along, so the induction is on how many are left
  induction hn : cs.length using Nat.strong_induction_on generalizing cs offset with
  | h n ih =>
    cases cs with
    | nil => exact ⟨[], rfl, .done offset⟩
    | cons c cs =>
      rw [List.length_cons] at hn
      cases hc : Text.isBlank c with
      | true =>
        obtain ⟨ts, hts, hrest⟩ := ih cs.length (by omega) cs (offset + c.utf8Size) rfl
        refine ⟨ts, ?_, .blank hc hrest⟩
        rw [lexFrom, if_pos hc, hts, String.utf8Len_cons, Nat.add_assoc, Nat.add_comm c.utf8Size]
      | false =>
        obtain ⟨more, hmore⟩ : ∃ more, more = (scan c cs).2 := ⟨_, rfl⟩
        obtain ⟨ts, hts, hrest⟩ := ih (cs.drop more).length
          (by rw [List.length_drop]; omega) (cs.drop more) (first offset c cs).stop rfl
        have htext : (first offset c cs).text.toList ++ cs.drop more = c :: cs := by
          rw [first, String.toList_ofList, ← hmore, List.cons_append, List.take_append_drop]
        have hend : (first offset c cs).stop + utf8Len (cs.drop more) =
            offset + utf8Len (c :: cs) := by
          rw [← htext, String.utf8Len_append, String.utf8Len_toList, stop, first, Nat.add_assoc]
        refine ⟨first offset c cs :: ts, ?_, ?_⟩
        · rw [lexFrom_first hc, ← hmore, hts, hend, List.cons_append]
        · have hinterleaved := Interleaved.token (t := first offset c cs) (scan_ne_finish c cs)
            (by simp [first]) hrest
          rwa [htext] at hinterleaved

/-! ## By byte offsets -/

/-- How far a text is lexed, and what was found so far. -/
structure Walk where
  /-- In bytes. -/
  position : Nat
  tokens : List Token
  diagnostics : List Diagnostic

namespace Walk

/-- The token between two offsets; the walk goes on behind it. -/
def push? (text : String) (kind : Kind) (first last : Nat) (w : Walk) : Option Walk := do
  let piece ← Text.slice? text first last
  return ⟨last, w.tokens ++ [⟨kind, piece, first⟩], w.diagnostics⟩

/-- A bad token, which is reported too. -/
def reject? (text : String) (fault : Fault) (first last : Nat) (w : Walk) : Option Walk :=
  push? text (.bad fault) first last
    { w with diagnostics := w.diagnostics ++ [⟨first, fault⟩] }

/-- What is left of the text. -/
def rest? (text : String) (w : Walk) : Option String :=
  Text.slice? text w.position text.utf8ByteSize

def isNumberByte (b : UInt8) : Bool := 48 ≤ b && b ≤ 57 || b == 46

def number? (text : String) (w : Walk) : Option Walk := do
  let rest ← w.rest? text
  let last := w.position + ((Text.bytes rest).takeWhile isNumberByte).length
  let piece ← Text.slice? text w.position last
  if (Number.Numeral.read? piece.toList).isSome then w.push? text .number w.position last
  else w.reject? text (.malformedNumber piece) w.position last

/-- How many bytes a string runs on for, its closing quote included; 34 is a quote. -/
def closing? : List UInt8 → Option Nat
  | [] => none
  | 34 :: 34 :: rest => (closing? rest).map (· + 2)
  | 34 :: _ => some 1
  | _ :: rest => (closing? rest).map (· + 1)

def string? (text : String) (w : Walk) : Option Walk :=
  match closing? ((Text.bytes text).drop (w.position + 1)) with
  | some n => w.push? text .string w.position (w.position + 1 + n)
  | none => w.reject? text .openString w.position text.utf8ByteSize

def errorLiteral? (text : String) (w : Walk) : Option Walk := do
  let rest ← w.rest? text
  match ← ErrorCode.all.findM? fun e => Text.startsWith? rest e.text with
  | some e => w.push? text .error w.position (w.position + e.text.utf8ByteSize)
  | none => w.reject? text .unknownErrorLiteral w.position (w.position + 1)

def identifier? (text : String) (w : Walk) : Option Walk := do
  let rest ← w.rest? text
  w.push? text .identifier w.position
    (w.position + utf8Len (rest.toList.takeWhile isIdentifierChar))

/-- An operator of one character, or of two if one of these comes next. -/
def operator? (text : String) (more : List Char) (w : Walk) : Option Walk := do
  let rest ← w.rest? text
  let size := match rest.toList[1]? with
    | some c => if more.contains c then 2 else 1
    | none => 1
  w.push? text .operator w.position (w.position + size)

/-- The token that starts with `c`. -/
def word? (text : String) (c : Char) (w : Walk) : Option Walk :=
  if isNumberChar c then w.number? text
  else if c == '"' then w.string? text
  else if c == '#' then w.errorLiteral? text
  else if startsIdentifier c then w.identifier? text
  else if c == '<' then w.operator? text ['=', '>']
  else if c == '>' then w.operator? text ['=']
  else if "+-*/^&=:".toList.contains c then w.push? text .operator w.position (w.position + 1)
  else if "(),;\x7b\x7d".toList.contains c then
    w.push? text .punctuation w.position (w.position + 1)
  else w.reject? text (.strayCharacter c) w.position (w.position + c.utf8Size)

def skipBlanks? (text : String) (w : Walk) : Option Walk := do
  let rest ← w.rest? text
  return { w with position := w.position + utf8Len (rest.toList.takeWhile Text.isBlank) }

/-- Token after token, to the end of the text, which must come within so many rounds. -/
def run? (text : String) : Nat → Walk → Option Walk
  | 0, _ => none
  | rounds + 1, w => do
    let w ← w.skipBlanks? text
    let rest ← w.rest? text
    match rest.toList.head? with
    | none => return w
    | some c => run? text rounds (← w.word? text c)

end Walk

/-- The tokens and the diagnostics of a text, by byte offsets. There is a result only if no cut
goes through a character, and if each round gets on by at least a byte. -/
def lexBytes? (text : String) : Option (List Token × List Diagnostic) := do
  let w ← Walk.run? text (text.utf8ByteSize + 1) ⟨0, [], []⟩
  let last ← Text.slice? text text.utf8ByteSize text.utf8ByteSize
  return (w.tokens ++ [⟨.finish, last, text.utf8ByteSize⟩], w.diagnostics)

/-! ## One token -/

namespace Walk

/-- The characters that are left of the text. -/
def At (text : String) (cs : List Char) (w : Walk) : Prop :=
  ∃ before, text = before ++ String.ofList cs ∧ w.position = before.utf8ByteSize

/-- The walk behind one more token, which is reported if it is bad. -/
def after (t : Token) (w : Walk) : Walk :=
  ⟨t.stop, w.tokens ++ [t], w.diagnostics ++ t.diagnostic?.toList⟩

section Cuts

variable {text : String} {w : Walk} {cs xs ys : List Char}

theorem At.rest? (h : w.At text cs) : w.rest? text = some (String.ofList cs) := by
  obtain ⟨before, rfl, hposition⟩ := h
  rw [Walk.rest?, hposition, Text.slice?_rest]

theorem At.size (h : w.At text cs) : text.utf8ByteSize = w.position + utf8Len cs := by
  obtain ⟨before, rfl, hposition⟩ := h
  rw [String.utf8ByteSize_append, hposition, String.utf8ByteSize_ofList]

theorem At.bytes (h : w.At text cs) :
    (Text.bytes text).drop w.position = Text.bytes (String.ofList cs) := by
  obtain ⟨before, rfl, hposition⟩ := h
  rw [Text.bytes_append, hposition, ← Text.length_bytes, List.drop_left]

theorem At.slice? (h : w.At text (xs ++ ys)) :
    Text.slice? text w.position (w.position + utf8Len xs) = some (String.ofList xs) := by
  obtain ⟨before, rfl, hposition⟩ := h
  rw [String.ofList_append, ← String.append_assoc, hposition, ← String.utf8ByteSize_ofList,
    Text.slice?_append]

theorem At.of_position (h : w.At text (xs ++ ys)) {w' : Walk}
    (hposition : w'.position = w.position + utf8Len xs) : w'.At text ys := by
  obtain ⟨before, rfl, hbefore⟩ := h
  refine ⟨before ++ String.ofList xs, ?_, ?_⟩
  · rw [String.ofList_append, String.append_assoc]
  · rw [hposition, hbefore, String.utf8ByteSize_append, String.utf8ByteSize_ofList]

theorem At.push? (h : w.At text (xs ++ ys)) {kind : Kind}
    (hgood : ∀ piece first, Token.diagnostic? ⟨kind, piece, first⟩ = none) :
    w.push? text kind w.position (w.position + utf8Len xs) =
      some (w.after ⟨kind, String.ofList xs, w.position⟩) := by
  rw [Walk.push?, h.slice?, after, hgood, stop, String.utf8ByteSize_ofList, Option.toList_none,
    List.append_nil]
  rfl

theorem At.reject? (h : w.At text (xs ++ ys)) (fault : Fault) :
    w.reject? text fault w.position (w.position + utf8Len xs) =
      some (w.after ⟨.bad fault, String.ofList xs, w.position⟩) := by
  rw [Walk.reject?, Walk.push?, h.slice?, after, stop, String.utf8ByteSize_ofList]
  rfl

end Cuts

section Word

variable {text : String} {w : Walk} {c : Char} {cs : List Char}

/-- The walk behind the token that the characters start with. -/
def next (c : Char) (cs : List Char) (w : Walk) : Walk := w.after (first w.position c cs)

theorem At.split (h : w.At text (c :: cs)) (n : Nat) :
    w.At text ((c :: cs.take n) ++ cs.drop n) := by
  rwa [List.cons_append, List.take_append_drop]

theorem At.takes (h : w.At text (c :: cs)) {kind : Kind} {n last : Nat}
    (hscan : scan c cs = (kind, n))
    (hgood : ∀ piece first, Token.diagnostic? ⟨kind, piece, first⟩ = none)
    (hlast : last = w.position + utf8Len (c :: cs.take n)) :
    w.push? text kind w.position last = some (w.next c cs) := by
  rw [hlast, (h.split n).push? hgood, next, first, hscan]

theorem At.refuses (h : w.At text (c :: cs)) {fault : Fault} {n last : Nat}
    (hscan : scan c cs = (.bad fault, n))
    (hlast : last = w.position + utf8Len (c :: cs.take n)) :
    w.reject? text fault w.position last = some (w.next c cs) := by
  rw [hlast, (h.split n).reject?, next, first, hscan]

theorem isAsciiTest_number : Text.IsAsciiTest isNumberByte isNumberChar := by
  refine ⟨fun c hc => ?_, fun b hb => ?_, fun c hc => ?_⟩
  · exact Text.of_ascii (P := fun c => isNumberByte c.val.toUInt8 = isNumberChar c) (by decide) hc
  · rw [UInt8.le_iff_toNat_le] at hb
    change 128 ≤ b.toNat at hb
    have hnine : ¬ b ≤ 57 := fun h => by
      have hle : b.toNat ≤ 57 := UInt8.le_iff_toNat_le.mp h
      omega
    have hpoint : b ≠ 46 := by
      rintro rfl
      revert hb
      decide
    simp [isNumberByte, hnine, hpoint]
  · rw [Char.utf8Size_eq_one_iff]
    simp only [isNumberChar, Bool.or_eq_true, beq_iff_eq] at hc
    obtain hdigit | rfl := hc
    · have hnine : c.val ≤ '9'.val := of_decide_eq_true (Bool.and_eq_true_iff.mp hdigit).2
      exact UInt32.le_trans hnine (by decide)
    · decide

theorem At.number? (h : w.At text (c :: cs)) (hc : isNumberChar c = true) :
    w.number? text = some (w.next c cs) := by
  obtain ⟨n, hn⟩ : ∃ n, n = (cs.takeWhile isNumberChar).length := ⟨_, rfl⟩
  have htake : cs.take n = cs.takeWhile isNumberChar := hn ▸ take_length_takeWhile ..
  have hsize : ((Text.bytes (String.ofList (c :: cs))).takeWhile isNumberByte).length =
      utf8Len (c :: cs.take n) := by
    rw [Text.length_takeWhile_bytes isAsciiTest_number, List.takeWhile_cons_of_pos hc, htake]
  have hscan : scan c cs =
      (if (Number.Numeral.read? (c :: cs.take n)).isSome then .number
        else .bad (.malformedNumber (String.ofList (c :: cs.take n))), n) := by
    rw [htake, hn]
    by_cases hread : (Number.Numeral.read? (c :: cs.takeWhile isNumberChar)).isSome <;>
      simp [scan, hc, hread]
  simp only [Walk.number?, h.rest?, Option.bind_eq_bind, Option.bind_some, hsize,
    (h.split n).slice?, String.toList_ofList]
  split
  · next hread =>
    rw [if_pos hread] at hscan
    exact h.takes hscan (fun _ _ => rfl) rfl
  · next hread =>
    rw [if_neg hread] at hscan
    exact h.refuses hscan rfl

theorem ne_quote_of_mem {c : Char} (hc : c ≠ '"') {b : UInt8}
    (hb : b ∈ String.utf8EncodeChar c) : b ≠ 34 := by
  by_cases hascii : c.utf8Size = 1
  · rw [String.utf8EncodeChar_eq_singleton hascii, List.mem_singleton] at hb
    subst hb
    revert hc
    exact Text.of_ascii (P := fun c => c ≠ '"' → c.val.toUInt8 ≠ 34) (by decide) hascii
  · have hlarge := UInt8.le_iff_toNat_le.mp (Text.le_of_mem_utf8EncodeChar hascii hb)
    rintro rfl
    revert hlarge
    decide

theorem closing?_append {bs more : List UInt8} (h : ∀ b ∈ bs, b ≠ 34) :
    closing? (bs ++ more) = (closing? more).map (· + bs.length) := by
  induction bs with
  | nil => simp
  | cons b bs ih =>
    obtain ⟨hb, hbs⟩ := List.forall_mem_cons.mp h
    have hstep : closing? (b :: (bs ++ more)) = (closing? (bs ++ more)).map (· + 1) := by
      rw [closing?]
      · rintro - rfl -
        exact hb rfl
      · exact hb
    rw [List.cons_append, hstep, ih hbs, Option.map_map]
    exact congrArg (Option.map · (closing? more)) (funext fun n => by simp; omega)

/-- A quote closes the string unless another one follows. -/
theorem closing?_quote {cs : List Char} (h : ∀ rest, cs ≠ '"' :: rest) :
    closing? (34 :: cs.flatMap String.utf8EncodeChar) = some 1 := by
  cases cs with
  | nil => rfl
  | cons c rest =>
    have hc : c ≠ '"' := fun hc => h rest (hc ▸ rfl)
    obtain ⟨b, bs, hbytes⟩ := List.exists_cons_of_ne_nil (String.utf8EncodeChar_ne_nil (c := c))
    have hb : b ≠ 34 := ne_quote_of_mem hc (hbytes ▸ List.mem_cons_self)
    rw [List.flatMap_cons, hbytes, List.cons_append, closing?]
    rintro rest heq
    exact hb (List.cons.inj heq).1

/-- The walk over the bytes of a string ends behind the same quote. -/
theorem closing?_bytes (cs : List Char) :
    closing? (Text.bytes (String.ofList cs)) =
      (stringEnd? cs).map fun n => utf8Len (cs.take n) := by
  rw [Text.bytes_ofList]
  fun_induction stringEnd? cs with
  | case1 => rfl
  | case2 rest ih =>
    change closing? (34 :: 34 :: rest.flatMap String.utf8EncodeChar) = _
    rw [closing?, ih, Option.map_map, Option.map_map]
    rfl
  | case3 rest hrest =>
    change closing? (34 :: rest.flatMap String.utf8EncodeChar) = _
    rw [closing?_quote hrest]
    rfl
  | case4 c rest hquotes hquote ih =>
    rw [List.flatMap_cons, closing?_append fun b hb => ne_quote_of_mem hquote hb, ih,
      Option.map_map, Option.map_map, String.length_utf8EncodeChar]
    rfl

theorem At.string? (h : w.At text ('"' :: cs)) : w.string? text = some (w.next '"' cs) := by
  have hnumber : isNumberChar '"' = false := by decide
  have hbytes : (Text.bytes text).drop (w.position + 1) = Text.bytes (String.ofList cs) := by
    rw [← List.drop_drop, h.bytes, Text.bytes_ofList, Text.bytes_ofList, List.flatMap_cons]
    rfl
  rw [Walk.string?, hbytes, closing?_bytes]
  cases hend : stringEnd? cs with
  | some n =>
    have hscan : scan '"' cs = (.string, n) := by simp [scan, hnumber, hend]
    refine h.takes hscan (fun _ _ => rfl) ?_
    change w.position + 1 + utf8Len (cs.take n) = w.position + (utf8Len (cs.take n) + 1)
    omega
  | none =>
    have hscan : scan '"' cs = (.bad .openString, cs.length) := by simp [scan, hnumber, hend]
    refine h.refuses hscan ?_
    rw [List.take_length, h.size]

theorem findM?_errorLiteral (cs : List Char) :
    ErrorCode.all.findM? (fun e => Text.startsWith? (String.ofList cs) e.text) =
      some (Token.errorLiteral? cs) := by
  simp only [Text.startsWith?_eq, String.toList_ofList]
  exact List.findM?_pure ..

theorem At.errorLiteral? (h : w.At text ('#' :: cs)) :
    w.errorLiteral? text = some (w.next '#' cs) := by
  have hnumber : isNumberChar '#' = false := by decide
  simp only [Walk.errorLiteral?, h.rest?, Option.bind_eq_bind, Option.bind_some,
    findM?_errorLiteral]
  cases hliteral : Token.errorLiteral? ('#' :: cs) with
  | some e =>
    have hscan : scan '#' cs = (.error, e.text.length - 1) := by
      simp [scan, hnumber, hliteral]
    refine h.takes hscan (fun _ _ => rfl) ?_
    have hmatch := List.find?_some hliteral
    simp only [beq_iff_eq] at hmatch
    have hlength := length_text_pos e
    rw [← Text.utf8Len_eq_of_toUpper hmatch, ← List.take_succ_cons,
      Nat.sub_add_cancel hlength]
  | none =>
    have hscan : scan '#' cs = (.bad .unknownErrorLiteral, 0) := by simp [scan, hnumber, hliteral]
    exact h.refuses hscan rfl

theorem At.identifier? (h : w.At text (c :: cs)) (hnumber : isNumberChar c = false)
    (hquote : c ≠ '"') (hhash : c ≠ '#') (hc : startsIdentifier c = true) :
    w.identifier? text = some (w.next c cs) := by
  have hscan : scan c cs = (.identifier, (cs.takeWhile isIdentifierChar).length) := by
    simp [scan, hnumber, hquote, hhash, hc]
  simp only [Walk.identifier?, h.rest?, Option.bind_eq_bind, Option.bind_some,
    String.toList_ofList, List.takeWhile_cons_of_pos (isIdentifierChar_of_starts hc)]
  refine h.takes hscan (fun _ _ => rfl) ?_
  rw [take_length_takeWhile]

theorem utf8Size_of_contains {symbols : List Char}
    (h : (symbols.all fun d => d.utf8Size == 1) = true) (hc : symbols.contains c = true) :
    c.utf8Size = 1 :=
  beq_iff_eq.mp (List.all_eq_true.mp h c (List.contains_iff_mem.mp hc))

theorem At.operator? (h : w.At text (c :: cs)) {more : List Char} (hc : c.utf8Size = 1)
    (hmore : (more.all fun d => d.utf8Size == 1) = true)
    (hscan : scan c cs = (.operator, if cs.head?.any more.contains then 1 else 0)) :
    w.operator? text more = some (w.next c cs) := by
  simp only [Walk.operator?, h.rest?, Option.bind_eq_bind, Option.bind_some, String.toList_ofList,
    List.getElem?_cons_succ]
  refine h.takes hscan (fun _ _ => rfl) ?_
  cases cs with
  | nil => simp [hc]
  | cons d ds =>
    cases hd : more.contains d with
    | true =>
      have hd' : d ∈ more := List.contains_iff_mem.mp hd
      simp [hd', hc, utf8Size_of_contains hmore hd]
    | false =>
      have hd' : d ∉ more := fun hmem => by simp [hmem] at hd
      simp [hd', hc]

/-- One round finds the token that the text goes on with. -/
theorem At.word? (h : w.At text (c :: cs)) : w.word? text c = some (w.next c cs) := by
  have hword := scan.eq_1 c cs
  unfold Walk.word?
  split
  · next hnumber => exact h.number? hnumber
  next hnumber =>
  split
  · next hquote =>
    obtain rfl := beq_iff_eq.mp hquote
    exact h.string?
  next hquote =>
  split
  · next hhash =>
    obtain rfl := beq_iff_eq.mp hhash
    exact h.errorLiteral?
  next hhash =>
  split
  · next hstarts =>
    exact h.identifier? (by simpa using hnumber) (by simpa using hquote) (by simpa using hhash)
      hstarts
  next hstarts =>
  -- what is left are symbols, which both lexers tell apart in the same order
  rw [if_neg hnumber, if_neg hquote, if_neg hhash, if_neg hstarts] at hword
  split
  · next hless =>
    rw [if_pos hless] at hword
    obtain rfl := beq_iff_eq.mp hless
    refine h.operator? (by decide) (by decide) (hword.trans ?_)
    cases cs <;> simp
  next hless =>
  rw [if_neg hless] at hword
  split
  · next hgreater =>
    rw [if_pos hgreater] at hword
    obtain rfl := beq_iff_eq.mp hgreater
    refine h.operator? (by decide) (by decide) (hword.trans ?_)
    cases cs <;> simp
  next hgreater =>
  rw [if_neg hgreater] at hword
  split
  · next hoperator =>
    rw [if_pos hoperator] at hword
    refine h.takes hword (fun _ _ => rfl) ?_
    simp [utf8Size_of_contains (by decide) hoperator]
  next hoperator =>
  rw [if_neg hoperator] at hword
  split
  · next hmark =>
    rw [if_pos hmark] at hword
    refine h.takes hword (fun _ _ => rfl) ?_
    simp [utf8Size_of_contains (by decide) hmark]
  next hmark =>
  rw [if_neg hmark] at hword
  exact h.refuses hword (by simp)

end Word

/-! ## All tokens -/

variable {text : String} {w : Walk} {cs : List Char}

theorem At.skipBlanks? (h : w.At text cs) :
    ∃ w', w.skipBlanks? text = some w' ∧ w'.At text (cs.dropWhile Text.isBlank) ∧
      w'.tokens = w.tokens ∧ w'.diagnostics = w.diagnostics ∧
      lexFrom w.position 0 cs = lexFrom w'.position 0 (cs.dropWhile Text.isBlank) := by
  have hsplit : w.At text (cs.takeWhile Text.isBlank ++ cs.dropWhile Text.isBlank) := by
    rwa [List.takeWhile_append_dropWhile]
  have hbefore : ∀ c ∈ cs.takeWhile Text.isBlank, Text.isBlank c = true :=
    List.all_eq_true.mp List.all_takeWhile
  have hblanks := lexFrom_blanks hbefore (cs.dropWhile Text.isBlank) w.position
  rw [List.takeWhile_append_dropWhile, String.utf8ByteSize_ofList] at hblanks
  refine ⟨{ w with position := w.position + utf8Len (cs.takeWhile Text.isBlank) }, ?_,
    hsplit.of_position rfl, rfl, rfl, hblanks⟩
  simp only [Walk.skipBlanks?, h.rest?, Option.bind_eq_bind, Option.bind_some, String.toList_ofList]
  rfl

/-- Each round takes at least a byte, so there are enough of them, and what they find are the
tokens that are left. -/
theorem At.run? {rounds : Nat} (h : w.At text cs) (hrounds : utf8Len cs < rounds) :
    ∃ ts, lexFrom w.position 0 cs = ts ++ [⟨.finish, "", text.utf8ByteSize⟩] ∧
      Walk.run? text rounds w =
        some ⟨text.utf8ByteSize, w.tokens ++ ts, w.diagnostics ++ ts.filterMap diagnostic?⟩ := by
  induction rounds generalizing w cs with
  | zero => exact absurd hrounds (Nat.not_lt_zero _)
  | succ rounds ih =>
    -- behind the blanks is the end, or a token from which the walk is again at a character
    obtain ⟨w', hskip, hrest, htokens, hdiagnostics, hlex⟩ := h.skipBlanks?
    have hshorter := String.utf8Len_le_of_sublist (List.dropWhile_sublist (l := cs) Text.isBlank)
    have hfirst : ∀ c ∈ (cs.dropWhile Text.isBlank).head?, Text.isBlank c = false := by
      intro c hc
      have hhead := List.head?_dropWhile_not Text.isBlank cs
      rw [hc] at hhead
      simpa using hhead
    generalize cs.dropWhile Text.isBlank = rest at hrest hlex hshorter hfirst
    have hround : Walk.run? text (rounds + 1) w =
        match rest.head? with
        | none => some w'
        | some c => (w'.word? text c).bind (Walk.run? text rounds) := by
      simp only [Walk.run?, hskip, Option.bind_eq_bind, Option.bind_some, hrest.rest?,
        String.toList_ofList]
      rfl
    rw [hlex, hround, ← htokens, ← hdiagnostics]
    cases rest with
    | nil =>
      have hend : text.utf8ByteSize = w'.position := hrest.size
      refine ⟨[], by rw [hend]; rfl, ?_⟩
      rw [List.append_nil, List.filterMap_nil, List.append_nil, hend]
      rfl
    | cons c ds =>
      have hmore : (w'.next c ds).At text (ds.drop (scan c ds).2) := by
        refine (hrest.split (scan c ds).2).of_position ?_
        rw [next, after, stop, first, String.utf8ByteSize_ofList]
      have hsuffix := String.utf8Len_le_of_sublist (List.drop_sublist (scan c ds).2 ds)
      have hsize := c.utf8Size_pos
      rw [String.utf8Len_cons] at hshorter
      obtain ⟨ts, hts, hrun⟩ := ih hmore (by omega)
      refine ⟨first w'.position c ds :: ts, ?_, ?_⟩
      · rw [lexFrom_first (hfirst c rfl), List.cons_append, ← hts]
        rfl
      · dsimp only [List.head?_cons]
        rw [hrest.word?, Option.bind_some, hrun, next, after]
        dsimp only
        rw [List.append_assoc, List.append_assoc]
        cases hd : (first w'.position c ds).diagnostic? <;> simp [hd]

end Walk

/-! ## What lexing keeps -/

theorem lexBytes?_eq (text : String) :
    lexBytes? text = some (lex text, (lex text).filterMap diagnostic?) := by
  have hstart : Walk.At text text.toList ⟨0, [], []⟩ :=
    ⟨"", by rw [String.empty_append, String.ofList_toList], rfl⟩
  have hrounds : utf8Len text.toList < text.utf8ByteSize + 1 := by
    rw [String.utf8Len_toList]
    omega
  obtain ⟨ts, hlex, hrun⟩ := hstart.run? hrounds
  have hend := Text.slice?_rest text ""
  rw [String.append_empty] at hend
  rw [lexBytes?, hrun, lex, hlex, List.filterMap_append]
  simp only [Option.bind_eq_bind, Option.bind_some, hend, List.nil_append]
  simp [diagnostic?]

theorem Interleaved.start_le {offset : Nat} {ts : List Token} {cs : List Char}
    (h : Interleaved offset ts cs) : ∀ t ∈ ts, offset ≤ t.start := by
  induction h with
  | done => nofun
  | blank _ _ ih => exact fun t ht => (Nat.le_add_right ..).trans (ih t ht)
  | token _ _ _ ih =>
    refine List.forall_mem_cons.mpr ⟨le_refl _, fun t ht => ?_⟩
    exact (Nat.le_add_right ..).trans (ih t ht)

theorem Interleaved.pairwise {offset : Nat} {ts : List Token} {cs : List Char}
    (h : Interleaved offset ts cs) : ts.Pairwise fun t u => t.stop ≤ u.start := by
  induction h with
  | done => exact .nil
  | blank _ _ ih => exact ih
  | token _ _ rest ih => exact .cons rest.start_le ih

/-- Each token is a piece of the text at its place. -/
theorem Interleaved.piece {offset : Nat} {ts : List Token} {cs : List Char}
    (h : Interleaved offset ts cs) :
    ∀ t ∈ ts, t.kind ≠ .finish ∧ t.text ≠ "" ∧
      ∃ xs ys, cs = xs ++ t.text.toList ++ ys ∧ t.start = offset + utf8Len xs := by
  induction h with
  | done => nofun
  | @blank offset ts c cs _ _ ih =>
    intro t ht
    obtain ⟨hk, htext, xs, ys, rfl, hstart⟩ := ih t ht
    exact ⟨hk, htext, c :: xs, ys, rfl, by rw [hstart, String.utf8Len_cons]; omega⟩
  | @token t ts cs hk htext _ ih =>
    refine List.forall_mem_cons.mpr ⟨⟨hk, htext, [], cs, rfl, rfl⟩, fun u hu => ?_⟩
    obtain ⟨hk', htext', xs, ys, rfl, hstart⟩ := ih u hu
    refine ⟨hk', htext', t.text.toList ++ xs, ys, by simp, ?_⟩
    rw [hstart, stop, String.utf8Len_append, String.utf8Len_toList, Nat.add_assoc]

theorem diagnostic?_eq (t : Token) :
    (t.diagnostic?).map Diagnostic.position = if t.isBad then some t.start else none := by
  unfold diagnostic? isBad
  cases t.kind <;> rfl

/-- For every text the walk by byte offsets comes to its end with no cut inside a character, and
finds the tokens of the text and its diagnostics. There is one end, behind everything; the other
tokens are pieces of the text that are not empty and do not overlap, with nothing but blanks
around them; and the diagnostics are those of the bad tokens, one for each, in order. -/
theorem lex_keeps_text (text : String) :
    lexBytes? text = some (lex text, (lex text).filterMap diagnostic?) ∧
    lex text = words text ++ [⟨.finish, "", text.utf8ByteSize⟩] ∧
    (∀ t ∈ words text, t.kind ≠ .finish ∧ t.text ≠ "" ∧
      Text.slice? text t.start t.stop = some t.text) ∧
    (words text).Pairwise (fun t u => t.stop ≤ u.start) ∧
    Interleaved 0 (words text) text.toList ∧
    ((lex text).filterMap diagnostic?).map (·.position) =
      ((lex text).filter isBad).map (·.start) := by
  obtain ⟨ts, hlex, hinterleaved⟩ := interleaved_lexFrom text.toList 0
  rw [Nat.zero_add, String.utf8Len_toList] at hlex
  have hwords : words text = ts := by rw [words, lex, hlex, List.dropLast_concat]
  refine ⟨lexBytes?_eq text, by rw [hwords, lex, hlex], ?_, ?_, ?_, ?_⟩
  · rw [hwords]
    intro t ht
    obtain ⟨hk, htext, xs, ys, hsplit, hstart⟩ := hinterleaved.piece t ht
    refine ⟨hk, htext, ?_⟩
    have hslice := Text.slice?_append (String.ofList xs) t.text (String.ofList ys)
    rw [String.utf8ByteSize_ofList, ← Nat.zero_add (utf8Len xs), ← hstart] at hslice
    rwa [← String.ofList_toList (s := text), hsplit, String.ofList_append, String.ofList_append,
      String.ofList_toList]
  · rw [hwords]
    exact hinterleaved.pairwise
  · rw [hwords]
    exact hinterleaved
  · rw [List.map_filterMap, ← List.filterMap_eq_filter, List.map_filterMap]
    refine List.filterMap_congr fun t _ => ?_
    rw [diagnostic?_eq, Option.guard]
    split <;> rfl

end Spreadsheet.Token
