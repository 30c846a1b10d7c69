import Spreadsheet.Proofs.Evaluation.Frame
import Spreadsheet.Proofs.Formula.Completeness

/-! Reading a formula recognizes the grammar: a text is without faults exactly when its words are
and derive a tree, which is then the tree that was read. The grammar leaves open what may follow a
word, so that a word before an opening parenthesis can only be what it calls is a fact about whole
derivations. -/

namespace Spreadsheet

open Grammar Reader

/-! ## What is called -/

namespace Token

/-- The words that stand directly before an opening parenthesis, from left to right. -/
def callees : List Token → List String
  | [] => []
  | t :: rest =>
    if t.kind == .identifier && (next rest).isPunctuation "(" then t.text :: callees rest
    else callees rest

variable {t : Token} {ts us : List Token}

theorem callees_append (h : (next us).isPunctuation "(" = false) :
    callees (ts ++ us) = callees ts ++ callees us := by
  induction ts with
  | nil => rfl
  | cons t ts ih =>
    have hnext : (next (ts ++ us)).isPunctuation "(" = (next ts).isPunctuation "(" := by
      cases ts with
      | nil => exact h
      | cons u ts => rfl
    simp only [List.cons_append, callees, hnext, ih]
    split <;> rfl

theorem callees_cons (h : t.kind ≠ .identifier) : callees (t :: ts) = callees ts := by
  simp [callees, h]

/-- Without parentheses nothing is called. -/
theorem callees_eq_nil (h : ∀ t ∈ ts, t.isPunctuation "(" = false) : callees ts = [] := by
  induction ts with
  | nil => rfl
  | cons t ts ih =>
    have hnext : (next ts).isPunctuation "(" = false := by
      cases ts with
      | nil => rfl
      | cons u ts => exact h u (by simp)
    simp [callees, hnext, ih fun u hu => h u (List.mem_cons_of_mem _ hu)]

theorem not_opening_of_writes {l : Literal} (h : t.Writes l) : t.isPunctuation "(" = false := by
  cases h <;> exact isPunctuation_of_kind (by simp [*])

theorem not_opening_of_ends {kind : Place.Kind} {p : Place} (h : t.Ends kind p) :
    t.isPunctuation "(" = false := by
  obtain hk | ⟨-, hk⟩ := h.1 <;> exact isPunctuation_of_kind (by simp [hk])

theorem not_opening_of_isOperator {s : String} (h : t.isOperator s = true) :
    t.isPunctuation "(" = false :=
  isPunctuation_of_kind (by simp [kind_of_isOperator h])

theorem not_identifier_of_isOperator {s : String} (h : t.isOperator s = true) :
    t.kind ≠ .identifier := by simp [kind_of_isOperator h]

theorem not_identifier_of_isPunctuation {s : String} (h : t.isPunctuation s = true) :
    t.kind ≠ .identifier := by simp [kind_of_isPunctuation h]

theorem not_opening_of_item {l : Literal} (h : Item ts l) :
    ∀ t ∈ ts, t.isPunctuation "(" = false := by
  cases h with
  | plain h => simp [not_opening_of_writes h]
  | plus mark h | minus mark h =>
    simp [not_opening_of_isOperator mark, not_opening_of_writes h]

theorem not_opening_of_rows {rows : List (List Literal)} (h : Rows ts rows) :
    ∀ t ∈ ts, t.isPunctuation "(" = false := by
  induction h with
  | last item mark =>
    exact List.forall_mem_append.mpr ⟨not_opening_of_item item,
      List.forall_mem_singleton.mpr (eq_of_isPunctuation mark (by decide))⟩
  | next item mark _ ih | newRow item mark _ ih =>
    exact List.forall_mem_append.mpr ⟨not_opening_of_item item,
      List.forall_mem_cons.mpr ⟨eq_of_isPunctuation mark (by decide), ih⟩⟩

/-- What a phrase calls. Where the tree of a phrase is that of the call around it, the call
itself does not count. -/
def calledIn : Phrase → Expr → List String
  | .arguments _, e => e.calls.tail
  | _, e => e.calls

/-- A mark that is no opening parenthesis ends what stands before it. -/
theorem callees_append_cons (h : t.isPunctuation "(" = false) (hk : t.kind ≠ .identifier) :
    callees (ts ++ t :: us) = callees ts ++ callees us := by
  have hnext : (next (t :: us)).isPunctuation "(" = false := h
  rw [callees_append hnext, callees_cons hk]

theorem callees_append_mark {s : String} (h : t.isPunctuation s = true) (hs : s ≠ "(") :
    callees (ts ++ t :: us) = callees ts ++ callees us :=
  callees_append_cons (eq_of_isPunctuation h hs) (not_identifier_of_isPunctuation h)

/-- Further parts of a union start with a comma. -/
theorem next_parts {e : Expr} (h : Derives .parts ts e)
    (hus : (next us).isPunctuation "(" = false) :
    (next (ts ++ us)).isPunctuation "(" = false := by
  cases h with
  | noPart => exact hus
  | nextPart comma _ _ => exact eq_of_isPunctuation comma (by decide)

/-- The words before an opening parenthesis are the functions that the tree of a phrase calls.
So in a derivation no name, cell or truth value stands there. -/
theorem callees_of_derives {p : Phrase} {e : Expr} (h : Derives p ts e) :
    callees ts = calledIn p e := by
  induction h with
  | operand _ ih | alone _ ih | unsigned _ ih | given _ ih => exact ih
  | omitted | noPart => rfl
  | binary mem mark _ _ left right =>
    rw [callees_append_cons (not_opening_of_isOperator mark) (not_identifier_of_isOperator mark),
      left, right]
    rfl
  | sign mark _ ih =>
    rw [callees_cons (not_identifier_of_isOperator mark), ih]
    rfl
  | literal h => exact callees_eq_nil (by simp [not_opening_of_writes h])
  | cell kind _ | name kind _ _ _ =>
    exact callees_eq_nil (List.forall_mem_singleton.mpr (isPunctuation_of_kind (by simp [kind])))
  | range start mark finish =>
    exact callees_eq_nil (by
      simp [not_opening_of_ends start, not_opening_of_isOperator mark, not_opening_of_ends finish])
  | bareCall kind mark mark' =>
    have hclose := not_identifier_of_isPunctuation mark'
    have hopen := not_identifier_of_isPunctuation mark
    simp [callees, kind, next, mark, hopen, hclose, calledIn, Expr.calls, Expr.callsIn]
  | @call t start ts es kind mark _ _ ih =>
    have hword : callees (t :: start :: ts) = t.text :: callees (start :: ts) := by
      simp [callees, kind, next, mark]
    rw [hword, callees_cons (not_identifier_of_isPunctuation mark), ih]
    rfl
  | paren mark _ mark' ih =>
    rw [callees_cons (not_identifier_of_isPunctuation mark),
      callees_append_mark mark' (by decide), ih]
    exact List.append_nil _
  | @union _ close ts more _ _ mark _ rest _ mark' ih ih' =>
    have hclose : close.isPunctuation "(" = false := eq_of_isPunctuation mark' (by decide)
    have hmore : (next (more ++ [close])).isPunctuation "(" = false := next_parts rest hclose
    rw [callees_cons (not_identifier_of_isPunctuation mark), callees_append hmore,
      callees_append_mark mark' (by decide), ih, ih']
    rfl
  | array mark h _ =>
    rw [callees_cons (not_identifier_of_isPunctuation mark)]
    exact callees_eq_nil (not_opening_of_rows h)
  | lastArgument _ mark ih =>
    rw [callees_append_mark mark (by decide), ih]
    rfl
  | nextArgument _ mark _ ih ih' =>
    rw [callees_append_mark mark (by decide), ih, ih']
    rfl
  | @nextPart ts more _ _ _ mark _ rest ih ih' =>
    have hmore : (next (more ++ [])).isPunctuation "(" = false := next_parts rest rfl
    rw [List.append_nil] at hmore
    rw [callees_cons (not_identifier_of_isPunctuation mark), callees_append hmore, ih, ih']
    rfl

/-! ## The end -/

/-- The tokens of a text are its words and the end, whatever is wrong with the words. -/
theorem lexFrom_ends (cs : List Char) (offset taken : Nat) :
    ∃ ts last, lexFrom offset taken cs = ts ++ [last] ∧ last.kind = .finish := by
  induction cs generalizing offset taken with
  | nil => exact ⟨[], _, rfl, rfl⟩
  | cons c cs ih =>
    cases taken with
    | succ n => exact ih _ n
    | zero =>
      rw [lexFrom]
      split
      · exact ih _ 0
      · obtain ⟨ts, last, hts, hlast⟩ := ih (offset + c.utf8Size) (scan c cs).2
        exact ⟨_ :: ts, last, congrArg (_ :: ·) hts, hlast⟩

/-- The words of a text, without the end. -/
def words (text : String) : List Token := (lex text).dropLast

theorem lex_eq (text : String) :
    ∃ last : Token, lex text = words text ++ [last] ∧ last.kind = .finish := by
  obtain ⟨ts, last, hts, hlast⟩ := lexFrom_ends text.toList 0 0
  refine ⟨last, ?_, hlast⟩
  rw [words, lex, hts, List.dropLast_concat]

end Token

namespace Parsed

/-- A text has no fault and reads as a tree exactly when none of its words is bad by itself and
they derive the tree. Number literals of a derivation are finite, rows of an array constant are
equally long, and only what is called stands before an opening parenthesis. In particular the
words of a text have at most one tree. -/
theorem reads_iff_derives (text : String) (e : Expr) :
    ((ofText text).isValid = true ∧ (ofText text).expr = e) ↔
      (∀ t ∈ Token.lex text, t.diagnostic? = none) ∧
        Derives .expression (Token.words text) e ∧
        Token.callees (Token.words text) = e.calls := by
  obtain ⟨last, hlex, hlast⟩ := Token.lex_eq text
  constructor
  · intro ⟨hvalid, he⟩
    obtain ⟨ts, last', hts, -, hd⟩ := derives_of_isValid hvalid
    have hwords : Token.words text = ts := by rw [Token.words, hts, List.dropLast_concat]
    rw [he, ← hwords] at hd
    exact ⟨((isValid_iff text).mp hvalid).1, hd, Token.callees_of_derives hd⟩
  · intro ⟨_, hd, _⟩
    exact ofText_of_derives hlex hlast hd

end Parsed

end Spreadsheet
